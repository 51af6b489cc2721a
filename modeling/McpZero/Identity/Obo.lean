import Mathlib.Data.List.Sort
import Mathlib.Data.Rat.Defs
import Mathlib.Logic.Function.Basic
import McpZero.Errors
import McpZero.Lib.AsyncLock
import McpZero.Lib.Except
import McpZero.Lib.Runs

/-! `OBOClient`: token exchange with a cache and one lock for each cache key, as a machine
whose steps run one task from one suspension to the next. -/
namespace McpZero.Identity
open Lib

structure ExchangedToken where
  accessToken : String
  tokenType : String
  expiresIn : ℤ
  scope : String
  issuedAt : ℚ

/-- `now` is the monotonic clock. -/
def ExchangedToken.isExpired (token : ExchangedToken) (now : ℚ) (ttl : ℤ) : Bool :=
  decide (token.expiresIn - ttl ≤ now - token.issuedAt)

structure ExchangeCacheKey where
  subjectId : String
  targetAudience : String
  scopes : List String
  deriving DecidableEq

def ExchangeCacheKey.fromParams (subjectId targetAudience : String) (scopes : List String) :
    ExchangeCacheKey :=
  ⟨subjectId, targetAudience, scopes.insertionSort (· ≤ ·)⟩

/-- The arguments of one `exchange_token`. -/
structure ExchangeRequest where
  subjectToken : String
  subjectId : String
  targetAudience : String
  scopes : List String

def ExchangeRequest.key (r : ExchangeRequest) : ExchangeCacheKey :=
  .fromParams r.subjectId r.targetAudience r.scopes

/-- Requests that share a cache entry differ in their subject token and in the order of their
scopes at most. -/
theorem ExchangeRequest.key_eq {r r' : ExchangeRequest} (h : r.key = r'.key) :
    r.subjectId = r'.subjectId ∧ r.targetAudience = r'.targetAudience ∧
      r.scopes.Perm r'.scopes := by
  obtain ⟨hsubject, haudience, hscopes⟩ := ExchangeCacheKey.mk.inj h
  have hperm : (r.scopes.insertionSort (· ≤ ·)).Perm r'.scopes := by
    rw [hscopes]
    exact List.perm_insertionSort _ _
  exact ⟨hsubject, haudience, (List.perm_insertionSort _ _).symm.trans hperm⟩

/-- The fields of a token response that the client reads. -/
structure TokenBody where
  accessToken : Option String := none
  tokenType : Option String := none
  expiresIn : Option ℤ := none
  scope : Option String := none

/-- What the token endpoint does with a request. The body of a response may fail to parse. -/
inductive TokenResponse
  | httpError (message : String)
  | response (statusCode : ℕ) (text : String) (body : Except Exc TokenBody)

/-- `_perform_exchange` after the endpoint has answered. -/
def performExchange (targetAudience : String) (now : ℚ) :
    TokenResponse → Except Exc ExchangedToken
  | .httpError message =>
    .error (.tokenExchange ("Token exchange request failed: " ++ message) targetAudience)
  | .response statusCode text body =>
    if statusCode ≠ 200 then
      .error (.tokenExchange
        ("Token exchange returned HTTP " ++ toString statusCode ++ ": " ++ text) targetAudience)
    else do
      let body ← body
      if body.accessToken.getD "" = "" then
        .error (.tokenExchange "Token exchange response missing 'access_token'" targetAudience)
      else
        .ok {
          accessToken := body.accessToken.getD ""
          tokenType := body.tokenType.getD "Bearer"
          expiresIn := body.expiresIn.getD 3600
          scope := body.scope.getD ""
          issuedAt := now }

theorem accessToken_of_performExchange {targetAudience : String} {now : ℚ}
    {response : TokenResponse} {token : ExchangedToken}
    (h : performExchange targetAudience now response = .ok token) : token.accessToken ≠ "" := by
  cases response with
  | httpError message => cases h
  | response statusCode text body =>
    simp only [performExchange] at h
    split at h
    · cases h
    · obtain ⟨body, -, h⟩ := Lib.bind_eq_ok.mp h
      split at h <;> cases h
      assumption

/-- Where a task stands in `exchange_token`: at `async with lock`, at the request to the
endpoint, or past its end. -/
inductive ExchangeTask
  | idle
  | waiting (r : ExchangeRequest) (lock : LockId)
  | posting (r : ExchangeRequest) (lock : LockId)
  | returned (r : ExchangeRequest) (token : String)
  | raised (r : ExchangeRequest) (exc : Exc)

def ExchangeTask.pending : ExchangeTask → Bool
  | waiting _ _ => true
  | posting _ _ => true
  | _ => false

/-- The `exchange_token` that a task is in or has ended. -/
def ExchangeTask.request? : ExchangeTask → Option ExchangeRequest
  | waiting r _ => some r
  | posting r _ => some r
  | returned r _ => some r
  | raised r _ => some r
  | idle => none

/-- An exchange that has succeeded. -/
structure Exchange where
  request : ExchangeRequest
  token : ExchangedToken

/-- The client with the tasks that use it. `exchanged` lists the exchanges that have
succeeded, which the source does not keep. -/
structure OBOClient where
  cache : ExchangeCacheKey → Option ExchangedToken := fun _ => none
  locks : ExchangeCacheKey → Option LockId := fun _ => none
  lock : LockId → AsyncLock TaskId := fun _ => {}
  nextLock : LockId := 0
  task : TaskId → ExchangeTask := fun _ => .idle
  now : ℚ := 0
  exchanged : List Exchange := []

/-- A task calls `exchange_token`, takes its turn at a lock, or gets the answer of the
endpoint; or time passes. -/
inductive OBOAction
  | exchange (t : TaskId) (r : ExchangeRequest)
  | resume (t : TaskId)
  | respond (t : TaskId) (response : TokenResponse)
  | tick (seconds : ℚ)

namespace OBOClient

def setTask (c : OBOClient) (t : TaskId) (task : ExchangeTask) : OBOClient :=
  { c with task := Function.update c.task t task }

def setLock (c : OBOClient) (l : LockId) (lock : AsyncLock TaskId) : OBOClient :=
  { c with lock := Function.update c.lock l lock }

/-- `cached and not cached.is_expired(self._config.cache_ttl)`. -/
def cached (cacheTtl : ℤ) (c : OBOClient) (key : ExchangeCacheKey) : Option ExchangedToken :=
  (c.cache key).filter fun token => !token.isExpired c.now cacheTtl

/-- The body of `async with lock` up to the request to the endpoint. -/
def enter (cacheTtl : ℤ) (c : OBOClient) (t : TaskId) (r : ExchangeRequest) (l : LockId) :
    OBOClient :=
  match c.cached cacheTtl r.key with
  | some token => (c.setLock l (c.lock l).release).setTask t (.returned r token.accessToken)
  | none => c.setTask t (.posting r l)

/-- The lock of a cache key, created when it is missing. -/
def lockOf (c : OBOClient) (key : ExchangeCacheKey) : OBOClient × LockId :=
  match c.locks key with
  | some l => (c, l)
  | none =>
    ({ c with
        locks := Function.update c.locks key (some c.nextLock)
        nextLock := c.nextLock + 1 }, c.nextLock)

/-- `exchange_token` up to its first wait. -/
def start (cacheTtl : ℤ) (c : OBOClient) (t : TaskId) (r : ExchangeRequest) : OBOClient :=
  match c.cached cacheTtl r.key with
  | some token => c.setTask t (.returned r token.accessToken)
  | none =>
    let (c, l) := c.lockOf r.key
    if (c.lock l).free then (c.setLock l ((c.lock l).hold t)).enter cacheTtl t r l
    else (c.setLock l ((c.lock l).wait t)).setTask t (.waiting r l)

/-- The end of `exchange_token` after the endpoint has answered. -/
def finish (c : OBOClient) (t : TaskId) (r : ExchangeRequest) (l : LockId)
    (response : TokenResponse) : OBOClient :=
  let released := c.setLock l (c.lock l).release
  match performExchange r.targetAudience c.now response with
  | .ok token =>
    { released.setTask t (.returned r token.accessToken) with
      cache := Function.update c.cache r.key (some token)
      exchanged := ⟨r, token⟩ :: c.exchanged }
  | .error e => released.setTask t (.raised r e)

def step (cacheTtl : ℤ) (c : OBOClient) : OBOAction → Option OBOClient
  | .exchange t r => if (c.task t).pending then none else some (c.start cacheTtl t r)
  | .resume t =>
    match c.task t with
    | .waiting r l =>
      if (c.lock l).turn t then
        some ((c.setLock l ((c.lock l).takeTurn t)).enter cacheTtl t r l)
      else none
    | _ => none
  | .respond t response =>
    match c.task t with
    | .posting r l => some (c.finish t r l response)
    | _ => none
  | .tick seconds => if 0 ≤ seconds then some { c with now := c.now + seconds } else none

/-- The token was obtained by an exchange for a request with the same cache key. -/
def Obtained (c : OBOClient) (r : ExchangeRequest) (token : String) : Prop :=
  ∃ e ∈ c.exchanged, e.request.key = r.key ∧ e.token.accessToken = token

/-- What a task may rely on. -/
def TaskBacked (R : ExchangeRequest → Prop) (c : OBOClient) : ExchangeTask → Prop
  | .waiting r _ => R r
  | .posting r _ => R r
  | .returned r token => c.Obtained r token
  | _ => True

/-- Every token in the cache and every token returned comes from an exchange for its key, and
every exchange is for a request that satisfies `R`. -/
structure Backed (R : ExchangeRequest → Prop) (c : OBOClient) : Prop where
  cache (key : ExchangeCacheKey) (token : ExchangedToken) : c.cache key = some token →
    ∃ e ∈ c.exchanged, e.request.key = key ∧ e.token = token
  exchanged (e : Exchange) : e ∈ c.exchanged → R e.request ∧ e.token.accessToken ≠ ""
  task (t : TaskId) : TaskBacked R c (c.task t)

variable {cacheTtl : ℤ} {R : ExchangeRequest → Prop} {c c' : OBOClient}

theorem TaskBacked.mono {x : ExchangeTask} (h : TaskBacked R c x)
    (hsub : c.exchanged ⊆ c'.exchanged) : TaskBacked R c' x := by
  cases x with
  | returned r token =>
    obtain ⟨e, he, hkey, htoken⟩ := h
    exact ⟨e, hsub he, hkey, htoken⟩
  | _ => exact h

namespace Backed

theorem setLock (h : c.Backed R) (l : LockId) (x : AsyncLock TaskId) : (c.setLock l x).Backed R :=
  ⟨h.cache, h.exchanged, h.task⟩

theorem setTask (h : c.Backed R) (t : TaskId) {x : ExchangeTask} (hx : TaskBacked R c x) :
    (c.setTask t x).Backed R where
  cache := h.cache
  exchanged := h.exchanged
  task t' := by
    have hother : TaskBacked R c ((c.setTask t x).task t') := by
      by_cases ht : t' = t
      · subst ht
        simpa [OBOClient.setTask] using hx
      · simpa [OBOClient.setTask, Function.update_of_ne ht] using h.task t'
    exact hother

theorem obtained_of_cached (h : c.Backed R) {r : ExchangeRequest} {token : ExchangedToken}
    (hcached : c.cached cacheTtl r.key = some token) : c.Obtained r token.accessToken := by
  obtain ⟨hcache, -⟩ := Option.filter_eq_some_iff.mp hcached
  obtain ⟨e, he, hkey, rfl⟩ := h.cache _ _ hcache
  exact ⟨e, he, hkey, rfl⟩

theorem enter (h : c.Backed R) (t : TaskId) {r : ExchangeRequest} (l : LockId) (hR : R r) :
    (c.enter cacheTtl t r l).Backed R := by
  unfold OBOClient.enter
  split
  · exact (h.setLock l _).setTask t (h.obtained_of_cached ‹_›)
  · exact h.setTask t hR

theorem lockOf (h : c.Backed R) (key : ExchangeCacheKey) : (c.lockOf key).1.Backed R := by
  unfold OBOClient.lockOf
  split
  · exact h
  · exact ⟨h.cache, h.exchanged, h.task⟩

theorem start (h : c.Backed R) (t : TaskId) {r : ExchangeRequest} (hR : R r) :
    (c.start cacheTtl t r).Backed R := by
  have hlock := h.lockOf r.key
  unfold OBOClient.start
  split
  · exact h.setTask t (h.obtained_of_cached ‹_›)
  · dsimp only
    split
    · exact (hlock.setLock _ _).enter t _ hR
    · exact (hlock.setLock _ _).setTask t hR

theorem finish (h : c.Backed R) (t : TaskId) {r : ExchangeRequest} (l : LockId)
    (response : TokenResponse) (hR : R r) : (c.finish t r l response).Backed R := by
  unfold OBOClient.finish
  dsimp only
  cases hexchange : performExchange r.targetAudience c.now response with
  | error e => exact (h.setLock l _).setTask t trivial
  | ok token =>
    have hnew : Exchange.mk r token ∈ Exchange.mk r token :: c.exchanged := List.mem_cons_self
    refine ⟨fun key token' hcache => ?_, fun e he => ?_, fun t' => ?_⟩
    · by_cases hk : key = r.key
      · subst hk
        obtain rfl : token = token' := by simpa using hcache
        exact ⟨_, hnew, rfl, rfl⟩
      · obtain ⟨e, he, hkey, htoken⟩ :=
          h.cache key token' (by simpa [Function.update_of_ne hk] using hcache)
        exact ⟨e, List.mem_cons_of_mem _ he, hkey, htoken⟩
    · rcases List.mem_cons.mp he with rfl | hold
      · exact ⟨hR, accessToken_of_performExchange hexchange⟩
      · exact h.exchanged e hold
    · by_cases ht : t' = t
      · subst ht
        simpa [OBOClient.setTask, TaskBacked] using ⟨_, hnew, rfl, rfl⟩
      · show TaskBacked R _ (Function.update c.task t _ t')
        rw [Function.update_of_ne ht]
        exact (h.task t').mono fun e he => List.mem_cons_of_mem _ he

/-- Every step keeps the tokens backed, if it starts no exchange outside `R`. -/
theorem step {a : OBOAction} (h : c.Backed R) (hst : step cacheTtl c a = some c')
    (hR : ∀ t r, a = .exchange t r → R r) : c'.Backed R := by
  cases a with
  | exchange t r =>
    simp only [OBOClient.step] at hst
    split at hst <;> cases hst
    exact h.start t (hR t r rfl)
  | resume t =>
    simp only [OBOClient.step] at hst
    split at hst
    · rename_i r l ht
      split at hst <;> cases hst
      have htask := h.task t
      rw [ht] at htask
      exact (h.setLock l _).enter t l htask
    · cases hst
  | respond t response =>
    simp only [OBOClient.step] at hst
    split at hst <;> cases hst
    rename_i r l ht
    have htask := h.task t
    rw [ht] at htask
    exact h.finish t l response htask
  | tick seconds =>
    simp only [OBOClient.step] at hst
    split at hst <;> cases hst
    exact ⟨h.cache, h.exchanged, h.task⟩

end Backed

theorem backed_empty : ({} : OBOClient).Backed R where
  cache key token h := by cases h
  exchanged e h := absurd h List.not_mem_nil
  task t := trivial

theorem enter_exchanged (t : TaskId) (r : ExchangeRequest) (l : LockId) :
    (c.enter cacheTtl t r l).exchanged = c.exchanged := by
  unfold enter
  split <;> rfl

theorem start_exchanged (t : TaskId) (r : ExchangeRequest) :
    (c.start cacheTtl t r).exchanged = c.exchanged := by
  have hlock : (c.lockOf r.key).1.exchanged = c.exchanged := by
    unfold lockOf
    split <;> rfl
  unfold start
  split
  · rfl
  · dsimp only
    split
    · exact (enter_exchanged _ _ _).trans hlock
    · exact hlock

/-- Exchanges are not forgotten. -/
theorem exchanged_subset {a : OBOAction} (hst : step cacheTtl c a = some c') :
    c.exchanged ⊆ c'.exchanged := by
  cases a with
  | exchange t r =>
    simp only [step] at hst
    split at hst <;> cases hst
    rw [start_exchanged]
    exact List.Subset.refl _
  | resume t =>
    simp only [step] at hst
    split at hst
    · split at hst <;> cases hst
      rw [enter_exchanged]
      exact List.Subset.refl _
    · cases hst
  | respond t response =>
    simp only [step] at hst
    split at hst <;> cases hst
    unfold finish
    dsimp only
    split
    · exact fun e he => List.mem_cons_of_mem _ he
    · exact List.Subset.refl _
  | tick seconds =>
    simp only [step] at hst
    split at hst <;> cases hst
    exact List.Subset.refl _

theorem enter_request? (t : TaskId) (r : ExchangeRequest) (l : LockId) :
    ((c.enter cacheTtl t r l).task t).request? = some r := by
  unfold enter
  split <;> simp [setTask, ExchangeTask.request?]

theorem start_request? (t : TaskId) (r : ExchangeRequest) :
    ((c.start cacheTtl t r).task t).request? = some r := by
  unfold start
  split
  · simp [setTask, ExchangeTask.request?]
  · dsimp only
    split
    · exact enter_request? t r _
    · simp [setTask, ExchangeTask.request?]

theorem request?_of_exchange {t : TaskId} {r : ExchangeRequest}
    (hst : step cacheTtl c (.exchange t r) = some c') : (c'.task t).request? = some r := by
  simp only [step] at hst
  split at hst <;> cases hst
  exact start_request? t r

theorem enter_task_of_ne {t t' : TaskId} (hne : t' ≠ t) (r : ExchangeRequest) (l : LockId) :
    (c.enter cacheTtl t r l).task t' = c.task t' := by
  unfold enter
  split <;> simp [setTask, setLock, Function.update_of_ne hne]

theorem start_task_of_ne {t t' : TaskId} (hne : t' ≠ t) (r : ExchangeRequest) :
    (c.start cacheTtl t r).task t' = c.task t' := by
  have hlock : (c.lockOf r.key).1.task = c.task := by
    unfold lockOf
    split <;> rfl
  unfold start
  split
  · simp [setTask, Function.update_of_ne hne]
  · dsimp only
    split
    · rw [enter_task_of_ne hne]
      exact congrFun hlock t'
    · simp [setTask, setLock, Function.update_of_ne hne, hlock]

theorem finish_request? (t t' : TaskId) {r : ExchangeRequest} {l : LockId}
    (response : TokenResponse) (ht : c.task t = .posting r l) :
    ((c.finish t r l response).task t').request? = (c.task t').request? := by
  have hset : ∀ x : ExchangeTask, x.request? = some r →
      (Function.update c.task t x t').request? = (c.task t').request? := by
    intro x hx
    by_cases hne : t' = t
    · subst hne
      rw [Function.update_self, hx, ht]
      rfl
    · rw [Function.update_of_ne hne]
  unfold finish
  dsimp only
  split
  · exact hset _ rfl
  · exact hset _ rfl

/-- A task keeps its request until it starts another exchange. -/
theorem request?_of_step {a : OBOAction} {t : TaskId} (hst : step cacheTtl c a = some c')
    (ha : ∀ r, a ≠ .exchange t r) : (c'.task t).request? = (c.task t).request? := by
  cases a with
  | exchange t' r =>
    simp only [step] at hst
    split at hst <;> cases hst
    have hne : t ≠ t' := by
      rintro rfl
      exact ha r rfl
    rw [start_task_of_ne hne]
  | resume t' =>
    simp only [step] at hst
    split at hst
    · rename_i r l ht
      split at hst <;> cases hst
      by_cases hne : t = t'
      · subst hne
        rw [enter_request?, ht]
        rfl
      · rw [enter_task_of_ne hne]
        rfl
    · cases hst
  | respond t' response =>
    simp only [step] at hst
    split at hst <;> cases hst
    exact finish_request? t' t response ‹_›
  | tick seconds =>
    simp only [step] at hst
    split at hst <;> cases hst
    rfl

end OBOClient

end McpZero.Identity
