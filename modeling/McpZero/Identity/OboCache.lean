import McpZero.Identity.OboLocks

/-! The guarantees of the token cache for every interleaving of calls: one exchange in flight
for each cache key, tokens of the call's own exchange or of a fresh entry, and failures that
leave the cache as it was and the lock open. -/
namespace McpZero.Identity
open Lib

/-- Calls share an entry of the cache exactly if they agree on subject and audience and their
scopes are permutations of each other. -/
theorem ExchangeRequest.key_eq_iff {r r' : ExchangeRequest} :
    r.key = r'.key ↔ r.subjectId = r'.subjectId ∧ r.targetAudience = r'.targetAudience ∧
      r.scopes.Perm r'.scopes := by
  constructor
  · exact ExchangeRequest.key_eq
  · intro ⟨hsubject, haudience, hscopes⟩
    have hperm : (r.scopes.insertionSort (· ≤ ·)).Perm (r'.scopes.insertionSort (· ≤ ·)) :=
      ((List.perm_insertionSort _ _).trans hscopes).trans (List.perm_insertionSort _ _).symm
    have hsorted : r.scopes.insertionSort (· ≤ ·) = r'.scopes.insertionSort (· ≤ ·) :=
      hperm.eq_of_pairwise' (List.pairwise_insertionSort (· ≤ ·) r.scopes)
        (List.pairwise_insertionSort (· ≤ ·) r'.scopes)
    simp only [ExchangeRequest.key, ExchangeCacheKey.fromParams, hsubject, haudience, hsorted]

namespace OBOClient

/-- The token is that of the exchange which the task itself has under way and which the
endpoint answers. -/
def OwnExchange (c : OBOClient) (a : OBOAction) (t : TaskId) (r : ExchangeRequest)
    (token : String) : Prop :=
  ∃ response exchanged l, a = .respond t response ∧ c.task t = .posting r l ∧
    performExchange r.targetAudience c.now response = .ok exchanged ∧
    exchanged.accessToken = token

/-- The token is that of an entry for the same subject, audience and scopes, which an exchange
for them has put there and which is not expired at the time. -/
def FreshEntry (cacheTtl : ℤ) (c : OBOClient) (r : ExchangeRequest) (token : String) : Prop :=
  ∃ key entry, c.cache key = some entry ∧ entry.isExpired c.now cacheTtl = false ∧
    entry.accessToken = token ∧
    key.subjectId = r.subjectId ∧ key.targetAudience = r.targetAudience ∧
    key.scopes.Perm r.scopes ∧
    ∃ e ∈ c.exchanged, e.request.key = key ∧ e.token = entry

/-- At most one exchange is in flight for each key. -/
def OneInFlight (c : OBOClient) : Prop :=
  ∀ t t' r r' l l', c.task t = .posting r l → c.task t' = .posting r' l' → r.key = r'.key → t = t'

/-- Some call that waits for the key has its turn. -/
def TurnFor (cacheTtl : ℤ) (c : OBOClient) (key : ExchangeCacheKey) : Prop :=
  ∃ t r l c', c.task t = .waiting r l ∧ r.key = key ∧ step cacheTtl c (.resume t) = some c'

/-- A call that waits has an exchange for its key in flight, or some call that waits for the
key has its turn. -/
def Unblocked (cacheTtl : ℤ) (c : OBOClient) : Prop :=
  ∀ t r l, c.task t = .waiting r l →
    (∃ s r' l', c.task s = .posting r' l' ∧ r'.key = r.key) ∨ c.TurnFor cacheTtl r.key

/-- A new call for the key runs to its exchange or its end, unless a call that waits for the
key already has its turn. -/
def OpenFor (cacheTtl : ℤ) (c : OBOClient) (key : ExchangeCacheKey) : Prop :=
  ∀ t r, (c.task t).pending = false → r.key = key →
    ∃ c', step cacheTtl c (.exchange t r) = some c' ∧
      ((∀ l, c'.task t ≠ .waiting r l) ∨ c.TurnFor cacheTtl key)

/-- What every step of the client keeps to. -/
structure CacheStep (cacheTtl : ℤ) (c : OBOClient) (a : OBOAction) (c' : OBOClient) : Prop where
  single : c'.OneInFlight
  returned (t : TaskId) (r : ExchangeRequest) (token : String) :
    a.task? = some t → c'.task t = .returned r token →
    c.OwnExchange a t r token ∨ c.FreshEntry cacheTtl r token
  others (t : TaskId) : a.task? ≠ some t → c'.task t = c.task t
  called (t : TaskId) (r : ExchangeRequest) :
    a = .exchange t r → (c'.task t).request? = some r
  request (t : TaskId) :
    (∀ r, a ≠ .exchange t r) → (c'.task t).request? = (c.task t).request?
  failed (t : TaskId) (response : TokenResponse) (r : ExchangeRequest) (l : LockId) (e : Exc) :
    a = .respond t response → c.task t = .posting r l →
    performExchange r.targetAudience c.now response = .error e →
    c'.cache = c.cache ∧ c'.task t = .raised r e ∧ c'.OpenFor cacheTtl r.key
  unblocked : c'.Unblocked cacheTtl
  order (l : LockId) : (∃ arrived, (c'.lock l).waiters = (c.lock l).waiters ++ arrived) ∨
    ∃ t, a = .resume t ∧ (c.lock l).waiters = t :: (c'.lock l).waiters

variable {cacheTtl : ℤ} {c c' : OBOClient} {a : OBOAction}

namespace Disciplined

theorem oneInFlight (h : c.Disciplined) : c.OneInFlight := by
  intro t t' r r' l l' ht ht' hkey
  have hl := h.posting_keyed ht
  have hl' := h.posting_keyed ht'
  rw [hkey, hl'] at hl
  obtain rfl := Option.some.inj hl
  apply (h.serves l').unique
  · simp [ht, ExchangeTask.place]
  · simp [ht', ExchangeTask.place]

/-- Who stands at the lock of a key stands there for the key. -/
theorem key_of_lock (h : c.Disciplined) {t : TaskId} {r : ExchangeRequest} {l : LockId}
    {key : ExchangeCacheKey} (ht : (c.task t).underway? = some (r, l))
    (hl : c.locks key = some l) : r.key = key :=
  h.injective r.key key l (h.keyed t r l ht) hl

theorem turnFor_of_turn (h : c.Disciplined) {s : TaskId} {l : LockId} {key : ExchangeCacheKey}
    (hl : c.locks key = some l) (hplace : (c.task s).place l = .waiting)
    (hturn : (c.lock l).turn s) : c.TurnFor cacheTtl key := by
  obtain ⟨r, hs⟩ := ExchangeTask.eq_waiting_of_place hplace
  have hkey : r.key = key := h.key_of_lock (by rw [hs]; rfl) hl
  exact ⟨s, r, l, _, hs, hkey, by simp only [OBOClient.step, hs, hturn]; rfl⟩

theorem unblocked (h : c.Disciplined) : c.Unblocked cacheTtl := by
  intro t r l ht
  have hl := h.waiting_keyed ht
  rcases (h.serves l).progress (t := t) (by simp [ht, ExchangeTask.place]) with hinside | hwaiting
  · obtain ⟨s, hs⟩ := hinside
    obtain ⟨r', hs⟩ := ExchangeTask.eq_posting_of_place hs
    exact .inl ⟨s, r', l, hs, h.key_of_lock (by rw [hs]; rfl) hl⟩
  · obtain ⟨s, hplace, hturn⟩ := hwaiting
    exact .inr (h.turnFor_of_turn hl hplace hturn)

theorem openFor (h : c.Disciplined) {key : ExchangeCacheKey} {l : LockId}
    (hl : c.locks key = some l) (hholder : (c.lock l).holder = none) : c.OpenFor cacheTtl key := by
  intro t r ht hkey
  subst hkey
  refine ⟨_, by simp only [OBOClient.step, ht]; rfl, ?_⟩
  have hlock : c.lockOf r.key = (c, l) := by simp [OBOClient.lockOf, hl]
  cases hwaiters : (c.lock l).waiters with
  | cons s rest =>
    have hmem : s ∈ (c.lock l).waiters := by
      rw [hwaiters]
      exact List.mem_cons_self
    have hturn : (c.lock l).turn s := by simp [AsyncLock.turn, hholder, hwaiters]
    exact .inr (h.turnFor_of_turn hl (((h.serves l).waiters s).mp hmem) hturn)
  | nil =>
    left
    have hfree : (c.lock l).free := by simp [AsyncLock.free, hholder, hwaiters]
    intro l' hwait
    generalize hstart : c.start cacheTtl t r = c' at hwait
    have hmoves : Moves cacheTtl c (.exchange t r) (c.start cacheTtl t r) := moves_of_start ht
    rw [hstart] at hmoves
    cases hmoves with
    | hit _ _ token hpending hcached => simp [setTask] at hwait
    | enter _ _ d l'' hpending hcached hlock' hfree' => simp [setTask] at hwait
    | queue _ _ d l'' hpending hcached hlock' hfree' =>
      rw [hlock] at hlock'
      obtain ⟨rfl, rfl⟩ := Prod.mk.inj hlock'
      rw [hfree] at hfree'
      cases hfree'

end Disciplined

theorem freshEntry_of_cached (hbacked : c.Backed fun _ => True) {r : ExchangeRequest}
    {token : ExchangedToken} (hcached : c.cached cacheTtl r.key = some token) :
    c.FreshEntry cacheTtl r token.accessToken := by
  obtain ⟨hcache, hfresh⟩ := Option.filter_eq_some_iff.mp hcached
  obtain ⟨e, he, hkey, htoken⟩ := hbacked.cache _ _ hcache
  exact ⟨r.key, token, hcache, by simpa using hfresh, rfl, rfl, rfl,
    List.perm_insertionSort _ _, e, he, hkey, htoken⟩

/-- A step changes the task it runs and no other. -/
theorem task_of_moves (h : Moves cacheTtl c a c') :
    (a.task? = none ∧ c'.task = c.task) ∨
      ∃ t x, a.task? = some t ∧ c'.task = Function.update c.task t x := by
  cases h with
  | hit t r token ht hcached => exact .inr ⟨t, _, rfl, rfl⟩
  | enter t r d l ht hcached hlock hfree =>
    obtain ⟨locks, nextLock, rfl⟩ := lockOf_frame hlock
    exact .inr ⟨t, _, rfl, rfl⟩
  | queue t r d l ht hcached hlock hfree =>
    obtain ⟨locks, nextLock, rfl⟩ := lockOf_frame hlock
    exact .inr ⟨t, _, rfl, rfl⟩
  | recheckHit t r l token ht hturn hcached => exact .inr ⟨t, _, rfl, rfl⟩
  | recheckMiss t r l ht hturn hcached => exact .inr ⟨t, _, rfl, rfl⟩
  | exchanged t r l response token ht hexchange => exact .inr ⟨t, _, rfl, rfl⟩
  | failed t r l response e ht hexchange => exact .inr ⟨t, _, rfl, rfl⟩
  | tick seconds hseconds => exact .inl ⟨rfl, rfl⟩

/-- A token is returned from the cache or after the exchange. -/
theorem returned_of_moves (hbacked : c.Backed fun _ => True) (h : Moves cacheTtl c a c')
    {t : TaskId} {r : ExchangeRequest} {token : String} (ht : a.task? = some t)
    (hreturned : c'.task t = .returned r token) :
    c.OwnExchange a t r token ∨ c.FreshEntry cacheTtl r token := by
  cases h with
  | hit s r' entry hs hcached =>
    obtain rfl : s = t := Option.some.inj ht
    obtain ⟨rfl, rfl⟩ : r' = r ∧ entry.accessToken = token := by simpa [setTask] using hreturned
    exact .inr (freshEntry_of_cached hbacked hcached)
  | enter s r' d l hs hcached hlock hfree =>
    obtain rfl : s = t := Option.some.inj ht
    simp [setTask] at hreturned
  | queue s r' d l hs hcached hlock hfree =>
    obtain rfl : s = t := Option.some.inj ht
    simp [setTask] at hreturned
  | recheckHit s r' l entry hs hturn hcached =>
    obtain rfl : s = t := Option.some.inj ht
    obtain ⟨rfl, rfl⟩ : r' = r ∧ entry.accessToken = token := by simpa [setTask] using hreturned
    exact .inr (freshEntry_of_cached hbacked hcached)
  | recheckMiss s r' l hs hturn hcached =>
    obtain rfl : s = t := Option.some.inj ht
    simp [setTask] at hreturned
  | exchanged s r' l response exchanged hs hexchange =>
    obtain rfl : s = t := Option.some.inj ht
    obtain ⟨rfl, rfl⟩ : r' = r ∧ exchanged.accessToken = token := by
      simpa [setTask] using hreturned
    exact .inl ⟨response, exchanged, l, rfl, hs, hexchange, rfl⟩
  | failed s r' l response e hs hexchange =>
    obtain rfl : s = t := Option.some.inj ht
    simp [setTask] at hreturned
  | tick seconds hseconds => cases ht

theorem waiters_setLock {l k : LockId} {x : AsyncLock TaskId} {arrived : List TaskId}
    (h : x.waiters = (c.lock k).waiters ++ arrived) :
    ∃ arrived, ((c.setLock k x).lock l).waiters = (c.lock l).waiters ++ arrived := by
  by_cases hl : l = k
  · subst hl
    exact ⟨arrived, by rw [setLock_lock, h]⟩
  · exact ⟨[], by simp [setLock, hl]⟩

theorem waiters_takeTurn {t : TaskId} {l k : LockId} {x : AsyncLock TaskId}
    (hturn : (c.lock k).turn t) (hx : x.waiters = ((c.lock k).takeTurn t).waiters) :
    (∃ arrived, ((c.setLock k x).lock l).waiters = (c.lock l).waiters ++ arrived) ∨
      (c.lock l).waiters = t :: ((c.setLock k x).lock l).waiters := by
  by_cases hl : l = k
  · subst hl
    right
    rw [setLock_lock, hx]
    exact AsyncLock.waiters_of_turn hturn
  · exact .inl ⟨[], by simp [setLock, hl]⟩

/-- Each lock is taken in the order of arrival. -/
theorem order_of_moves (h : Moves cacheTtl c a c') (l : LockId) :
    (∃ arrived, (c'.lock l).waiters = (c.lock l).waiters ++ arrived) ∨
      ∃ t, a = .resume t ∧ (c.lock l).waiters = t :: (c'.lock l).waiters := by
  cases h with
  | hit t r token ht hcached => exact .inl ⟨[], (List.append_nil _).symm⟩
  | enter t r d k ht hcached hlock hfree =>
    obtain ⟨locks, nextLock, rfl⟩ := lockOf_frame hlock
    exact .inl (waiters_setLock (List.append_nil _).symm)
  | queue t r d k ht hcached hlock hfree =>
    obtain ⟨locks, nextLock, rfl⟩ := lockOf_frame hlock
    exact .inl (waiters_setLock rfl)
  | recheckHit t r k token ht hturn hcached =>
    rcases waiters_takeTurn (l := l) (x := ((c.lock k).takeTurn t).release) hturn rfl
      with harrived | htaken
    · exact .inl harrived
    · exact .inr ⟨t, rfl, htaken⟩
  | recheckMiss t r k ht hturn hcached =>
    rcases waiters_takeTurn (l := l) hturn rfl with harrived | htaken
    · exact .inl harrived
    · exact .inr ⟨t, rfl, htaken⟩
  | exchanged t r k response token ht hexchange =>
    exact .inl (waiters_setLock (List.append_nil _).symm)
  | failed t r k response e ht hexchange => exact .inl (waiters_setLock (List.append_nil _).symm)
  | tick seconds hseconds => exact .inl ⟨[], (List.append_nil _).symm⟩

theorem failed_of_step (h : c'.Disciplined) (hst : step cacheTtl c a = some c') {t : TaskId}
    {response : TokenResponse} {r : ExchangeRequest} {l : LockId} {e : Exc}
    (ha : a = .respond t response) (ht : c.task t = .posting r l) (hkey : c.locks r.key = some l)
    (hexchange : performExchange r.targetAudience c.now response = .error e) :
    c'.cache = c.cache ∧ c'.task t = .raised r e ∧ c'.OpenFor cacheTtl r.key := by
  subst ha
  obtain rfl : c.finish t r l response = c' := by simpa [step, ht] using hst
  have hfinish : c.finish t r l response =
      (c.setLock l (c.lock l).release).setTask t (.raised r e) := by
    simp [finish, hexchange]
  rw [hfinish] at h ⊢
  have hholder : (((c.setLock l (c.lock l).release).setTask t (.raised r e)).lock l).holder = none :=
    congrArg AsyncLock.holder (setLock_lock l (c.lock l).release)
  exact ⟨rfl, by simp [setTask], h.openFor hkey hholder⟩

theorem cacheStep_of_step (h : c.Disciplined) (hbacked : c.Backed fun _ => True)
    (hst : step cacheTtl c a = some c') : CacheStep cacheTtl c a c' := by
  have hmoves := moves_of_step hst
  have hnext := h.step hst
  exact {
    single := hnext.oneInFlight
    returned := fun t r token ht hreturned => returned_of_moves hbacked hmoves ht hreturned
    others := by
      intro t ht
      rcases task_of_moves hmoves with ⟨-, htask⟩ | ⟨s, x, hs, htask⟩
      · rw [htask]
      · have hne : t ≠ s := fun he => ht (by rw [he, hs])
        rw [htask, Function.update_of_ne hne]
    called := by
      intro t r ha
      subst ha
      exact request?_of_exchange hst
    request := fun t ha => request?_of_step hst ha
    failed := fun t response r l e ha ht hexchange =>
      failed_of_step hnext hst ha ht (h.posting_keyed ht) hexchange
    unblocked := hnext.unblocked
    order := order_of_moves hmoves }

/-- Every run of the client keeps to its guarantees, and calls share an entry of the cache
exactly if they are for one subject, one audience and the same scopes in some order. -/
theorem exchangeToken_cacheSteps (cacheTtl : ℤ) (now : ℚ) (as : List OBOAction) :
    EachStep (step cacheTtl) (CacheStep cacheTtl) { now := now } as ∧
      ∀ r r' : ExchangeRequest, r.key = r'.key ↔ r.subjectId = r'.subjectId ∧
        r.targetAudience = r'.targetAudience ∧ r.scopes.Perm r'.scopes := by
  refine ⟨?_, fun r r' => ExchangeRequest.key_eq_iff⟩
  have hempty : ({} : OBOClient).Backed fun _ => True := backed_empty
  have hbacked : ({ now := now } : OBOClient).Backed fun _ => True :=
    ⟨hempty.cache, hempty.exchanged, fun t => trivial⟩
  apply eachStep_of_invariant (I := fun c => c.Disciplined ∧ c.Backed fun _ => True)
    ⟨disciplined_initial now, hbacked⟩
  intro c a c' ⟨h, hbacked⟩ hst
  exact ⟨⟨h.step hst, hbacked.step hst fun _ _ _ => trivial⟩, cacheStep_of_step h hbacked hst⟩

end OBOClient

end McpZero.Identity
