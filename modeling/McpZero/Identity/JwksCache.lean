import McpZero.Identity.Jwks
import McpZero.Lib.AsyncLock
import McpZero.Lib.Runs

/-! `get_signing_keys` for every interleaving of calls, as a machine whose steps run one task
from one suspension to the next: one fetch in flight, and keys of the latest fetch. -/
namespace McpZero.Identity
open Lib Python

/-- Where a task stands in `get_signing_keys`: at `async with self._lock`, at one of the
requests to the provider, or past its end. -/
inductive KeysTask (κ : Type)
  | idle
  | waiting (force : Bool)
  | discovering (force : Bool)
  | fetching (force : Bool) (jwksUri : Value)
  | returned (force : Bool) (keys : List κ)
  | raised (force : Bool) (exc : Exc)

/-- A fetch that has succeeded. -/
structure KeyFetch (κ : Type) where
  keys : List κ
  time : ℚ

/-- The client with its lock and the tasks that use it. `fetches` lists the fetches that have
succeeded, the latest first, which the source does not keep. -/
structure KeysState (κ : Type) where
  client : JWKSClient κ := {}
  lock : AsyncLock TaskId := {}
  task : TaskId → KeysTask κ := fun _ => .idle
  now : ℚ := 0
  fetches : List (KeyFetch κ) := []

/-- A task calls `get_signing_keys`, takes its turn at the lock, or gets an answer of the
provider; or time passes. -/
inductive KeysAction
  | call (t : TaskId) (force : Bool)
  | resume (t : TaskId)
  | respond (t : TaskId) (answer : Fetched)
  | tick (seconds : ℚ)

/-- The task that an action runs. -/
def KeysAction.task? : KeysAction → Option TaskId
  | call t _ => some t
  | resume t => some t
  | respond t _ => some t
  | tick _ => none

namespace KeysTask

variable {κ : Type}

def pending : KeysTask κ → Bool
  | waiting _ => true
  | discovering _ => true
  | fetching _ _ => true
  | _ => false

/-- `force_refresh` of the call that a task is in or has ended. -/
def force? : KeysTask κ → Option Bool
  | waiting force => some force
  | discovering force => some force
  | fetching force _ => some force
  | returned force _ => some force
  | raised force _ => some force
  | idle => none

/-- Where the task stands with the lock. -/
def place : KeysTask κ → Place
  | waiting _ => .waiting
  | discovering _ => .inside
  | fetching _ _ => .inside
  | _ => .outside

theorem place_of_not_pending {x : KeysTask κ} (h : x.pending = false) : x.place = .outside := by
  cases x <;> first | rfl | cases h

end KeysTask

namespace KeysState

variable {κ : Type} (config : IdentityConfig) (pyJwk : Value → Except LibraryError κ)

def setTask (c : KeysState κ) (t : TaskId) (task : KeysTask κ) : KeysState κ :=
  { c with task := Function.update c.task t task }

def setLock (c : KeysState κ) (lock : AsyncLock TaskId) : KeysState κ := { c with lock := lock }

/-- `not force_refresh and self._is_cache_valid()`. -/
def serves (c : KeysState κ) (force : Bool) : Bool :=
  !force && c.client.isCacheValid config.jwksCacheTtl c.now

/-- `_fetch_keys` up to its first request. -/
def firstRequest (c : KeysState κ) (force : Bool) : KeysTask κ :=
  match c.client.jwksUri with
  | none => .discovering force
  | some jwksUri => .fetching force jwksUri

/-- The body of `async with self._lock` up to its first request. -/
def enter (c : KeysState κ) (t : TaskId) (force : Bool) : KeysState κ :=
  if c.serves config force then
    (c.setLock c.lock.release).setTask t (.returned force c.client.keys)
  else c.setTask t (c.firstRequest force)

/-- `get_signing_keys` up to its first wait. -/
def start (c : KeysState κ) (t : TaskId) (force : Bool) : KeysState κ :=
  if c.serves config force then c.setTask t (.returned force c.client.keys)
  else if c.lock.free then (c.setLock (c.lock.hold t)).enter config t force
  else (c.setLock (c.lock.wait t)).setTask t (.waiting force)

/-- An exception leaves the lock. -/
def raise (c : KeysState κ) (t : TaskId) (force : Bool) (e : Exc) : KeysState κ :=
  (c.setLock c.lock.release).setTask t (.raised force e)

/-- After the discovery request. -/
def discovered (c : KeysState κ) (t : TaskId) (force : Bool) (answer : Fetched) : KeysState κ :=
  match discoveredUri (stripSlashes config.issuer) answer with
  | .ok jwksUri =>
    { c with client := { c.client with jwksUri := some jwksUri } }.setTask t
      (.fetching force jwksUri)
  | .error e => c.raise t force e

/-- After the request for the keys. -/
def fetched (c : KeysState κ) (t : TaskId) (force : Bool) (jwksUri : Value) (answer : Fetched) :
    KeysState κ :=
  match fetchedKeys pyJwk jwksUri answer with
  | .ok keys =>
    { (c.setLock c.lock.release).setTask t (.returned force keys) with
      client := { c.client with keys := keys, lastFetch := c.now }
      fetches := ⟨keys, c.now⟩ :: c.fetches }
  | .error e => c.raise t force e

def step (c : KeysState κ) : KeysAction → Option (KeysState κ)
  | .call t force => if (c.task t).pending then none else some (c.start config t force)
  | .resume t =>
    match c.task t with
    | .waiting force =>
      if c.lock.turn t then some ((c.setLock (c.lock.takeTurn t)).enter config t force) else none
    | _ => none
  | .respond t answer =>
    match c.task t with
    | .discovering force => some (c.discovered config t force answer)
    | .fetching force jwksUri => some (c.fetched pyJwk t force jwksUri answer)
    | _ => none
  | .tick seconds => if 0 ≤ seconds then some { c with now := c.now + seconds } else none

/-- What one step does, with all that is known where it does it. -/
inductive Moves (c : KeysState κ) : KeysAction → KeysState κ → Prop
  | hit (t : TaskId) (force : Bool) :
    (c.task t).pending = false → c.serves config force →
    Moves c (.call t force) (c.setTask t (.returned force c.client.keys))
  | enter (t : TaskId) (force : Bool) :
    (c.task t).pending = false → c.serves config force = false → c.lock.free →
    Moves c (.call t force) ((c.setLock (c.lock.hold t)).setTask t (c.firstRequest force))
  | queue (t : TaskId) (force : Bool) :
    (c.task t).pending = false → c.serves config force = false → c.lock.free = false →
    Moves c (.call t force) ((c.setLock (c.lock.wait t)).setTask t (.waiting force))
  | recheckHit (t : TaskId) (force : Bool) :
    c.task t = .waiting force → c.lock.turn t → c.serves config force →
    Moves c (.resume t)
      ((c.setLock (c.lock.takeTurn t).release).setTask t (.returned force c.client.keys))
  | recheckMiss (t : TaskId) (force : Bool) :
    c.task t = .waiting force → c.lock.turn t → c.serves config force = false →
    Moves c (.resume t) ((c.setLock (c.lock.takeTurn t)).setTask t (c.firstRequest force))
  | discovered (t : TaskId) (force : Bool) (answer : Fetched) (jwksUri : Value) :
    c.task t = .discovering force →
    discoveredUri (stripSlashes config.issuer) answer = .ok jwksUri →
    Moves c (.respond t answer)
      ({ c with client := { c.client with jwksUri := some jwksUri } }.setTask t
        (.fetching force jwksUri))
  | fetched (t : TaskId) (force : Bool) (jwksUri : Value) (answer : Fetched) (keys : List κ) :
    c.task t = .fetching force jwksUri → fetchedKeys pyJwk jwksUri answer = .ok keys →
    Moves c (.respond t answer)
      { (c.setLock c.lock.release).setTask t (.returned force keys) with
        client := { c.client with keys := keys, lastFetch := c.now }
        fetches := ⟨keys, c.now⟩ :: c.fetches }
  | failed (t : TaskId) (force : Bool) (answer : Fetched) (e : Exc) :
    (c.task t).place = .inside → (c.task t).force? = some force →
    Moves c (.respond t answer) (c.raise t force e)
  | tick (seconds : ℚ) : 0 ≤ seconds →
    Moves c (.tick seconds) { c with now := c.now + seconds }

variable {config pyJwk} {c c' : KeysState κ} {a : KeysAction}

theorem enter_of_serves {t : TaskId} {force : Bool} (h : c.serves config force) :
    c.enter config t force =
      (c.setLock c.lock.release).setTask t (.returned force c.client.keys) := by
  simp [enter, h]

theorem enter_of_not_serves {t : TaskId} {force : Bool} (h : c.serves config force = false) :
    c.enter config t force = c.setTask t (c.firstRequest force) := by
  simp [enter, h]

theorem start_of_free {t : TaskId} {force : Bool} (hserves : c.serves config force = false)
    (hfree : c.lock.free) : c.start config t force =
      (c.setLock (c.lock.hold t)).setTask t (c.firstRequest force) := by
  -- nothing suspends between the two checks of the cache
  have hagain : (c.setLock (c.lock.hold t)).serves config force = false := hserves
  rw [start, if_neg (by simp [hserves]), if_pos hfree, enter_of_not_serves hagain]
  rfl

theorem moves_of_start {t : TaskId} {force : Bool} (ht : (c.task t).pending = false) :
    Moves config pyJwk c (.call t force) (c.start config t force) := by
  cases hserves : c.serves config force with
  | true =>
    have hstart : c.start config t force = c.setTask t (.returned force c.client.keys) := by
      simp [start, hserves]
    rw [hstart]
    exact .hit t force ht hserves
  | false =>
    cases hfree : c.lock.free with
    | false =>
      have hstart : c.start config t force =
          (c.setLock (c.lock.wait t)).setTask t (.waiting force) := by
        simp [start, hserves, hfree]
      rw [hstart]
      exact .queue t force ht hserves hfree
    | true =>
      rw [start_of_free hserves hfree]
      exact .enter t force ht hserves hfree

theorem moves_of_step (hst : step config pyJwk c a = some c') : Moves config pyJwk c a c' := by
  cases a with
  | call t force =>
    cases hpending : (c.task t).pending with
    | true => simp [step, hpending] at hst
    | false =>
      obtain rfl : c.start config t force = c' := by simpa [step, hpending] using hst
      exact moves_of_start hpending
  | resume t =>
    simp only [step] at hst
    split at hst
    · rename_i force ht
      split at hst <;> cases hst
      rename_i hturn
      have hsame : (c.setLock (c.lock.takeTurn t)).serves config force = c.serves config force :=
        rfl
      cases hserves : c.serves config force with
      | true =>
        rw [enter_of_serves (hsame.trans hserves)]
        exact .recheckHit t force ht hturn hserves
      | false =>
        rw [enter_of_not_serves (hsame.trans hserves)]
        exact .recheckMiss t force ht hturn hserves
    · cases hst
  | respond t answer =>
    simp only [step] at hst
    split at hst
    · rename_i force ht
      cases hst
      unfold discovered
      cases huri : discoveredUri (stripSlashes config.issuer) answer with
      | ok jwksUri => exact .discovered t force answer jwksUri ht huri
      | error e => exact .failed t force answer e (by rw [ht]; rfl) (by rw [ht]; rfl)
    · rename_i force jwksUri ht
      cases hst
      unfold fetched
      cases hkeys : fetchedKeys pyJwk jwksUri answer with
      | ok keys => exact .fetched t force jwksUri answer keys ht hkeys
      | error e => exact .failed t force answer e (by rw [ht]; rfl) (by rw [ht]; rfl)
    · cases hst
  | tick seconds =>
    simp only [step] at hst
    split at hst <;> cases hst
    exact .tick seconds ‹_›

/-- The task has a request to the provider under way. -/
def InFlight (c : KeysState κ) (t : TaskId) : Prop := (c.task t).place = .inside

/-- The lock agrees with the tasks, and the fields of the client are those of the latest
fetch. -/
structure Sound (c : KeysState κ) : Prop where
  locked : c.lock.Serves fun t => (c.task t).place
  keys : c.client.keys = (c.fetches.head?.map KeyFetch.keys).getD []
  lastFetch : c.client.lastFetch = (c.fetches.head?.map KeyFetch.time).getD 0
  nonempty (fetch : KeyFetch κ) : fetch ∈ c.fetches → fetch.keys ≠ []

theorem sound_initial (now : ℚ) : ({ now := now } : KeysState κ).Sound where
  locked := AsyncLock.serves_empty
  keys := rfl
  lastFetch := rfl
  nonempty _ h := absurd h List.not_mem_nil

theorem firstRequest_place (force : Bool) : (c.firstRequest force).place = .inside := by
  unfold firstRequest
  split <;> rfl

theorem firstRequest_force? (force : Bool) : (c.firstRequest force).force? = some force := by
  unfold firstRequest
  split <;> rfl

theorem firstRequest_ne_returned (force force' : Bool) (keys : List κ) :
    c.firstRequest force ≠ .returned force' keys := by
  intro h
  have hplace : (KeysTask.returned force' keys).place = .inside := by
    rw [← h]
    exact firstRequest_place force
  cases hplace

theorem place_setTask (t : TaskId) (x : KeysTask κ) :
    (fun s => ((c.setTask t x).task s).place) =
      Function.update (fun s => (c.task s).place) t x.place := by
  funext s
  by_cases hs : s = t
  · subst hs
    simp [setTask]
  · simp [setTask, hs]

namespace Sound

/-- A task moves to another place, and the lock with it. -/
theorem move (h : c.Sound) {t : TaskId} {x : KeysTask κ} {k : AsyncLock TaskId}
    (hk : k.Serves (Function.update (fun s => (c.task s).place) t x.place)) :
    ((c.setLock k).setTask t x).Sound where
  locked := by
    rw [place_setTask]
    exact hk
  keys := h.keys
  lastFetch := h.lastFetch
  nonempty := h.nonempty

/-- A task stays where it is with the lock. -/
theorem stay (h : c.Sound) {t : TaskId} {x : KeysTask κ} (hx : x.place = (c.task t).place) :
    (c.setTask t x).Sound := by
  apply h.move (k := c.lock)
  rw [hx, Function.update_eq_self]
  exact h.locked

/-- The task in the lock ends its call. -/
theorem leave (h : c.Sound) {t : TaskId} {x : KeysTask κ} (ht : c.InFlight t)
    (hx : x.place = .outside) : ((c.setLock c.lock.release).setTask t x).Sound := by
  apply h.move
  rw [hx]
  exact h.locked.release ht

/-- Every step keeps the state sound. -/
theorem step (h : c.Sound) (hst : step config pyJwk c a = some c') : c'.Sound := by
  cases moves_of_step hst with
  | hit t force ht hserves => exact h.stay (KeysTask.place_of_not_pending ht).symm
  | enter t force ht hserves hfree =>
    apply h.move
    rw [firstRequest_place]
    exact h.locked.hold hfree
  | queue t force ht hserves hfree =>
    exact h.move (h.locked.wait (KeysTask.place_of_not_pending ht))
  | recheckHit t force ht hturn hserves =>
    have hreleased := (h.locked.takeTurn hturn).release (t := t) (by simp)
    rw [Function.update_idem] at hreleased
    exact h.move hreleased
  | recheckMiss t force ht hturn hserves =>
    apply h.move
    rw [firstRequest_place]
    exact h.locked.takeTurn hturn
  | discovered t force answer jwksUri ht huri =>
    have hstay := h.stay (t := t) (x := .fetching force jwksUri) (by rw [ht]; rfl)
    exact ⟨hstay.locked, h.keys, h.lastFetch, h.nonempty⟩
  | fetched t force jwksUri answer keys ht hkeys =>
    have hinside : c.InFlight t := by rw [InFlight, ht]; rfl
    have hleave := h.leave (x := .returned force keys) hinside rfl
    refine ⟨hleave.locked, rfl, rfl, fun fetch hfetch => ?_⟩
    rcases List.mem_cons.mp hfetch with rfl | hold
    · exact fetchedKeys_ne_nil hkeys
    · exact h.nonempty fetch hold
  | failed t force answer e ht hforce => exact h.leave ht rfl
  | tick seconds hseconds => exact ⟨h.locked, h.keys, h.lastFetch, h.nonempty⟩

/-- Keys in the cache are those of the latest fetch. -/
theorem latest (h : c.Sound) (hne : c.client.keys ≠ []) :
    ∃ fetch earlier, c.fetches = fetch :: earlier ∧ fetch.keys = c.client.keys ∧
      fetch.time = c.client.lastFetch := by
  cases hfetches : c.fetches with
  | nil => exact absurd (by rw [h.keys, hfetches]; rfl) hne
  | cons fetch earlier =>
    exact ⟨fetch, earlier, rfl, by rw [h.keys, hfetches]; rfl, by rw [h.lastFetch, hfetches]; rfl⟩

end Sound

/-- The keys are those of the latest fetch, which is younger than the lifetime of the cache at
the time. -/
def Young (config : IdentityConfig) (c : KeysState κ) (keys : List κ) : Prop :=
  ∃ fetch earlier, c.fetches = fetch :: earlier ∧ fetch.keys = keys ∧
    c.now - fetch.time < config.jwksCacheTtl

/-- The step ends the fetch of a task that is in the lock, and its keys are those of the
fetch. -/
def JustFetched (c : KeysState κ) (t : TaskId) (keys : List κ) (c' : KeysState κ) : Prop :=
  c.lock.holder = some t ∧ c'.fetches = ⟨keys, c.now⟩ :: c.fetches ∧
    c'.client.keys = keys ∧ c'.client.lastFetch = c.now

/-- What every step of the client keeps to. -/
structure FetchStep (config : IdentityConfig) (c : KeysState κ) (a : KeysAction)
    (c' : KeysState κ) : Prop where
  single (t t' : TaskId) : c'.InFlight t → c'.InFlight t' → t = t'
  fields : (c'.client.keys = c.client.keys ∧ c'.client.lastFetch = c.client.lastFetch ∧
      c'.fetches = c.fetches) ∨ ∃ t keys, a.task? = some t ∧ c.JustFetched t keys c'
  failed (t : TaskId) (force : Bool) (e : Exc) : a.task? = some t → c'.task t = .raised force e →
    c'.client.keys = c.client.keys ∧ c'.client.lastFetch = c.client.lastFetch ∧
      c'.fetches = c.fetches
  returned (t : TaskId) (force : Bool) (keys : List κ) :
    a.task? = some t → c'.task t = .returned force keys →
    keys ≠ [] ∧ c'.client.keys = keys ∧
      (force = false ∧ c'.fetches = c.fetches ∧ c.Young config keys ∨ c.JustFetched t keys c')
  others (t : TaskId) : a.task? ≠ some t → c'.task t = c.task t
  called (t : TaskId) (force : Bool) : a = .call t force → (c'.task t).force? = some force
  mode (t : TaskId) : (∀ force, a ≠ .call t force) → (c'.task t).force? = (c.task t).force?

theorem young_of_serves (h : c.Sound) {force : Bool} (hserves : c.serves config force) :
    force = false ∧ c.client.keys ≠ [] ∧ c.Young config c.client.keys := by
  obtain ⟨hforce, hvalid⟩ : force = false ∧ c.client.isCacheValid config.jwksCacheTtl c.now := by
    simpa [serves] using hserves
  obtain ⟨hne, -, hyoung⟩ := JWKSClient.isCacheValid_iff.mp hvalid
  obtain ⟨fetch, earlier, hfetches, hkeys, htime⟩ := h.latest hne
  exact ⟨hforce, hne, fetch, earlier, hfetches, hkeys, by rwa [htime]⟩

/-- A step changes the task it runs and no other, and only a call sets the mode of a task. -/
theorem task_of_moves (h : Moves config pyJwk c a c') :
    (a.task? = none ∧ c'.task = c.task) ∨
      ∃ t x, a.task? = some t ∧ c'.task = Function.update c.task t x ∧
        ((∃ force, a = .call t force ∧ x.force? = some force) ∨
          (∀ force, a ≠ .call t force) ∧ x.force? = (c.task t).force?) := by
  cases h with
  | hit t force ht hserves => exact .inr ⟨t, _, rfl, rfl, .inl ⟨force, rfl, rfl⟩⟩
  | enter t force ht hserves hfree =>
    exact .inr ⟨t, _, rfl, rfl, .inl ⟨force, rfl, firstRequest_force? force⟩⟩
  | queue t force ht hserves hfree => exact .inr ⟨t, _, rfl, rfl, .inl ⟨force, rfl, rfl⟩⟩
  | recheckHit t force ht hturn hserves =>
    exact .inr ⟨t, _, rfl, rfl, .inr ⟨nofun, by rw [ht]; rfl⟩⟩
  | recheckMiss t force ht hturn hserves =>
    exact .inr ⟨t, _, rfl, rfl, .inr ⟨nofun, by rw [ht]; exact firstRequest_force? force⟩⟩
  | discovered t force answer jwksUri ht huri =>
    exact .inr ⟨t, _, rfl, rfl, .inr ⟨nofun, by rw [ht]; rfl⟩⟩
  | fetched t force jwksUri answer keys ht hkeys =>
    exact .inr ⟨t, _, rfl, rfl, .inr ⟨nofun, by rw [ht]; rfl⟩⟩
  | failed t force answer e ht hforce =>
    exact .inr ⟨t, _, rfl, rfl, .inr ⟨nofun, hforce.symm⟩⟩
  | tick seconds hseconds => exact .inl ⟨rfl, rfl⟩

/-- A step leaves the fields of the cache as they are, or ends a fetch. -/
theorem fields_of_moves (h : c.Sound) (hmoves : Moves config pyJwk c a c') :
    (c'.client.keys = c.client.keys ∧ c'.client.lastFetch = c.client.lastFetch ∧
      c'.fetches = c.fetches) ∨
      ∃ t force keys, a.task? = some t ∧ c'.task t = .returned force keys ∧
        c.JustFetched t keys c' := by
  cases hmoves with
  | fetched t force jwksUri answer keys ht hkeys =>
    have hholder : c.lock.holder = some t := (h.locked.holder t).mpr (by rw [ht]; rfl)
    exact .inr ⟨t, force, keys, rfl, by simp [setTask], hholder, rfl, rfl, rfl⟩
  | _ => exact .inl ⟨rfl, rfl, rfl⟩

theorem returned_of_moves (h : c.Sound) (hmoves : Moves config pyJwk c a c') {t : TaskId}
    {force : Bool} {keys : List κ} (ht : a.task? = some t)
    (hreturned : c'.task t = .returned force keys) :
    keys ≠ [] ∧ c'.client.keys = keys ∧
      (force = false ∧ c'.fetches = c.fetches ∧ c.Young config keys ∨ c.JustFetched t keys c') := by
  cases hmoves with
  | hit s force' hs hserves =>
    obtain rfl : s = t := Option.some.inj ht
    obtain ⟨rfl, rfl⟩ : force' = force ∧ c.client.keys = keys := by simpa [setTask] using hreturned
    obtain ⟨hforce, hne, hyoung⟩ := young_of_serves h hserves
    exact ⟨hne, rfl, .inl ⟨hforce, rfl, hyoung⟩⟩
  | recheckHit s force' hs hturn hserves =>
    obtain rfl : s = t := Option.some.inj ht
    obtain ⟨rfl, rfl⟩ : force' = force ∧ c.client.keys = keys := by simpa [setTask] using hreturned
    obtain ⟨hforce, hne, hyoung⟩ := young_of_serves h hserves
    exact ⟨hne, rfl, .inl ⟨hforce, rfl, hyoung⟩⟩
  | fetched s force' jwksUri answer keys' hs hkeys =>
    obtain rfl : s = t := Option.some.inj ht
    obtain ⟨rfl, rfl⟩ : force' = force ∧ keys' = keys := by simpa [setTask] using hreturned
    have hholder : c.lock.holder = some s := (h.locked.holder s).mpr (by rw [hs]; rfl)
    exact ⟨fetchedKeys_ne_nil hkeys, rfl, .inr ⟨hholder, rfl, rfl, rfl⟩⟩
  | enter s force' hs hserves hfree =>
    obtain rfl : s = t := Option.some.inj ht
    have hfirst : c.firstRequest force' = .returned force keys := by
      simpa [setTask] using hreturned
    exact absurd hfirst (firstRequest_ne_returned force' force keys)
  | queue s force' hs hserves hfree =>
    obtain rfl : s = t := Option.some.inj ht
    simp [setTask] at hreturned
  | recheckMiss s force' hs hturn hserves =>
    obtain rfl : s = t := Option.some.inj ht
    have hfirst : c.firstRequest force' = .returned force keys := by
      simpa [setTask] using hreturned
    exact absurd hfirst (firstRequest_ne_returned force' force keys)
  | discovered s force' answer jwksUri hs huri =>
    obtain rfl : s = t := Option.some.inj ht
    simp [setTask] at hreturned
  | failed s force' answer e hs hforce =>
    obtain rfl : s = t := Option.some.inj ht
    simp [raise, setTask] at hreturned
  | tick seconds hseconds => cases ht

theorem fetchStep_of_step (h : c.Sound) (hst : step config pyJwk c a = some c') :
    FetchStep config c a c' := by
  have hmoves := moves_of_step hst
  have hlocked := (h.step hst).locked
  have hfields := fields_of_moves h hmoves
  have htasks := task_of_moves hmoves
  refine ⟨fun t t' ht ht' => hlocked.unique ht ht', ?_, ?_,
    fun t force keys ht hreturned => returned_of_moves h hmoves ht hreturned, ?_, ?_, ?_⟩
  · rcases hfields with hsame | ⟨t, force, keys, ht, -, hjust⟩
    · exact .inl hsame
    · exact .inr ⟨t, keys, ht, hjust⟩
  · intro t force e ht hraised
    rcases hfields with hsame | ⟨s, force', keys, hs, hreturned, -⟩
    · exact hsame
    · obtain rfl : t = s := Option.some.inj (ht.symm.trans hs)
      rw [hraised] at hreturned
      cases hreturned
  · intro t ht
    rcases htasks with ⟨-, htask⟩ | ⟨s, x, hs, htask, -⟩
    · rw [htask]
    · have hne : t ≠ s := fun he => ht (by rw [he, hs])
      rw [htask, Function.update_of_ne hne]
  · intro t force ha
    subst ha
    rcases htasks with ⟨hnone, -⟩ | ⟨s, x, hs, htask, hx⟩
    · cases hnone
    · obtain rfl : t = s := Option.some.inj hs
      rw [htask, Function.update_self]
      rcases hx with ⟨force', ha, hforce⟩ | ⟨hother, -⟩
      · obtain ⟨-, rfl⟩ := KeysAction.call.inj ha
        exact hforce
      · exact absurd rfl (hother force)
  · intro t ha
    rcases htasks with ⟨-, htask⟩ | ⟨s, x, hs, htask, hx⟩
    · rw [htask]
    · rw [htask]
      by_cases hts : t = s
      · subst hts
        rw [Function.update_self]
        rcases hx with ⟨force, hcall, -⟩ | ⟨-, hforce⟩
        · exact absurd hcall (ha force)
        · exact hforce
      · rw [Function.update_of_ne hts]

/-- Every run of the client keeps to its guarantees. -/
theorem getSigningKeys_fetchSteps (config : IdentityConfig)
    (pyJwk : Value → Except LibraryError κ) (now : ℚ) (as : List KeysAction) :
    EachStep (step config pyJwk) (FetchStep config) { now := now } as := by
  apply eachStep_of_invariant (sound_initial now)
  intro c a c' h hst
  exact ⟨h.step hst, fetchStep_of_step h hst⟩

end KeysState

end McpZero.Identity
