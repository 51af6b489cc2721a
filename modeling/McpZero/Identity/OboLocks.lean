import McpZero.Identity.Obo

/-! The locks of `OBOClient`: what one step does, and how tasks, keys and locks agree in every
reachable state. -/
namespace McpZero.Identity
open Lib

/-- The request and the lock of a call that waits or posts. -/
def ExchangeTask.underway? : ExchangeTask → Option (ExchangeRequest × LockId)
  | waiting r l => some (r, l)
  | posting r l => some (r, l)
  | _ => none

/-- Where the task stands with the lock `l`. -/
def ExchangeTask.place (l : LockId) : ExchangeTask → Place
  | waiting _ l' => if l' = l then .waiting else .outside
  | posting _ l' => if l' = l then .inside else .outside
  | _ => .outside

theorem ExchangeTask.place_eq_outside {x : ExchangeTask} {l : LockId}
    (h : ∀ r, x.underway? ≠ some (r, l)) : x.place l = .outside := by
  cases x with
  | waiting r l' =>
    have hne : l' ≠ l := fun he => h r (by rw [he]; rfl)
    simp [place, hne]
  | posting r l' =>
    have hne : l' ≠ l := fun he => h r (by rw [he]; rfl)
    simp [place, hne]
  | _ => rfl

theorem ExchangeTask.underway?_of_not_pending {x : ExchangeTask} (h : x.pending = false) :
    x.underway? = none := by
  cases x <;> first | rfl | cases h

theorem ExchangeTask.eq_waiting_of_place {x : ExchangeTask} {l : LockId}
    (h : x.place l = .waiting) : ∃ r, x = .waiting r l := by
  cases x with
  | waiting r l' =>
    by_cases hl : l' = l
    · exact ⟨r, by rw [hl]⟩
    · simp [place, hl] at h
  | posting r l' =>
    simp only [place] at h
    split at h <;> cases h
  | _ => cases h

theorem ExchangeTask.eq_posting_of_place {x : ExchangeTask} {l : LockId}
    (h : x.place l = .inside) : ∃ r, x = .posting r l := by
  cases x with
  | posting r l' =>
    by_cases hl : l' = l
    · exact ⟨r, by rw [hl]⟩
    · simp [place, hl] at h
  | waiting r l' =>
    simp only [place] at h
    split at h <;> cases h
  | _ => cases h

/-- The task stands at no lock but `l`. -/
def ExchangeTask.OnlyAt (l : LockId) (x : ExchangeTask) : Prop :=
  ∀ r l', x.underway? = some (r, l') → l' = l

theorem ExchangeTask.onlyAt_of_underway? {x : ExchangeTask} {r : ExchangeRequest} {l : LockId}
    (h : x.underway? = some (r, l)) : x.OnlyAt l := by
  intro r' l' hr
  rw [h] at hr
  exact (Prod.mk.inj (Option.some.inj hr)).2.symm

theorem ExchangeTask.onlyAt_of_not_pending {x : ExchangeTask} {l : LockId}
    (h : x.pending = false) : x.OnlyAt l := by
  intro r l' hr
  rw [underway?_of_not_pending h] at hr
  cases hr

theorem ExchangeTask.place_of_not_pending {x : ExchangeTask} {l : LockId}
    (h : x.pending = false) : x.place l = .outside :=
  place_eq_outside fun r hr => by
    rw [underway?_of_not_pending h] at hr
    cases hr

/-- The task that an action runs. -/
def OBOAction.task? : OBOAction → Option TaskId
  | exchange t _ => some t
  | resume t => some t
  | respond t _ => some t
  | tick _ => none

namespace OBOClient

/-- What one step does, with all that is known where it does it. -/
inductive Moves (cacheTtl : ℤ) (c : OBOClient) : OBOAction → OBOClient → Prop
  | hit (t : TaskId) (r : ExchangeRequest) (token : ExchangedToken) :
    (c.task t).pending = false → c.cached cacheTtl r.key = some token →
    Moves cacheTtl c (.exchange t r) (c.setTask t (.returned r token.accessToken))
  | enter (t : TaskId) (r : ExchangeRequest) (d : OBOClient) (l : LockId) :
    (c.task t).pending = false → c.cached cacheTtl r.key = none → c.lockOf r.key = (d, l) →
    (d.lock l).free →
    Moves cacheTtl c (.exchange t r) ((d.setLock l ((d.lock l).hold t)).setTask t (.posting r l))
  | queue (t : TaskId) (r : ExchangeRequest) (d : OBOClient) (l : LockId) :
    (c.task t).pending = false → c.cached cacheTtl r.key = none → c.lockOf r.key = (d, l) →
    (d.lock l).free = false →
    Moves cacheTtl c (.exchange t r) ((d.setLock l ((d.lock l).wait t)).setTask t (.waiting r l))
  | recheckHit (t : TaskId) (r : ExchangeRequest) (l : LockId) (token : ExchangedToken) :
    c.task t = .waiting r l → (c.lock l).turn t → c.cached cacheTtl r.key = some token →
    Moves cacheTtl c (.resume t)
      ((c.setLock l ((c.lock l).takeTurn t).release).setTask t (.returned r token.accessToken))
  | recheckMiss (t : TaskId) (r : ExchangeRequest) (l : LockId) :
    c.task t = .waiting r l → (c.lock l).turn t → c.cached cacheTtl r.key = none →
    Moves cacheTtl c (.resume t)
      ((c.setLock l ((c.lock l).takeTurn t)).setTask t (.posting r l))
  | exchanged (t : TaskId) (r : ExchangeRequest) (l : LockId) (response : TokenResponse)
      (token : ExchangedToken) :
    c.task t = .posting r l → performExchange r.targetAudience c.now response = .ok token →
    Moves cacheTtl c (.respond t response)
      { (c.setLock l (c.lock l).release).setTask t (.returned r token.accessToken) with
        cache := Function.update c.cache r.key (some token)
        exchanged := ⟨r, token⟩ :: c.exchanged }
  | failed (t : TaskId) (r : ExchangeRequest) (l : LockId) (response : TokenResponse) (e : Exc) :
    c.task t = .posting r l → performExchange r.targetAudience c.now response = .error e →
    Moves cacheTtl c (.respond t response)
      ((c.setLock l (c.lock l).release).setTask t (.raised r e))
  | tick (seconds : ℚ) : 0 ≤ seconds →
    Moves cacheTtl c (.tick seconds) { c with now := c.now + seconds }

variable {cacheTtl : ℤ} {c c' : OBOClient} {a : OBOAction}

/-- Creating a lock touches nothing else. -/
theorem lockOf_frame {key : ExchangeCacheKey} {d : OBOClient} {l : LockId}
    (h : c.lockOf key = (d, l)) :
    ∃ locks nextLock, d = { c with locks := locks, nextLock := nextLock } := by
  unfold lockOf at h
  split at h <;> obtain ⟨rfl, rfl⟩ := Prod.mk.inj h
  · exact ⟨c.locks, c.nextLock, rfl⟩
  · exact ⟨_, _, rfl⟩

theorem lockOf_cached {key : ExchangeCacheKey} {d : OBOClient} {l : LockId}
    (h : c.lockOf key = (d, l)) : d.cached cacheTtl key = c.cached cacheTtl key := by
  obtain ⟨locks, nextLock, rfl⟩ := lockOf_frame h
  rfl

theorem setLock_setLock (l : LockId) (x y : AsyncLock TaskId) :
    (c.setLock l x).setLock l y = c.setLock l y := by
  simp [setLock]

theorem setLock_lock (l : LockId) (x : AsyncLock TaskId) : (c.setLock l x).lock l = x := by
  simp [setLock]

theorem enter_of_none {t : TaskId} {r : ExchangeRequest} {l : LockId}
    (h : c.cached cacheTtl r.key = none) : c.enter cacheTtl t r l = c.setTask t (.posting r l) := by
  simp [enter, h]

theorem enter_of_some {t : TaskId} {r : ExchangeRequest} {l : LockId} {token : ExchangedToken}
    (h : c.cached cacheTtl r.key = some token) : c.enter cacheTtl t r l =
      (c.setLock l (c.lock l).release).setTask t (.returned r token.accessToken) := by
  simp [enter, h]

theorem moves_of_start {t : TaskId} {r : ExchangeRequest} (ht : (c.task t).pending = false) :
    Moves cacheTtl c (.exchange t r) (c.start cacheTtl t r) := by
  cases hcached : c.cached cacheTtl r.key with
  | some token =>
    have hstart : c.start cacheTtl t r = c.setTask t (.returned r token.accessToken) := by
      simp [start, hcached]
    rw [hstart]
    exact .hit t r token ht hcached
  | none =>
    cases hlock : c.lockOf r.key with
    | mk d l =>
      cases hfree : (d.lock l).free with
      | false =>
        have hstart : c.start cacheTtl t r =
            (d.setLock l ((d.lock l).wait t)).setTask t (.waiting r l) := by
          simp [start, hcached, hlock, hfree]
        rw [hstart]
        exact .queue t r d l ht hcached hlock hfree
      | true =>
        -- nothing suspends between the two checks of the cache
        have hagain : (d.setLock l ((d.lock l).hold t)).cached cacheTtl r.key = none :=
          (lockOf_cached hlock).trans hcached
        have hstart : c.start cacheTtl t r =
            (d.setLock l ((d.lock l).hold t)).setTask t (.posting r l) := by
          simp [start, hcached, hlock, hfree, enter_of_none hagain]
        rw [hstart]
        exact .enter t r d l ht hcached hlock hfree

theorem moves_of_step (hst : step cacheTtl c a = some c') : Moves cacheTtl c a c' := by
  cases a with
  | exchange t r =>
    cases hpending : (c.task t).pending with
    | true => simp [step, hpending] at hst
    | false =>
      obtain rfl : c.start cacheTtl t r = c' := by simpa [step, hpending] using hst
      exact moves_of_start hpending
  | resume t =>
    simp only [step] at hst
    split at hst
    · rename_i r l ht
      split at hst <;> cases hst
      rename_i hturn
      have hsame : (c.setLock l ((c.lock l).takeTurn t)).cached cacheTtl r.key =
          c.cached cacheTtl r.key := rfl
      cases hcached : c.cached cacheTtl r.key with
      | some token =>
        rw [enter_of_some (hsame.trans hcached), setLock_lock, setLock_setLock]
        exact .recheckHit t r l token ht hturn hcached
      | none =>
        rw [enter_of_none (hsame.trans hcached)]
        exact .recheckMiss t r l ht hturn hcached
    · cases hst
  | respond t response =>
    simp only [step] at hst
    split at hst <;> cases hst
    rename_i r l ht
    cases hexchange : performExchange r.targetAudience c.now response with
    | ok token =>
      have hmove : Moves cacheTtl c (.respond t response) _ :=
        .exchanged t r l response token ht hexchange
      simpa [finish, hexchange] using hmove
    | error e =>
      have hmove : Moves cacheTtl c (.respond t response) _ :=
        .failed t r l response e ht hexchange
      simpa [finish, hexchange] using hmove
  | tick seconds =>
    simp only [step] at hst
    split at hst <;> cases hst
    exact .tick seconds ‹_›

/-- The locks agree with the tasks, and each key that is under way has a lock of its own. -/
structure Disciplined (c : OBOClient) : Prop where
  serves (l : LockId) : (c.lock l).Serves fun t => (c.task t).place l
  keyed (t : TaskId) (r : ExchangeRequest) (l : LockId) :
    (c.task t).underway? = some (r, l) → c.locks r.key = some l
  injective (key key' : ExchangeCacheKey) (l : LockId) :
    c.locks key = some l → c.locks key' = some l → key = key'
  allocated (key : ExchangeCacheKey) (l : LockId) : c.locks key = some l → l < c.nextLock

theorem disciplined_initial (now : ℚ) : ({ now := now } : OBOClient).Disciplined where
  serves l := AsyncLock.serves_empty
  keyed t r l h := by cases h
  injective key key' l h := by cases h
  allocated key l h := by cases h

namespace Disciplined

/-- A task moves from one place to another at the lock `l`, and stands at no other lock. -/
theorem move (h : c.Disciplined) {t : TaskId} {x : ExchangeTask} {l : LockId}
    {k : AsyncLock TaskId}
    (hk : k.Serves (Function.update (fun s => (c.task s).place l) t (x.place l)))
    (hbefore : (c.task t).OnlyAt l)
    (hafter : ∀ r l', x.underway? = some (r, l') → l' = l ∧ c.locks r.key = some l) :
    ((c.setLock l k).setTask t x).Disciplined where
  serves l' := by
    have hplace : (fun s => (((c.setLock l k).setTask t x).task s).place l') =
        Function.update (fun s => (c.task s).place l') t (x.place l') := by
      funext s
      by_cases hs : s = t
      · subst hs
        simp [setTask]
      · simp [setTask, setLock, hs]
    rw [hplace]
    by_cases hl : l' = l
    · subst hl
      simpa [setTask, setLock] using hk
    · have hout : (c.task t).place l' = .outside :=
        ExchangeTask.place_eq_outside fun r hr => hl (hbefore r l' hr)
      have hnew : x.place l' = .outside :=
        ExchangeTask.place_eq_outside fun r hr => hl (hafter r l' hr).1
      have hsame : Function.update (fun s => (c.task s).place l') t (x.place l') =
          fun s => (c.task s).place l' := by
        rw [hnew, ← hout]
        exact Function.update_eq_self t _
      rw [hsame]
      simpa [setTask, setLock, hl] using h.serves l'
  keyed s r l' hs := by
    show c.locks r.key = some l'
    by_cases hst : s = t
    · subst hst
      have hx : x.underway? = some (r, l') := by simpa [setTask] using hs
      obtain ⟨rfl, hkey⟩ := hafter r l' hx
      exact hkey
    · exact h.keyed s r l' (by simpa [setTask, setLock, hst] using hs)
  injective := h.injective
  allocated := h.allocated

theorem lockOf (h : c.Disciplined) {key : ExchangeCacheKey} {d : OBOClient} {l : LockId}
    (hlock : c.lockOf key = (d, l)) :
    d.Disciplined ∧ d.task = c.task ∧ d.locks key = some l := by
  unfold OBOClient.lockOf at hlock
  split at hlock
  · rename_i l' hkey
    obtain ⟨rfl, rfl⟩ := Prod.mk.inj hlock
    exact ⟨h, rfl, hkey⟩
  · rename_i hkey
    obtain ⟨rfl, rfl⟩ := Prod.mk.inj hlock
    have hother : ∀ key' l', c.locks key' = some l' → key' ≠ key := by
      intro key' l' hl he
      rw [he, hkey] at hl
      cases hl
    have hfresh : ∀ key', c.locks key' ≠ some c.nextLock := fun key' hl =>
      Nat.lt_irrefl _ (h.allocated key' _ hl)
    refine ⟨⟨h.serves, fun t r l' ht => ?_, fun key' key'' l' hl hl' => ?_, fun key' l' hl => ?_⟩,
      rfl, by simp⟩
    · have hl := h.keyed t r l' ht
      show Function.update c.locks key (some c.nextLock) r.key = some l'
      rwa [Function.update_of_ne (hother _ _ hl)]
    · by_cases hk : key' = key
      · have hnew : c.nextLock = l' := by simpa [hk] using hl
        by_cases hk' : key'' = key
        · rw [hk, hk']
        · exact absurd (by simpa [hk', hnew] using hl') (hfresh key'')
      · have hold : c.locks key' = some l' := by simpa [hk] using hl
        by_cases hk' : key'' = key
        · have hnew : c.nextLock = l' := by simpa [hk'] using hl'
          rw [← hnew] at hold
          exact absurd hold (hfresh key')
        · exact h.injective key' key'' l' hold (by simpa [hk'] using hl')
    · show l' < c.nextLock + 1
      by_cases hk : key' = key
      · have hnew : c.nextLock = l' := by simpa [hk] using hl
        rw [hnew]
        exact Nat.lt_succ_self l'
      · exact Nat.lt_succ_of_lt (h.allocated key' l' (by simpa [hk] using hl))

theorem waiting_keyed (h : c.Disciplined) {t : TaskId} {r : ExchangeRequest} {l : LockId}
    (ht : c.task t = .waiting r l) : c.locks r.key = some l :=
  h.keyed t r l (by rw [ht]; rfl)

theorem posting_keyed (h : c.Disciplined) {t : TaskId} {r : ExchangeRequest} {l : LockId}
    (ht : c.task t = .posting r l) : c.locks r.key = some l :=
  h.keyed t r l (by rw [ht]; rfl)

/-- A call starts to wait or to post at the lock of its key. -/
theorem arrive (h : c.Disciplined) {t : TaskId} {r : ExchangeRequest} {l : LockId}
    {x : ExchangeTask} {k : AsyncLock TaskId} (hbefore : (c.task t).OnlyAt l)
    (hx : x.underway? = some (r, l)) (hkey : c.locks r.key = some l)
    (hk : k.Serves (Function.update (fun s => (c.task s).place l) t (x.place l))) :
    ((c.setLock l k).setTask t x).Disciplined := by
  apply h.move hk hbefore
  intro r' l' hr
  rw [hx] at hr
  obtain ⟨rfl, rfl⟩ := Prod.mk.inj (Option.some.inj hr)
  exact ⟨rfl, hkey⟩

/-- A call ends, away from every lock. -/
theorem leave (h : c.Disciplined) {t : TaskId} {l : LockId} {x : ExchangeTask}
    {k : AsyncLock TaskId} (hbefore : (c.task t).OnlyAt l) (hx : x.pending = false)
    (hk : k.Serves (Function.update (fun s => (c.task s).place l) t .outside)) :
    ((c.setLock l k).setTask t x).Disciplined := by
  apply h.move (by rwa [ExchangeTask.place_of_not_pending hx]) hbefore
  intro r l' hr
  rw [ExchangeTask.underway?_of_not_pending hx] at hr
  cases hr

/-- The call in the lock ends and releases it. -/
theorem release (h : c.Disciplined) {t : TaskId} {r : ExchangeRequest} {l : LockId}
    {x : ExchangeTask} (ht : c.task t = .posting r l) (hx : x.pending = false) :
    ((c.setLock l (c.lock l).release).setTask t x).Disciplined := by
  apply h.leave (ExchangeTask.onlyAt_of_underway? (r := r) (by rw [ht]; rfl)) hx
  exact (h.serves l).release (by simp [ht, ExchangeTask.place])

/-- Every step keeps the discipline. -/
theorem step (h : c.Disciplined) (hst : step cacheTtl c a = some c') : c'.Disciplined := by
  cases moves_of_step hst with
  | hit t r token ht hcached =>
    have hserves : (c.lock 0).Serves (Function.update (fun s => (c.task s).place 0) t .outside) := by
      rw [← ExchangeTask.place_of_not_pending (l := 0) ht, Function.update_eq_self]
      exact h.serves 0
    have hleave := h.leave (x := .returned r token.accessToken)
      (ExchangeTask.onlyAt_of_not_pending ht) rfl hserves
    have hsame : c.setLock 0 (c.lock 0) = c := by simp [setLock]
    rwa [hsame] at hleave
  | enter t r d l ht hcached hlock hfree =>
    obtain ⟨hd, htask, hkey⟩ := h.lockOf hlock
    have hhold := (hd.serves l).hold (t := t) hfree
    exact hd.arrive (ExchangeTask.onlyAt_of_not_pending (by rwa [htask])) rfl hkey
      (by simpa [ExchangeTask.place] using hhold)
  | queue t r d l ht hcached hlock hfree =>
    obtain ⟨hd, htask, hkey⟩ := h.lockOf hlock
    have hidle : (d.task t).pending = false := by rwa [htask]
    have hwait := (hd.serves l).wait (ExchangeTask.place_of_not_pending hidle)
    exact hd.arrive (ExchangeTask.onlyAt_of_not_pending hidle) rfl hkey
      (by simpa [ExchangeTask.place] using hwait)
  | recheckHit t r l token ht hturn hcached =>
    have htaken := (h.serves l).takeTurn hturn
    have hreleased := htaken.release (t := t) (by simp)
    rw [Function.update_idem] at hreleased
    exact h.leave (ExchangeTask.onlyAt_of_underway? (r := r) (by rw [ht]; rfl)) rfl hreleased
  | recheckMiss t r l ht hturn hcached =>
    have htaken := (h.serves l).takeTurn hturn
    exact h.arrive (ExchangeTask.onlyAt_of_underway? (r := r) (by rw [ht]; rfl)) rfl
      (h.waiting_keyed ht) (by simpa [ExchangeTask.place] using htaken)
  | exchanged t r l response token ht hexchange =>
    have hrelease := h.release (x := .returned r token.accessToken) ht rfl
    exact ⟨hrelease.serves, hrelease.keyed, hrelease.injective, hrelease.allocated⟩
  | failed t r l response e ht hexchange => exact h.release ht rfl
  | tick seconds hseconds => exact ⟨h.serves, h.keyed, h.injective, h.allocated⟩

end Disciplined

end OBOClient

end McpZero.Identity
