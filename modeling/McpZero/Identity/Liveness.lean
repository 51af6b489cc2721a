import McpZero.Identity.JwksCache
import McpZero.Identity.OboLocks
import McpZero.Lib.Work

/-! Exchanges and key lookups come to an end: each goes on a bounded number of times, and as long
as one is pending the endpoint owes an answer or a waiter has its turn. -/
namespace McpZero.Identity
open Lib

/-- The steps that a call has still to take. -/
def ExchangeTask.work : ExchangeTask → ℕ
  | .waiting _ _ => 2
  | .posting _ _ => 1
  | .idle => 0
  | .returned _ _ => 0
  | .raised _ _ => 0

namespace OBOAction

/-- Whether an action goes on with an exchange that has begun. -/
def goesOn : OBOAction → ℕ
  | .resume _ => 1
  | .respond _ _ => 1
  | _ => 0

/-- What an exchange may cost: one turn at the lock and one answer of the endpoint. -/
def cost : OBOAction → ℕ
  | .exchange _ _ => 2
  | _ => 0

end OBOAction

namespace OBOClient

variable {cacheTtl : ℤ} {c c' : OBOClient} {a : OBOAction}

/-- No exchange can go on: nobody has its turn, and the endpoint owes no answer. -/
def Settled (cacheTtl : ℤ) (c : OBOClient) : Prop := ∀ a, a.goesOn = 1 → step cacheTtl c a = none

/-- A step of an exchange is paid for by what is left of it. -/
theorem work_of_moves (h : Moves cacheTtl c a c') :
    c'.task = c.task ∧ a.goesOn = 0 ∨ ∃ t x, a.task? = some t ∧
      c'.task = Function.update c.task t x ∧ x.work + a.goesOn ≤ (c.task t).work + a.cost := by
  cases h with
  | hit t r token ht hcached => exact .inr ⟨t, _, rfl, rfl, Nat.zero_le _⟩
  | enter t r d l ht hcached hlock hfree =>
    obtain ⟨locks, nextLock, rfl⟩ := lockOf_frame hlock
    refine .inr ⟨t, _, rfl, rfl, ?_⟩
    simp [ExchangeTask.work, OBOAction.goesOn, OBOAction.cost]
  | queue t r d l ht hcached hlock hfree =>
    obtain ⟨locks, nextLock, rfl⟩ := lockOf_frame hlock
    refine .inr ⟨t, _, rfl, rfl, ?_⟩
    simp [ExchangeTask.work, OBOAction.goesOn, OBOAction.cost]
  | recheckHit t r l token ht hturn hcached =>
    refine .inr ⟨t, _, rfl, rfl, ?_⟩
    simp [ht, ExchangeTask.work, OBOAction.goesOn, OBOAction.cost]
  | recheckMiss t r l ht hturn hcached =>
    refine .inr ⟨t, _, rfl, rfl, ?_⟩
    simp [ht, ExchangeTask.work, OBOAction.goesOn, OBOAction.cost]
  | exchanged t r l response token ht hexchange =>
    refine .inr ⟨t, _, rfl, rfl, ?_⟩
    simp [ht, ExchangeTask.work, OBOAction.goesOn, OBOAction.cost]
  | failed t r l response e ht hexchange =>
    refine .inr ⟨t, _, rfl, rfl, ?_⟩
    simp [ht, ExchangeTask.work, OBOAction.goesOn, OBOAction.cost]
  | tick seconds hseconds => exact .inl ⟨rfl, rfl⟩

theorem totalWork_of_step {T : Finset TaskId} (hT : ∀ t, a.task? = some t → t ∈ T)
    (hst : step cacheTtl c a = some c') :
    totalWork ExchangeTask.work T c'.task + a.goesOn ≤
      totalWork ExchangeTask.work T c.task + a.cost := by
  apply totalWork_of_update
  rcases work_of_moves (moves_of_step hst) with ⟨htask, hgoes⟩ | ⟨t, x, ht, htask, hwork⟩
  · exact .inl ⟨htask, hgoes⟩
  · exact .inr ⟨t, x, hT t ht, htask, hwork⟩

theorem Disciplined.not_pending_of_settled (h : c.Disciplined) (hsettled : c.Settled cacheTtl)
    (t : TaskId) : (c.task t).pending = false := by
  have hposting : ∀ t r l, c.task t ≠ .posting r l := by
    intro t r l ht
    have hstep := hsettled (.respond t (.httpError "")) rfl
    simp [OBOClient.step, ht] at hstep
  have hturn : ∀ t r l, c.task t = .waiting r l → (c.lock l).turn t = false := by
    intro t r l ht
    have hstep := hsettled (.resume t) rfl
    simpa [OBOClient.step, ht] using hstep
  cases ht : c.task t with
  | idle => rfl
  | returned r token => rfl
  | raised r e => rfl
  | posting r l => exact absurd ht (hposting t r l)
  | waiting r l =>
    rcases (h.serves l).progress (t := t) (by simp [ht, ExchangeTask.place]) with
      ⟨s, hinside⟩ | ⟨s, hwaiting, hs⟩
    · obtain ⟨r', hs⟩ := ExchangeTask.eq_posting_of_place hinside
      exact absurd hs (hposting s r' l)
    · obtain ⟨r', hs'⟩ := ExchangeTask.eq_waiting_of_place hwaiting
      rw [hturn s r' l hs'] at hs
      cases hs

/-- Every `exchange_token` comes to an end. A run goes on with exchanges at most twice as often as
it begins one, and where none can go on, none is pending. -/
theorem exchanges_end (cacheTtl : ℤ) (now : ℚ) (actions : List OBOAction)
    (hrun : run (step cacheTtl) { now := now } actions = some c) :
    (actions.map OBOAction.goesOn).sum ≤ (actions.map OBOAction.cost).sum ∧
      (c.Settled cacheTtl → ∀ t, (c.task t).pending = false) := by
  let T := (actions.filterMap OBOAction.task?).toFinset
  have hT : ∀ a ∈ actions, ∀ t, a.task? = some t → t ∈ T := fun a ha t ht =>
    List.mem_toFinset.mpr (List.mem_filterMap.mpr ⟨a, ha, ht⟩)
  have hzero : totalWork ExchangeTask.work T ({ now := now } : OBOClient).task = 0 :=
    totalWork_eq_zero fun _ => rfl
  obtain ⟨hdisciplined, hpaid⟩ := run_potential (I := Disciplined)
    (fun c => totalWork ExchangeTask.work T c.task) OBOAction.goesOn OBOAction.cost
    (fun c a c' ha hc hst => ⟨hc.step hst, totalWork_of_step (hT a ha) hst⟩)
    (disciplined_initial now) hrun
  refine ⟨?_, hdisciplined.not_pending_of_settled⟩
  omega

def searchExchange : ExchangeRequest := ⟨"jwt", "alice", "api://search", ["read"]⟩

/-- The second call waits for the exchange of the first, which fails, and makes its own. -/
def secondTry : List OBOAction :=
  [.exchange 0 searchExchange, .exchange 1 searchExchange, .respond 0 (.httpError "down"),
    .resume 1, .respond 1 (.response 200 "" (.ok { accessToken := some "granted" }))]

theorem secondTry_ends :
    ∃ c, run (step 300) { now := 0 } secondTry = some c ∧
      (secondTry.map OBOAction.goesOn).sum ≤ (secondTry.map OBOAction.cost).sum ∧
      ∀ t, (c.task t).pending = false := by
  refine ⟨_, rfl, (exchanges_end 300 0 secondTry rfl).1,
    (exchanges_end 300 0 secondTry rfl).2 fun a ha => ?_⟩
  cases a with
  | resume t => exact match t with | 0 => rfl | 1 => rfl | _ + 2 => rfl
  | respond t response => exact match t with | 0 => rfl | 1 => rfl | _ + 2 => rfl
  | exchange t r => cases ha
  | tick seconds => cases ha

end OBOClient

/-- The steps that a lookup has still to take. -/
def KeysTask.work {κ : Type} : KeysTask κ → ℕ
  | .waiting _ => 3
  | .discovering _ => 2
  | .fetching _ _ => 1
  | .idle => 0
  | .returned _ _ => 0
  | .raised _ _ => 0

namespace KeysAction

/-- Whether an action goes on with a lookup that has begun. -/
def goesOn : KeysAction → ℕ
  | .resume _ => 1
  | .respond _ _ => 1
  | _ => 0

/-- What a lookup may cost: one turn at the lock and the two requests to the provider. -/
def cost : KeysAction → ℕ
  | .call _ _ => 3
  | _ => 0

end KeysAction

namespace KeysState

variable {κ : Type} {config : IdentityConfig} {pyJwk : Python.Value → Except LibraryError κ}
  {c c' : KeysState κ} {a : KeysAction}

/-- No lookup can go on: nobody has its turn, and the provider owes no answer. -/
def Settled (config : IdentityConfig) (pyJwk : Python.Value → Except LibraryError κ)
    (c : KeysState κ) : Prop := ∀ a, a.goesOn = 1 → step config pyJwk c a = none

theorem firstRequest_work (c : KeysState κ) (force : Bool) : (c.firstRequest force).work ≤ 2 := by
  unfold firstRequest
  split <;> simp [KeysTask.work]

theorem work_pos_of_inside {x : KeysTask κ} (h : x.place = .inside) : 1 ≤ x.work := by
  cases x with
  | discovering force => exact Nat.le_succ 1
  | fetching force jwksUri => exact le_rfl
  | idle => cases h
  | waiting force => cases h
  | returned force keys => cases h
  | raised force e => cases h

/-- A step of a lookup is paid for by what is left of it. -/
theorem work_of_moves (h : Moves config pyJwk c a c') :
    c'.task = c.task ∧ a.goesOn = 0 ∨ ∃ t x, a.task? = some t ∧
      c'.task = Function.update c.task t x ∧ x.work + a.goesOn ≤ (c.task t).work + a.cost := by
  cases h with
  | hit t force ht hserves => exact .inr ⟨t, _, rfl, rfl, Nat.zero_le _⟩
  | enter t force ht hserves hfree =>
    have hfirst := c.firstRequest_work force
    refine .inr ⟨t, _, rfl, rfl, ?_⟩
    simp only [KeysAction.goesOn, KeysAction.cost]
    omega
  | queue t force ht hserves hfree =>
    refine .inr ⟨t, _, rfl, rfl, ?_⟩
    simp [KeysTask.work, KeysAction.goesOn, KeysAction.cost]
  | recheckHit t force ht hturn hserves =>
    refine .inr ⟨t, _, rfl, rfl, ?_⟩
    simp [ht, KeysTask.work, KeysAction.goesOn, KeysAction.cost]
  | recheckMiss t force ht hturn hserves =>
    have hfirst := c.firstRequest_work force
    refine .inr ⟨t, _, rfl, rfl, ?_⟩
    rw [ht]
    exact Nat.succ_le_succ hfirst
  | discovered t force answer jwksUri ht huri =>
    refine .inr ⟨t, _, rfl, rfl, ?_⟩
    simp [ht, KeysTask.work, KeysAction.goesOn, KeysAction.cost]
  | fetched t force jwksUri answer keys ht hkeys =>
    refine .inr ⟨t, _, rfl, rfl, ?_⟩
    simp [ht, KeysTask.work, KeysAction.goesOn, KeysAction.cost]
  | failed t force answer e ht hforce =>
    have hpos := work_pos_of_inside ht
    refine .inr ⟨t, _, rfl, rfl, ?_⟩
    simpa [KeysTask.work, KeysAction.goesOn, KeysAction.cost] using hpos
  | tick seconds hseconds => exact .inl ⟨rfl, rfl⟩

theorem totalWork_of_step {T : Finset TaskId} (hT : ∀ t, a.task? = some t → t ∈ T)
    (hst : step config pyJwk c a = some c') :
    totalWork KeysTask.work T c'.task + a.goesOn ≤ totalWork KeysTask.work T c.task + a.cost := by
  apply totalWork_of_update
  rcases work_of_moves (moves_of_step hst) with ⟨htask, hgoes⟩ | ⟨t, x, ht, htask, hwork⟩
  · exact .inl ⟨htask, hgoes⟩
  · exact .inr ⟨t, x, hT t ht, htask, hwork⟩

theorem Sound.not_pending_of_settled (h : c.Sound) (hsettled : c.Settled config pyJwk)
    (t : TaskId) : (c.task t).pending = false := by
  have hrespond : ∀ t, (c.task t).place ≠ .inside := by
    intro t ht
    have hstep := hsettled (.respond t (.error "")) rfl
    cases hx : c.task t <;> simp [hx, KeysTask.place, KeysState.step] at ht hstep
  cases ht : c.task t with
  | idle => rfl
  | returned force keys => rfl
  | raised force e => rfl
  | discovering force => exact absurd (by rw [ht]; rfl) (hrespond t)
  | fetching force jwksUri => exact absurd (by rw [ht]; rfl) (hrespond t)
  | waiting force =>
    rcases h.locked.progress (t := t) (by rw [ht]; rfl) with ⟨s, hinside⟩ | ⟨s, hwaiting, hs⟩
    · exact absurd hinside (hrespond s)
    · have hstep := hsettled (.resume s) rfl
      cases hx : c.task s <;> simp [hx, KeysTask.place, KeysState.step, hs] at hwaiting hstep

/-- Every `get_signing_keys` comes to an end. A run goes on with lookups at most three times as
often as it begins one, and where none can go on, none is pending. -/
theorem lookups_end (config : IdentityConfig)
    (pyJwk : Python.Value → Except LibraryError κ) (now : ℚ) (actions : List KeysAction)
    (hrun : run (step config pyJwk) { now := now } actions = some c) :
    (actions.map KeysAction.goesOn).sum ≤ (actions.map KeysAction.cost).sum ∧
      (c.Settled config pyJwk → ∀ t, (c.task t).pending = false) := by
  let T := (actions.filterMap KeysAction.task?).toFinset
  have hT : ∀ a ∈ actions, ∀ t, a.task? = some t → t ∈ T := fun a ha t ht =>
    List.mem_toFinset.mpr (List.mem_filterMap.mpr ⟨a, ha, ht⟩)
  have hzero : totalWork KeysTask.work T ({ now := now } : KeysState κ).task = 0 :=
    totalWork_eq_zero fun _ => rfl
  obtain ⟨hsound, hpaid⟩ := run_potential (I := Sound)
    (fun c => totalWork KeysTask.work T c.task) KeysAction.goesOn KeysAction.cost
    (fun c a c' ha hc hst => ⟨hc.step hst, totalWork_of_step (hT a ha) hst⟩)
    (sound_initial now) hrun
  refine ⟨?_, hsound.not_pending_of_settled⟩
  omega

/-- The provider cannot be reached, and a second call tries in its turn. -/
def unreachable : List KeysAction :=
  [.call 0 false, .call 1 true, .respond 0 (.error "down"), .resume 1, .respond 1 (.error "down")]

theorem unreachable_ends :
    ∃ c, run (step { issuer := "https://idp", audience := "gateway" } Except.ok) { now := 0 }
        unreachable = some c ∧
      (unreachable.map KeysAction.goesOn).sum ≤ (unreachable.map KeysAction.cost).sum ∧
      ∀ t, (c.task t).pending = false := by
  let config : IdentityConfig := { issuer := "https://idp", audience := "gateway" }
  refine ⟨_, rfl, (lookups_end config Except.ok 0 unreachable rfl).1,
    (lookups_end config Except.ok 0 unreachable rfl).2 fun a ha => ?_⟩
  cases a with
  | resume t => exact match t with | 0 => rfl | 1 => rfl | _ + 2 => rfl
  | respond t answer => exact match t with | 0 => rfl | 1 => rfl | _ + 2 => rfl
  | call t force => cases ha
  | tick seconds => cases ha

end KeysState

end McpZero.Identity
