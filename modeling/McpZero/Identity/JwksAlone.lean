import McpZero.Identity.JwksCache
import McpZero.Identity.TypedFailures

/-! A call of `get_signing_keys` in sequence is a run of the machine: what the validator is
proved to do with its keys, it does where nothing runs beside it. -/
namespace McpZero.Identity
open Python Lib

namespace KeysState

variable {κ : Type} {config : IdentityConfig} {pyJwk : Value → Except LibraryError κ}
  {c : KeysState κ} {t : TaskId} {force : Bool}

theorem step_call (h : (c.task t).pending = false) :
    step config pyJwk c (.call t force) = some (c.start config t force) := by
  simp [step, h]

theorem step_respond_discovering (h : c.task t = .discovering force) (answer : Fetched) :
    step config pyJwk c (.respond t answer) = some (c.discovered config t force answer) := by
  simp [step, h]

theorem step_respond_fetching {jwksUri : Value} (h : c.task t = .fetching force jwksUri)
    (answer : Fetched) :
    step config pyJwk c (.respond t answer) = some (c.fetched pyJwk t force jwksUri answer) := by
  simp [step, h]

theorem step_tick {now : ℚ} (h : c.now ≤ now) :
    step config pyJwk c (.tick (now - c.now)) = some { c with now := now } := by
  have hnow : c.now + (now - c.now) = now := by rw [Rat.add_comm, Rat.sub_add_cancel]
  have hnonneg : 0 ≤ now - c.now := (Rat.le_iff_sub_nonneg c.now now).mp h
  simp [step, hnonneg, hnow]

/-- How the task ends that gets the result of the call. -/
def endOf (force : Bool) : Except Exc (List κ) → KeysTask κ
  | .ok keys => .returned force keys
  | .error e => .raised force e

end KeysState

namespace JWTValidator

variable {σ κ : Type} {v : JWTValidator σ κ} {c : KeysState κ} {t : TaskId} {force : Bool} {s : σ}

/-- The machine runs from `c` to an end of the task with the result, and to the client. -/
def Runs (v : JWTValidator σ κ) (c : KeysState κ) (t : TaskId) (force : Bool)
    (result : Except Exc (List κ)) (client : JWKSClient κ) : Prop :=
  ∃ as c', run (KeysState.step v.config v.pyJwk) c as = some c' ∧
    c'.task t = KeysState.endOf force result ∧ c'.client = client

theorem Runs.cons {a : KeysAction} {c' : KeysState κ} {result : Except Exc (List κ)}
    {client : JWKSClient κ} (hst : KeysState.step v.config v.pyJwk c a = some c')
    (h : v.Runs c' t force result client) : v.Runs c t force result client := by
  obtain ⟨as, c'', hrun, htask, hclient⟩ := h
  refine ⟨a :: as, c'', ?_, htask, hclient⟩
  rw [run, hst]
  exact hrun

theorem runs_nil {result : Except Exc (List κ)} (h : c.task t = KeysState.endOf force result) :
    v.Runs c t force result c.client := ⟨[], c, rfl, h, rfl⟩

/-- The keys that a fetch leaves in the client, or its exception. -/
def keysOf : Except Exc Unit × (JWKSClient κ × σ) → Except Exc (List κ)
  | (.error e, _) => .error e
  | (.ok (), w) => .ok w.1.keys

/-- From the request for the keys on. -/
theorem runs_fetching (hclock : ∀ url s, v.monotonic s ≤ v.monotonic (v.get url s).2)
    {w w' : JWKSClient κ × σ} {jwksUri : Value} (hfound : v.jwksUri w = (.ok jwksUri, w'))
    (hclient : c.client = w'.1) (hnow : c.now = v.monotonic w'.2)
    (ht : c.task t = .fetching force jwksUri) :
    v.Runs c t force (keysOf (v.fetchKeys w)) (v.fetchKeys w).2.1 := by
  have htick : c.now ≤ v.monotonic (v.get jwksUri w'.2).2 := by
    rw [hnow]
    exact hclock jwksUri w'.2
  have ht' : ({ c with now := v.monotonic (v.get jwksUri w'.2).2 } : KeysState κ).task t =
      .fetching force jwksUri := ht
  apply Runs.cons (KeysState.step_tick htick)
  apply Runs.cons (KeysState.step_respond_fetching ht' (v.get jwksUri w'.2).1)
  rw [fetchKeys_of_ok hfound, ← hclient]
  unfold KeysState.fetched
  cases fetchedKeys v.pyJwk jwksUri (v.get jwksUri w'.2).1 with
  | ok keys => exact runs_nil (by simp [KeysState.setTask, KeysState.endOf, keysOf])
  | error e => exact runs_nil (by simp [KeysState.raise, KeysState.setTask, KeysState.endOf, keysOf])

/-- From the request of the discovery document on. -/
theorem runs_discovering (hclock : ∀ url s, v.monotonic s ≤ v.monotonic (v.get url s).2)
    (hnow : c.now = v.monotonic s) (hunknown : c.client.jwksUri = none)
    (ht : c.task t = .discovering force) :
    v.Runs c t force (keysOf (v.fetchKeys (c.client, s))) (v.fetchKeys (c.client, s)).2.1 := by
  have htick : c.now ≤ v.monotonic (v.discovery s).2 := by
    rw [hnow]
    exact hclock _ s
  have ht' : ({ c with now := v.monotonic (v.discovery s).2 } : KeysState κ).task t =
      .discovering force := ht
  apply Runs.cons (KeysState.step_tick htick)
  apply Runs.cons (KeysState.step_respond_discovering ht' (v.discovery s).1)
  have huri := jwksUri_of_unknown (v := v) (w := (c.client, s)) hunknown
  have hissuer : stripSlashes v.config.issuer = v.issuer := rfl
  unfold KeysState.discovered
  rw [hissuer]
  cases hdiscovered : discoveredUri v.issuer (v.discovery s).1 with
  | error e =>
    rw [hdiscovered] at huri
    rw [fetchKeys_of_error huri]
    exact runs_nil (by simp [KeysState.raise, KeysState.setTask, KeysState.endOf, keysOf])
  | ok jwksUri =>
    rw [hdiscovered] at huri
    exact runs_fetching hclock huri rfl rfl (by simp [KeysState.setTask])

/-- From the first request of `_fetch_keys` on. -/
theorem runs_fetch (hclock : ∀ url s, v.monotonic s ≤ v.monotonic (v.get url s).2)
    (hnow : c.now = v.monotonic s) (ht : c.task t = c.firstRequest force) :
    v.Runs c t force (keysOf (v.fetchKeys (c.client, s))) (v.fetchKeys (c.client, s)).2.1 := by
  cases hknown : c.client.jwksUri with
  | some jwksUri =>
    have hfetching : c.task t = .fetching force jwksUri := by
      rw [ht, KeysState.firstRequest, hknown]
    exact runs_fetching hclock (jwksUri_of_known hknown) rfl hnow hfetching
  | none =>
    have hdiscovering : c.task t = .discovering force := by
      rw [ht, KeysState.firstRequest, hknown]
    exact runs_discovering hclock hnow hknown hdiscovering

/-- A call of `get_signing_keys` that runs alone, with the lock free, is a run of the machine to
the same result and the same client. -/
theorem getSigningKeys_runs (hclock : ∀ url s, v.monotonic s ≤ v.monotonic (v.get url s).2)
    (hnow : c.now = v.monotonic s) (ht : (c.task t).pending = false) (hfree : c.lock.free) :
    v.Runs c t force (v.getSigningKeys force (c.client, s)).1
      (v.getSigningKeys force (c.client, s)).2.1 := by
  apply Runs.cons (KeysState.step_call ht)
  by_cases hcached : v.UsesCache force (c.client, s)
  · have hserves : c.serves v.config force := by
      simpa [KeysState.serves, hnow, UsesCache] using hcached
    rw [getSigningKeys_of_cached hcached, KeysState.start, if_pos hserves]
    exact runs_nil (by simp [KeysState.setTask, KeysState.endOf])
  · have hserves : c.serves v.config force = false := by
      simpa [KeysState.serves, hnow, UsesCache] using hcached
    have hfirst : ((c.setLock (c.lock.hold t)).setTask t (c.firstRequest force)).task t =
        c.firstRequest force := by simp [KeysState.setTask]
    have hruns := runs_fetch hclock (c := (c.setLock (c.lock.hold t)).setTask t
      (c.firstRequest force)) hnow hfirst
    rw [getSigningKeys_of_fetch hcached, KeysState.start_of_free hserves hfree]
    cases hfetch : v.fetchKeys (c.client, s) with
    | mk result w =>
      cases result <;> simpa [KeysState.setTask, KeysState.setLock, hfetch, keysOf] using hruns

end JWTValidator

end McpZero.Identity
