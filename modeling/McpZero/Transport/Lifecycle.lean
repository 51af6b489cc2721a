import McpZero.Transport.Pool

/-! The lifecycle of transports: when a connected transport has a session, and what a
`get_session` does on the transport that it finds. -/
namespace McpZero.Transport
open Lib

namespace Pool

variable {configs : List ServerConfig} {s s' : Pool}

/-- A transport whose state is `CONNECTED` has a session. -/
def Healthy (s : Pool) : Prop :=
  ∀ tr, (s.transport tr).state = .connected → (s.transport tr).session.isSome

/-- A healthy step. A `get_session` that skips `connect` returns a session, and one that finds
a transport without a session connects it, as far as its parameters are accepted. -/
structure KeepsLifecycle (configs : List ServerConfig) (s : Pool) (a : PoolAction) (s' : Pool) :
    Prop where
  healthy : s'.Healthy
  returns {t : TaskId} {g : GetSession} {tr : TransportId} :
    s.entering configs a = some (t, g) → s.find? g.key = some tr →
      (s.transport tr).state = .connected → ∃ o, s'.task t = .returned g o
  reconnects {t : TaskId} {g : GetSession} {tr : TransportId} :
    s.entering configs a = some (t, g) → s.find? g.key = some tr →
      (s.transport tr).session = none →
        (∃ l o, s'.task t = .clearing g l tr o ∨ s'.task t = .connecting g l tr o) ∨
          (s.transport tr).config.refused ∧ s'.task t = .raised g .parameters

/-- The steps that leave no connected transport behind without its owner: an owner ends only
after the state of its transport has changed, and is not asked to stop before it connects. -/
def OwnerOutlivesState (s : Pool) : PoolAction → Prop
  | .ownerEnds o => (s.transport (s.owner o).transport).state ≠ .connected
  | .ownerConnects o => (s.owner o).stopRequested = false
  | _ => True

theorem Healthy.congr (h : s.Healthy) (htr : s'.transport = s.transport) : s'.Healthy := by
  intro tr
  rw [htr]
  exact h tr

theorem healthy_setTransport (h : s.Healthy) (tr : TransportId) (x : MCPTransport) :
    (s.setTransport tr x).Healthy ↔ (x.state = .connected → x.session.isSome) := by
  constructor
  · intro k
    simpa using k tr
  · intro hx tr'
    by_cases htr : tr' = tr
    · subst htr
      simpa using hx
    · simpa [Function.update_of_ne htr] using h tr'

theorem lockOf_transport {key : SessionKey} {s₀ : Pool} {l : LockId}
    (h : s.lockOf key = (s₀, l)) : s₀.transport = s.transport := by
  unfold lockOf at h
  split at h <;> cases h <;> rfl

theorem lockOf_find? {key : SessionKey} {s₀ : Pool} {l : LockId}
    (h : s.lockOf key = (s₀, l)) (key' : SessionKey) : s₀.find? key' = s.find? key' := by
  unfold lockOf at h
  split at h <;> cases h <;> rfl

namespace Healthy

theorem clearBgTask (h : s.Healthy) (tr : TransportId) : (s.clearBgTask tr).Healthy :=
  (healthy_setTransport h _ _).mpr (h tr)

theorem finishGet (h : s.Healthy) (t : TaskId) (g : GetSession) (l : LockId)
    (tr : TransportId) : (s.finishGet t g l tr).Healthy :=
  h

theorem cleanupBgTask (h : s.Healthy) (t : TaskId) (tr : TransportId) {finish : Pool → Pool}
    {wait : OwnerId → Task} (hfinish : ∀ {s : Pool}, s.Healthy → (finish s).Healthy) :
    (s.cleanupBgTask t tr finish wait).Healthy := by
  rcases s.cleanupBgTask_cases t tr finish wait with
    ⟨-, heq⟩ | ⟨o, -, ⟨-, heq⟩ | ⟨-, heq⟩⟩
  · rw [heq]
    exact hfinish h
  · rw [heq]
    exact hfinish (clearBgTask (s := s.requestStop o) h tr)
  · rw [heq]
    exact h

theorem beginConnect (h : s.Healthy) (t : TaskId) (g : GetSession) (l : LockId)
    (tr : TransportId) : (s.beginConnect t g l tr).Healthy := by
  unfold Pool.beginConnect
  split
  · exact (healthy_setTransport h _ _).mpr (by simp)
  · exact (healthy_setTransport h _ _).mpr (by simp)

theorem abortConnect (h : s.Healthy) (t : TaskId) (g : GetSession) (l : LockId)
    (tr : TransportId) (e : ConnectError) : (s.abortConnect t g l tr e).Healthy :=
  (healthy_setTransport h _ _).mpr (by simp)

theorem finishDisconnect (h : s.Healthy) (tr : TransportId) : (s.finishDisconnect tr).Healthy :=
  (healthy_setTransport h _ _).mpr (by simp)

theorem connectOrReturn (h : s.Healthy) (t : TaskId) (g : GetSession) (l : LockId)
    (tr : TransportId) : (s.connectOrReturn t g l tr).Healthy := by
  unfold Pool.connectOrReturn
  split
  · exact h.finishGet t g l tr
  · exact h.cleanupBgTask t tr fun h => h.beginConnect t g l tr

theorem transportOf (h : s.Healthy) (key : SessionKey) (config : ServerConfig) :
    (s.transportOf key config).1.Healthy := by
  unfold Pool.transportOf
  split
  · exact h
  · exact (healthy_setTransport h _ _).mpr (by simp)

theorem enter (h : s.Healthy) (t : TaskId) (g : GetSession) (config : ServerConfig)
    (l : LockId) : (s.enter t g config l).Healthy :=
  (h.transportOf g.key config).connectOrReturn t g l _

theorem closeKeys (t : TaskId) (all : Bool) (keys : List SessionKey) (h : s.Healthy) :
    (closeKeys t all keys s).Healthy := by
  induction keys generalizing s with
  | nil => exact h
  | cons key rest ih =>
    have hout : (s.takeOut key).Healthy := h
    unfold Pool.closeKeys
    dsimp only
    split
    · exact ih hout
    · split
      · refine cleanupBgTask ((healthy_setTransport hout _ _).mpr (by simp)) _ _ ?_
        exact fun h => ih (h.finishDisconnect _)
      · exact ih hout

theorem startGet (h : s.Healthy) (t : TaskId) (g : GetSession) :
    (s.startGet configs t g).Healthy := by
  rcases startGet_cases configs s t g with
    ⟨e, -, heq⟩ | ⟨s₀, l, config, hlock, -, ⟨-, heq⟩ | ⟨-, heq⟩⟩
  · rw [heq]
    exact h
  · have h₀ : s₀.Healthy := h.congr (lockOf_transport hlock)
    rw [heq]
    exact Healthy.enter (s := s₀.setLock _ _) h₀ _ _ _ _
  · have h₀ : s₀.Healthy := h.congr (lockOf_transport hlock)
    rw [heq]
    exact h₀

theorem resumes (h : s.Healthy) {t : TaskId} (hr : s.Resumes t s') : s'.Healthy := by
  cases hr with
  | waiting => exact enter (s := s.setLock _ _) h _ _ _ _
  | clearing => exact (h.clearBgTask _).beginConnect _ _ _ _
  | connected => exact h.finishGet _ _ _ _
  | failed => exact h.cleanupBgTask _ _ fun h => h.abortConnect _ _ _ _ _
  | failing => exact (h.clearBgTask _).abortConnect _ _ _ _ _
  | closing => exact closeKeys _ _ _ ((h.clearBgTask _).finishDisconnect _)

end Healthy

/-- One step from a healthy pool: health is lost exactly where an owner does not outlive the
state of its transport. -/
theorem step_healthy_iff {a : PoolAction} (h : s.Healthy) (hst : step configs s a = some s') :
    s'.Healthy ↔ s.OwnerOutlivesState a := by
  cases steps_of_step hst with
  | getSession g => exact iff_of_true (h.startGet _ g) trivial
  | disconnect serverName => exact iff_of_true (.closeKeys _ _ _ h) trivial
  | disconnectAll => exact iff_of_true (.closeKeys _ _ _ h) trivial
  | resume hr => exact iff_of_true (h.resumes hr) trivial
  | @ownerConnects o =>
    refine (healthy_setTransport h _ _).trans ?_
    cases hstop : (s.owner o).stopRequested <;> simp [OwnerOutlivesState, hstop]
  | ownerFails => exact iff_of_true ((healthy_setTransport h _ _).mpr (by simp)) trivial
  | ownerEnds =>
    refine (healthy_setTransport h _ _).trans ?_
    simp [OwnerOutlivesState]
  | ownerCloses => exact iff_of_true h trivial

/-- A `get_session` enters with its own lock, the pool otherwise as it was. -/
theorem exists_enter_of_entering {a : PoolAction} {t : TaskId} {g : GetSession}
    (he : s.entering configs a = some (t, g)) (hst : step configs s a = some s') :
    ∃ (s₀ : Pool) (config : ServerConfig) (l : LockId), s' = s₀.enter t g config l ∧
      (∀ key, s₀.find? key = s.find? key) ∧ s₀.transport = s.transport := by
  cases steps_of_step hst with
  | @getSession t' g' =>
    rcases startGet_cases configs s t' g' with
      ⟨e, hconfig, heq⟩ | ⟨s₀, l, config, hlock, hconfig, ⟨hfree, heq⟩ | ⟨hfree, heq⟩⟩
    · simp [entering, hconfig] at he
    · simp only [entering, hconfig, hlock, if_pos hfree, Option.some.injEq, Prod.mk.injEq] at he
      obtain ⟨rfl, rfl⟩ := he
      have hfind := lockOf_find? hlock
      have htr := lockOf_transport hlock
      exact ⟨_, config, l, heq, hfind, htr⟩
    · simp [entering, hconfig, hlock, hfree] at he
  | resume hr =>
    cases hr with
    | waiting htask hturn =>
      simp only [entering, htask, if_pos hturn, Option.some.injEq, Prod.mk.injEq] at he
      obtain ⟨rfl, rfl⟩ := he
      exact ⟨_, _, _, rfl, fun _ => rfl, rfl⟩
    | clearing htask => simp [entering, htask] at he
    | connected htask => simp [entering, htask] at he
    | failed htask => simp [entering, htask] at he
    | failing htask => simp [entering, htask] at he
    | closing htask => simp [entering, htask] at he
  | _ => cases he

theorem enter_task_of_connected {t : TaskId} {g : GetSession} {config : ServerConfig}
    {l : LockId} {tr : TransportId} (h : s.Healthy) (hlookup : s.find? g.key = some tr)
    (hstate : (s.transport tr).state = .connected) :
    ∃ o, (s.enter t g config l).task t = .returned g o := by
  obtain ⟨o, ho⟩ := Option.isSome_iff_exists.mp (h tr hstate)
  refine ⟨o, ?_⟩
  have hactive : (s.transport tr).activeSession = some o := by
    simp [MCPTransport.activeSession, hstate, ho]
  simp [enter, transportOf, hlookup, connectOrReturn, hstate, finishGet, hactive]

/-- A task that begins to connect waits for the new owner, unless its parameters are refused. -/
theorem beginConnect_task (s : Pool) (t : TaskId) (g : GetSession) (l : LockId)
    (tr : TransportId) : (s.beginConnect t g l tr).task t = .connecting g l tr s.nextOwner ∨
      (s.transport tr).config.refused ∧
        (s.beginConnect t g l tr).task t = .raised g .parameters := by
  unfold beginConnect
  split
  · exact .inr ⟨‹_›, by simp [refuseConnect]⟩
  · exact .inl (by simp [spawnConnect])

theorem enter_task_of_no_session {t : TaskId} {g : GetSession} {config : ServerConfig}
    {l : LockId} {tr : TransportId} (h : s.Healthy) (hlookup : s.find? g.key = some tr)
    (hsession : (s.transport tr).session = none) :
    (∃ o, (s.enter t g config l).task t = .clearing g l tr o ∨
      (s.enter t g config l).task t = .connecting g l tr o) ∨
      (s.transport tr).config.refused ∧
        (s.enter t g config l).task t = .raised g .parameters := by
  have hstate : (s.transport tr).state ≠ .connected := by
    intro hc
    have := h tr hc
    rw [hsession] at this
    cases this
  simp only [enter, transportOf, hlookup, connectOrReturn, if_neg hstate]
  rcases s.cleanupBgTask_cases t tr (·.beginConnect t g l tr) (.clearing g l tr) with
    ⟨-, heq⟩ | ⟨o, -, ⟨-, heq⟩ | ⟨-, heq⟩⟩
  · rw [heq]
    exact (beginConnect_task s t g l tr).imp_left fun htask => ⟨s.nextOwner, .inr htask⟩
  · have hconfig : (((s.requestStop o).clearBgTask tr).transport tr).config =
        (s.transport tr).config := by simp [clearBgTask, requestStop]
    have htask := beginConnect_task ((s.requestStop o).clearBgTask tr) t g l tr
    rw [hconfig] at htask
    rw [heq]
    exact htask.imp_left fun htask => ⟨_, .inr htask⟩
  · exact .inl ⟨o, .inl (by rw [heq]; simp)⟩

theorem keepsLifecycle_of_step {a : PoolAction} (h : s.Healthy)
    (hst : step configs s a = some s') (hgood : s.OwnerOutlivesState a) :
    KeepsLifecycle configs s a s' where
  healthy := (step_healthy_iff h hst).mpr hgood
  returns he hlookup hstate := by
    obtain ⟨s₀, config, l, rfl, hfind, htr⟩ := exists_enter_of_entering he hst
    rw [← hfind] at hlookup
    rw [← htr] at hstate
    exact enter_task_of_connected (h.congr htr) hlookup hstate
  reconnects he hlookup hsession := by
    obtain ⟨s₀, config, l, rfl, hfind, htr⟩ := exists_enter_of_entering he hst
    rw [← hfind] at hlookup
    rw [← htr] at hsession
    rw [← htr]
    rcases enter_task_of_no_session (h.congr htr) hlookup hsession with ⟨o, ho⟩ | hrefused
    · exact .inl ⟨l, o, ho⟩
    · exact .inr hrefused

theorem healthy_empty : ({} : Pool).Healthy := nofun

/-- A run keeps the lifecycle of all transports exactly when, in each of its steps, owners
outlive the connected state of their transports. -/
theorem lifecycle_iff (configs : List ServerConfig) (as : List PoolAction) :
    EachStep (step configs) (KeepsLifecycle configs) {} as ↔
      EachStep (step configs) (fun s a _ => s.OwnerOutlivesState a) {} as := by
  refine eachStep_iff healthy_empty ?_ ?_
  · intro s a s' h hst hkeeps
    exact ⟨hkeeps.healthy, (step_healthy_iff h hst).mp hkeeps.healthy⟩
  · intro s a s' h hst hgood
    have hkeeps := keepsLifecycle_of_step h hst hgood
    exact ⟨hkeeps.healthy, hkeeps⟩

def searchServer : ServerConfig := { name := .str "search", transport := .http }

def searchRequest : GetSession := { serverName := "search" }

/-- A `get_session` connects, the server closes the connection, and `get_session` is called
again. -/
def closedByServer : List PoolAction :=
  [.getSession 0 searchRequest, .ownerConnects 0, .resume 0, .ownerEnds 0, .ownerCloses 0,
    .getSession 1 searchRequest]

theorem closedByServer_not_keepsLifecycle :
    ¬ EachStep (step [searchServer]) (KeepsLifecycle [searchServer]) {} closedByServer ∧
      ∃ s, run (step [searchServer]) {} closedByServer = some s ∧
        s.task 1 = .raised searchRequest .closed := by
  refine ⟨fun h => ?_, _, rfl, rfl⟩
  obtain ⟨-, h⟩ := h _ rfl
  obtain ⟨-, h⟩ := h _ rfl
  obtain ⟨-, h⟩ := h _ rfl
  obtain ⟨hends, -⟩ := h _ rfl
  have hsession := hends.healthy 0 rfl
  cases hsession

end Pool

end McpZero.Transport
