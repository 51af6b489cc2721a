import McpZero.Transport.Stages

/-! What a step leaves alone: the places of the other tasks, the keys of transports, the
requests of owners; and a task keeps its `get_session` until it starts another call. -/
namespace McpZero.Transport
open Lib

/-- The `get_session` that a task is in or has ended. -/
def Task.getSession? : Task → Option GetSession
  | .waiting g _ _ => some g
  | .clearing g _ _ _ => some g
  | .connecting g _ _ _ => some g
  | .failing g _ _ _ _ => some g
  | .returned g _ => some g
  | .raised g _ => some g
  | _ => none

namespace Pool

variable {configs : List ServerConfig} {s s' : Pool}

theorem Quiet.extends (h : s.Quiet s') : s.Extends s' where
  nextTransport := h.nextTransport.ge
  nextOwner := h.nextOwner.ge
  key tr _ := h.key tr
  owner o _ := ⟨(h.owner o).1, (h.owner o).2.1⟩

/-- A part of a step that the task `t` runs. -/
structure Advances (t : TaskId) (s s' : Pool) : Prop where
  extend : s.Extends s'
  others (t' : TaskId) : t' ≠ t → s'.task t' = s.task t'

namespace Advances

variable {t : TaskId}

theorem trans {s'' : Pool} (h : Advances t s s') (k : Advances t s' s'') : Advances t s s'' where
  extend := h.extend.trans k.extend
  others t' hne := (k.others t' hne).trans (h.others t' hne)

theorem of_quiet (h : s.Quiet s') : Advances t s s' where
  extend := h.extends
  others t' _ := by rw [h.task]

theorem setTask (x : Task) : Advances t s (s.setTask t x) where
  extend := ⟨le_rfl, le_rfl, fun _ _ => rfl, fun _ _ => ⟨rfl, rfl⟩⟩
  others t' hne := by simp [Function.update_of_ne hne]

theorem setLock (l : LockId) (x : AsyncLock TaskId) : Advances t s (s.setLock l x) :=
  ⟨⟨le_rfl, le_rfl, fun _ _ => rfl, fun _ _ => ⟨rfl, rfl⟩⟩, fun _ _ => rfl⟩

theorem takeOut (key : SessionKey) : Advances t s (s.takeOut key) :=
  ⟨⟨le_rfl, le_rfl, fun _ _ => rfl, fun _ _ => ⟨rfl, rfl⟩⟩, fun _ _ => rfl⟩

theorem setTransport {tr : TransportId} {x : MCPTransport} (hkey : x.key = (s.transport tr).key) :
    Advances t s (s.setTransport tr x) :=
  ⟨extends_setTransport hkey, fun _ _ => rfl⟩

theorem finishGet (g : GetSession) (l : LockId) (tr : TransportId) :
    Advances t s (s.finishGet t g l tr) :=
  (setLock l _).trans (setTask _)

theorem abortConnect (g : GetSession) (l : LockId) (tr : TransportId) (e : ConnectError) :
    Advances t s (s.abortConnect t g l tr e) :=
  have herror : Advances t s (s.setTransport tr { s.transport tr with state := .error }) :=
    setTransport rfl
  herror.trans ((setLock l _).trans (setTask _))

theorem finishDisconnect (tr : TransportId) : Advances t s (s.finishDisconnect tr) :=
  setTransport rfl

theorem beginConnect (g : GetSession) (l : LockId) (tr : TransportId) :
    Advances t s (s.beginConnect t g l tr) := by
  unfold Pool.beginConnect
  split
  · have hstate : Advances t s (s.setTransport tr { s.transport tr with state := .connecting }) :=
      setTransport rfl
    exact hstate.trans ((setLock l _).trans (setTask _))
  · have hspawn : ∀ (s : Pool) (x : Owner), Advances t s (s.spawnOwner x) := fun s x =>
      ⟨extends_spawnOwner, fun _ _ => rfl⟩
    have hbegun : Advances t s (s.setTransport tr { s.transport tr with
        state := .connecting, bgTask := some s.nextOwner }) := setTransport rfl
    exact hbegun.trans ((hspawn _ _).trans (setTask _))

theorem cleanupBgTask {tr : TransportId} {finish : Pool → Pool} {wait : OwnerId → Task}
    (hfinish : ∀ s' : Pool, Advances t s' (finish s')) :
    Advances t s (s.cleanupBgTask t tr finish wait) := by
  obtain ⟨s', hq, heq | ⟨o, heq⟩⟩ := s.cleanupBgTask_quiet t tr finish wait
  · rw [heq]
    exact (of_quiet hq).trans (hfinish s')
  · rw [heq]
    exact (of_quiet hq).trans (setTask _)

theorem enter (g : GetSession) (config : ServerConfig) (l : LockId) :
    Advances t s (s.enter t g config l) := by
  have hconnect : ∀ (s : Pool) (tr : TransportId), Advances t s (s.connectOrReturn t g l tr) := by
    intro s tr
    unfold connectOrReturn
    split
    · exact finishGet g l tr
    · exact cleanupBgTask fun s' => beginConnect g l tr
  unfold Pool.enter transportOf
  cases s.find? g.key with
  | some tr => exact hconnect s tr
  | none =>
    have hcreate : Advances t s (s.create g.key config) := ⟨extends_create, fun _ _ => rfl⟩
    exact hcreate.trans (hconnect _ _)

theorem closeKeys (all : Bool) (keys : List SessionKey) :
    Advances t s (closeKeys t all keys s) := by
  induction keys generalizing s with
  | nil => exact setTask _
  | cons key rest ih =>
    unfold Pool.closeKeys
    cases s.find? key with
    | none => exact (takeOut key).trans ih
    | some tr =>
      dsimp only
      split
      · have hdisc : Advances t s ((s.takeOut key).setTransport tr
            { s.transport tr with state := .disconnecting }) :=
          (takeOut key).trans (setTransport rfl)
        exact hdisc.trans (cleanupBgTask fun s' => (finishDisconnect tr).trans ih)
      · exact (takeOut key).trans ih

theorem startGet (g : GetSession) : Advances t s (s.startGet configs t g) := by
  rcases startGet_cases configs s t g with
    ⟨e, -, heq⟩ | ⟨s₀, l, config, hlock, -, hfree⟩
  · rw [heq]
    exact setTask _
  · have h₀ : Advances t s s₀ := by
      unfold Pool.lockOf at hlock
      split at hlock <;> cases hlock
      · exact of_quiet .refl
      · exact ⟨⟨le_rfl, le_rfl, fun _ _ => rfl, fun _ _ => ⟨rfl, rfl⟩⟩, fun _ _ => rfl⟩
    rcases hfree with ⟨-, heq⟩ | ⟨-, heq⟩
    · rw [heq]
      exact h₀.trans ((setLock l _).trans (enter g config l))
    · rw [heq]
      exact h₀.trans ((setLock l _).trans (setTask _))

theorem resumes (hr : s.Resumes t s') : Advances t s s' := by
  cases hr with
  | waiting => exact (setLock _ _).trans (enter _ _ _)
  | clearing => exact (of_quiet (s.quiet_clearBgTask _)).trans (beginConnect _ _ _)
  | connected => exact finishGet _ _ _
  | failed => exact cleanupBgTask fun s' => abortConnect _ _ _ _
  | failing => exact (of_quiet (s.quiet_clearBgTask _)).trans (abortConnect _ _ _ _)
  | closing =>
    exact (of_quiet (s.quiet_clearBgTask _)).trans ((finishDisconnect _).trans (closeKeys _ _))

end Advances

/-- A step extends the pool, and moves no task but its own. -/
theorem extends_of_step {a : PoolAction} (hst : step configs s a = some s') : s.Extends s' := by
  cases steps_of_step hst with
  | getSession => exact (Advances.startGet _).extend
  | disconnect => exact (Advances.closeKeys _ _).extend
  | disconnectAll => exact (Advances.closeKeys _ _).extend
  | resume hr => exact (Advances.resumes hr).extend
  | @ownerConnects o =>
    have hready : s.Extends (s.setOwner o { s.owner o with
        ready := true, phase := if (s.owner o).stopRequested then .closing else .serving }) :=
      extends_setOwner rfl rfl
    exact hready.trans (extends_setTransport rfl)
  | @ownerFails o =>
    have herror : s.Extends (s.setTransport (s.owner o).transport {
        s.transport (s.owner o).transport with state := .error, session := none }) :=
      extends_setTransport rfl
    exact herror.trans (extends_setOwner rfl rfl)
  | @ownerEnds o =>
    have hdropped : s.Extends (s.setTransport (s.owner o).transport {
        s.transport (s.owner o).transport with session := none }) := extends_setTransport rfl
    exact hdropped.trans (extends_setOwner rfl rfl)
  | ownerCloses => exact extends_setOwner rfl rfl

theorem task_of_step {a : PoolAction} (hst : step configs s a = some s') {t : TaskId}
    (ht : a.task? ≠ some t) : s'.task t = s.task t := by
  have hne : ∀ {t' : TaskId}, a.task? = some t' → t ≠ t' := by
    intro t' ha heq
    rw [ha, heq] at ht
    exact ht rfl
  cases steps_of_step hst with
  | getSession => exact (Advances.startGet _).others t (hne rfl)
  | disconnect => exact (Advances.closeKeys _ _).others t (hne rfl)
  | disconnectAll => exact (Advances.closeKeys _ _).others t (hne rfl)
  | resume hr => exact (Advances.resumes hr).others t (hne rfl)
  | _ => rfl

theorem finishGet_getSession? (t : TaskId) (g : GetSession) (l : LockId) (tr : TransportId) :
    ((s.finishGet t g l tr).task t).getSession? = some g := by
  unfold finishGet
  simp only [setTask_task, Function.update_self]
  split <;> rfl

theorem beginConnect_getSession? (t : TaskId) (g : GetSession) (l : LockId) (tr : TransportId) :
    ((s.beginConnect t g l tr).task t).getSession? = some g := by
  unfold beginConnect
  split
  · simp [refuseConnect, Task.getSession?]
  · simp [spawnConnect, Task.getSession?]

theorem enter_getSession? (t : TaskId) (g : GetSession) (config : ServerConfig) (l : LockId) :
    ((s.enter t g config l).task t).getSession? = some g := by
  unfold enter connectOrReturn
  dsimp only
  split
  · exact finishGet_getSession? t g l _
  · refine cleanupBgTask_task (P := fun x => x.getSession? = some g) (fun s' => ?_) fun o => rfl
    exact beginConnect_getSession? t g l _

theorem startGet_getSession? (t : TaskId) (g : GetSession) :
    ((s.startGet configs t g).task t).getSession? = some g := by
  rcases startGet_cases configs s t g with
    ⟨e, -, heq⟩ | ⟨s₀, l, config, -, -, ⟨-, heq⟩ | ⟨-, heq⟩⟩
  · rw [heq]
    simp [Task.getSession?]
  · rw [heq]
    exact enter_getSession? t g config l
  · rw [heq]
    simp [Task.getSession?]

theorem getSession?_of_getSession {t : TaskId} {g : GetSession}
    (hst : step configs s (.getSession t g) = some s') :
    (s'.task t).getSession? = some g := by
  simp only [step] at hst
  split at hst <;> cases hst
  exact startGet_getSession? t g

/-- A task that goes on is still in its `get_session`, or has ended it. -/
theorem getSession?_of_resumes {t : TaskId} {g : GetSession} (hr : s.Resumes t s')
    (hg : (s.task t).getSession? = some g) : (s'.task t).getSession? = some g := by
  cases hr with
  | waiting ht =>
    rw [ht] at hg
    cases hg
    exact enter_getSession? t g _ _
  | clearing ht =>
    rw [ht] at hg
    cases hg
    exact beginConnect_getSession? t g _ _
  | connected ht =>
    rw [ht] at hg
    cases hg
    exact finishGet_getSession? t g _ _
  | failed ht =>
    rw [ht] at hg
    cases hg
    refine cleanupBgTask_task (P := fun x => x.getSession? = some g) (fun s' => ?_) fun o => rfl
    simp [abortConnect, Task.getSession?]
  | failing ht =>
    rw [ht] at hg
    cases hg
    simp [abortConnect, Task.getSession?]
  | closing ht =>
    rw [ht] at hg
    cases hg

/-- A task keeps its `get_session` until it starts another call. -/
theorem getSession?_of_step {a : PoolAction} {t : TaskId} {g : GetSession}
    (hst : step configs s a = some s') (ha : a.starts ≠ some t)
    (hg : (s.task t).getSession? = some g) : (s'.task t).getSession? = some g := by
  by_cases ht : a.task? = some t
  · cases steps_of_step hst with
    | resume hr =>
      cases ht
      exact getSession?_of_resumes hr hg
    | getSession => exact absurd ht ha
    | disconnect => exact absurd ht ha
    | disconnectAll => exact absurd ht ha
    | _ => cases ht
  · rw [task_of_step hst ht]
    exact hg

end Pool

end McpZero.Transport
