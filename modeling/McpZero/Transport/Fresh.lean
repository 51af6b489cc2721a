import McpZero.Transport.Frame

/-! Transports that are newer than some moment. A step puts no transport into the pool that was
created before it, except those that are there; and a `disconnect` leaves only newer ones. -/
namespace McpZero.Transport
open Lib

/-- The transport that a task works on, or has got a session of. -/
def Pool.workedOn (s : Pool) : Task → Option TransportId
  | .clearing _ _ tr _ => some tr
  | .connecting _ _ tr _ => some tr
  | .failing _ _ tr _ _ => some tr
  | .returned _ o => some (s.owner o).transport
  | _ => none

/-- The keys that a `disconnect` has still to take out. -/
def Task.keysLeft : Task → List SessionKey
  | .closing _ _ _ rest => rest
  | _ => []

namespace Pool

variable {configs : List ServerConfig} {s s' : Pool}

/-- What is in the pool afterwards was in it before, or is new. -/
structure Renews (s s' : Pool) : Prop where
  nextTransport : s.nextTransport ≤ s'.nextTransport
  find? (key : SessionKey) (tr : TransportId) : s'.find? key = some tr →
    s.find? key = some tr ∨ s.nextTransport ≤ tr

namespace Renews

theorem of_eq (hnext : s'.nextTransport = s.nextTransport)
    (hfind : ∀ key, s'.find? key = s.find? key) : s.Renews s' where
  nextTransport := hnext.ge
  find? key tr h := .inl (by rw [← hfind, h])

theorem refl : s.Renews s := of_eq rfl fun _ => rfl

theorem trans {s'' : Pool} (h : s.Renews s') (k : s'.Renews s'') : s.Renews s'' where
  nextTransport := h.nextTransport.trans k.nextTransport
  find? key tr hfind := by
    rcases k.find? key tr hfind with hold | hnew
    · exact h.find? key tr hold
    · exact .inr (h.nextTransport.trans hnew)

theorem of_quiet (h : s.Quiet s') : s.Renews s' := of_eq h.nextTransport h.find?

theorem takeOut (key : SessionKey) : s.Renews (s.takeOut key) where
  nextTransport := le_rfl
  find? key' tr h := by
    rw [find?_takeOut] at h
    split at h
    · cases h
    · exact .inl h

theorem create (key : SessionKey) (config : ServerConfig) : s.Renews (s.create key config) where
  nextTransport := Nat.le_succ _
  find? key' tr h := by
    rw [find?_create] at h
    split at h
    · cases h
      exact .inr le_rfl
    · exact .inl h

theorem finishGet (t : TaskId) (g : GetSession) (l : LockId) (tr : TransportId) :
    s.Renews (s.finishGet t g l tr) := of_eq rfl fun _ => rfl

theorem beginConnect (t : TaskId) (g : GetSession) (l : LockId) (tr : TransportId) :
    s.Renews (s.beginConnect t g l tr) := by
  unfold Pool.beginConnect
  split
  · exact of_eq rfl fun _ => rfl
  · exact of_eq rfl fun _ => rfl

theorem abortConnect (t : TaskId) (g : GetSession) (l : LockId) (tr : TransportId)
    (e : ConnectError) : s.Renews (s.abortConnect t g l tr e) := of_eq rfl fun _ => rfl

theorem cleanupBgTask {t : TaskId} {tr : TransportId} {finish : Pool → Pool} {wait : OwnerId → Task}
    (hfinish : ∀ s' : Pool, s'.Renews (finish s')) : s.Renews (s.cleanupBgTask t tr finish wait) := by
  obtain ⟨s', hq, heq | ⟨o, heq⟩⟩ := s.cleanupBgTask_quiet t tr finish wait
  · rw [heq]
    exact (of_quiet hq).trans (hfinish s')
  · rw [heq]
    have hset : s'.Renews (s'.setTask t (wait o)) := of_eq rfl fun _ => rfl
    exact (of_quiet hq).trans hset

theorem connectOrReturn (t : TaskId) (g : GetSession) (l : LockId) (tr : TransportId) :
    s.Renews (s.connectOrReturn t g l tr) := by
  unfold Pool.connectOrReturn
  split
  · exact finishGet t g l tr
  · exact cleanupBgTask fun s' => beginConnect t g l tr

theorem enter (t : TaskId) (g : GetSession) (config : ServerConfig) (l : LockId) :
    s.Renews (s.enter t g config l) := by
  unfold Pool.enter transportOf
  cases s.find? g.key with
  | some tr => exact connectOrReturn t g l tr
  | none => exact (create g.key config).trans (connectOrReturn t g l _)

theorem closeKeys (t : TaskId) (all : Bool) (keys : List SessionKey) :
    s.Renews (closeKeys t all keys s) := by
  induction keys generalizing s with
  | nil => exact of_eq rfl fun _ => rfl
  | cons key rest ih =>
    unfold Pool.closeKeys
    cases s.find? key with
    | none => exact (takeOut key).trans ih
    | some tr =>
      dsimp only
      split
      · have hstate : (s.takeOut key).Renews ((s.takeOut key).setTransport tr
            { s.transport tr with state := .disconnecting }) := of_eq rfl fun _ => rfl
        have hfinish : ∀ s' : Pool, s'.Renews (s'.finishDisconnect tr) :=
          fun s' => of_eq rfl fun _ => rfl
        exact (takeOut key).trans (hstate.trans (cleanupBgTask fun s' => (hfinish s').trans ih))
      · exact (takeOut key).trans ih

theorem lockOf {key : SessionKey} {s₀ : Pool} {l : LockId} (hlock : s.lockOf key = (s₀, l)) :
    s.Renews s₀ := by
  unfold Pool.lockOf at hlock
  split at hlock <;> cases hlock
  · exact .refl
  · exact of_eq rfl fun _ => rfl

theorem startGet (t : TaskId) (g : GetSession) : s.Renews (s.startGet configs t g) := by
  rcases startGet_cases configs s t g with
    ⟨e, -, heq⟩ | ⟨s₀, l, config, hlock, -, ⟨-, heq⟩ | ⟨-, heq⟩⟩
  · rw [heq]
    exact of_eq rfl fun _ => rfl
  · have hheld : s₀.Renews (s₀.setLock l ((s₀.lock l).hold t)) := of_eq rfl fun _ => rfl
    rw [heq]
    exact (lockOf hlock).trans (hheld.trans (enter t g config l))
  · have hwaits : s₀.Renews ((s₀.setLock l ((s₀.lock l).wait t)).setTask t
        (.waiting g config l)) := of_eq rfl fun _ => rfl
    rw [heq]
    exact (lockOf hlock).trans hwaits

theorem resumes {t : TaskId} (hr : s.Resumes t s') : s.Renews s' := by
  have hclear : ∀ tr, s.Renews (s.clearBgTask tr) := fun tr => of_eq rfl fun _ => rfl
  cases hr with
  | @waiting g config l =>
    have hturn : s.Renews (s.setLock l ((s.lock l).takeTurn t)) := of_eq rfl fun _ => rfl
    exact hturn.trans (enter t g config l)
  | @clearing g l tr => exact (hclear tr).trans (beginConnect t g l tr)
  | @connected g l tr => exact finishGet t g l tr
  | @failed g l tr o e => exact cleanupBgTask fun s' => abortConnect t g l tr e
  | @failing g l tr o e => exact (hclear tr).trans (abortConnect t g l tr e)
  | @closing all tr o rest =>
    have hfinish : (s.clearBgTask tr).Renews ((s.clearBgTask tr).finishDisconnect tr) :=
      of_eq rfl fun _ => rfl
    exact (hclear tr).trans (hfinish.trans (closeKeys t all rest))

end Renews

theorem renews_of_step {a : PoolAction} (hst : step configs s a = some s') : s.Renews s' := by
  cases steps_of_step hst with
  | @getSession t g => exact .startGet t g
  | @disconnect t => exact .closeKeys t _ _
  | @disconnectAll t => exact .closeKeys t _ _
  | resume hr => exact .resumes hr
  | _ => exact .of_eq rfl fun _ => rfl

/-- The transports for the server are newer than `n`, those under `rest` apart. -/
structure NewerExcept (n : TransportId) (serverName : String) (rest : List SessionKey)
    (s : Pool) : Prop where
  nextTransport : n ≤ s.nextTransport
  find? (key : SessionKey) (tr : TransportId) : key.serverName = serverName →
    s.find? key = some tr → n ≤ tr ∨ key ∈ rest

theorem NewerExcept.renews {n : TransportId} {serverName : String} {rest : List SessionKey}
    (h : s.NewerExcept n serverName rest) (hr : s.Renews s') :
    s'.NewerExcept n serverName rest where
  nextTransport := h.nextTransport.trans hr.nextTransport
  find? key tr hkey hfind := by
    rcases hr.find? key tr hfind with hold | hnew
    · exact h.find? key tr hkey hold
    · exact .inl (h.nextTransport.trans hnew)

theorem NewerExcept.takeOut {n : TransportId} {serverName : String} {key : SessionKey}
    {rest : List SessionKey} (h : s.NewerExcept n serverName (key :: rest)) :
    (s.takeOut key).NewerExcept n serverName rest where
  nextTransport := h.nextTransport
  find? key' tr hkey hfind := by
    rw [find?_takeOut] at hfind
    split at hfind
    · cases hfind
    · refine (h.find? key' tr hkey hfind).imp_right fun hmem => ?_
      exact (List.mem_cons.mp hmem).resolve_left ‹_›

/-- The task `t` sees newer transports only: the pool holds no other for the server once its
`disconnect` is through, and the one it works on is newer. -/
structure SeesNewer (n : TransportId) (serverName : String) (t : TaskId) (s : Pool) : Prop where
  pool : s.NewerExcept n serverName (s.task t).keysLeft
  worksOn (tr : TransportId) : s.workedOn (s.task t) = some tr → n ≤ tr

/-- A task that closes transports is in no `get_session`. -/
theorem closeKeys_getSession? (t : TaskId) (all : Bool) (keys : List SessionKey) :
    ((closeKeys t all keys s).task t).getSession? = none := by
  induction keys generalizing s with
  | nil => simp [closeKeys, Task.getSession?]
  | cons key rest ih =>
    unfold closeKeys
    cases s.find? key with
    | none => exact ih
    | some tr =>
      dsimp only
      split
      · exact cleanupBgTask_task (P := fun x => x.getSession? = none) (fun s' => ih) fun o => rfl
      · exact ih

theorem getSession?_of_disconnect {t : TaskId} {serverName : String}
    (hst : step configs s (.disconnect t serverName) = some s') :
    (s'.task t).getSession? = none := by
  simp only [step] at hst
  split at hst <;> cases hst
  exact closeKeys_getSession? t false _

theorem not_getSession?_of_step {a : PoolAction} {t : TaskId}
    (hst : step configs s a = some s') (ha : a.starts ≠ some t)
    (hg : (s.task t).getSession? = none) : (s'.task t).getSession? = none := by
  by_cases ht : a.task? = some t
  · cases steps_of_step hst with
    | resume hr =>
      cases ht
      cases hr with
      | closing => exact closeKeys_getSession? t _ _
      | waiting htask => rw [htask] at hg; cases hg
      | clearing htask => rw [htask] at hg; cases hg
      | connected htask => rw [htask] at hg; cases hg
      | failed htask => rw [htask] at hg; cases hg
      | failing htask => rw [htask] at hg; cases hg
    | getSession => exact absurd ht ha
    | disconnect => exact absurd ht ha
    | disconnectAll => exact absurd ht ha
    | _ => cases ht
  · rw [task_of_step hst ht]
    exact hg

namespace SeesNewer

variable {n : TransportId} {serverName : String} {t : TaskId} {Q : GetSession → Prop}

/-- A task that comes to a place where it has no keys left to take out. -/
theorem of_task {task : Task} (h : s.NewerExcept n serverName []) (hkeys : task.keysLeft = [])
    (htask : s.task t = task) (hworks : ∀ tr, s.workedOn task = some tr → n ≤ tr) :
    s.SeesNewer n serverName t where
  pool := by
    rw [htask, hkeys]
    exact h
  worksOn tr := by
    rw [htask]
    exact hworks tr

theorem finishGet (h : s.NewerExcept n serverName []) (g : GetSession) (l : LockId)
    {tr : TransportId} (hsession : ∀ o, (s.transport tr).session = some o →
      (s.owner o).transport = tr) (htr : n ≤ tr) :
    (s.finishGet t g l tr).SeesNewer n serverName t := by
  have hpool := h.renews (Renews.finishGet t g l tr)
  cases hactive : (s.transport tr).activeSession with
  | none =>
    have htask : (s.finishGet t g l tr).task t = .raised g .closed := by
      simp [Pool.finishGet, hactive]
    exact of_task hpool rfl htask fun tr' hworks => by cases hworks
  | some o =>
    have htask : (s.finishGet t g l tr).task t = .returned g o := by
      simp [Pool.finishGet, hactive]
    have howner := hsession o (MCPTransport.activeSession_eq_some.mp hactive).2
    refine of_task hpool rfl htask fun tr' hworks => ?_
    obtain rfl : (s.owner o).transport = tr' := Option.some.inj hworks
    rw [howner]
    exact htr

theorem beginConnect (h : s.NewerExcept n serverName []) (g : GetSession) (l : LockId)
    {tr : TransportId} (htr : n ≤ tr) : (s.beginConnect t g l tr).SeesNewer n serverName t := by
  have hpool := h.renews (Renews.beginConnect t g l tr)
  by_cases hrefused : (s.transport tr).config.refused
  · have htask : (s.beginConnect t g l tr).task t = .raised g .parameters := by
      simp [Pool.beginConnect, hrefused, refuseConnect]
    exact of_task hpool rfl htask fun tr' hworks => by cases hworks
  · have htask : (s.beginConnect t g l tr).task t = .connecting g l tr s.nextOwner := by
      simp [Pool.beginConnect, hrefused, spawnConnect]
    refine of_task hpool rfl htask fun tr' hworks => ?_
    obtain rfl : tr = tr' := Option.some.inj hworks
    exact htr

theorem abortConnect (h : s.NewerExcept n serverName []) (g : GetSession) (l : LockId)
    (tr : TransportId) (e : ConnectError) :
    (s.abortConnect t g l tr e).SeesNewer n serverName t := by
  have htask : (s.abortConnect t g l tr e).task t = .raised g (.connect e) := by
    simp [Pool.abortConnect]
  exact of_task (h.renews (Renews.abortConnect t g l tr e)) rfl htask fun tr' hworks => by
    cases hworks

theorem cleanupBgTask {rest : List SessionKey} (h : s.NewerExcept n serverName rest)
    {tr : TransportId} {finish : Pool → Pool} {wait : OwnerId → Task}
    (hfinish : ∀ s' : Pool, s'.NewerExcept n serverName rest →
      (finish s').SeesNewer n serverName t)
    (hkeys : ∀ o, (wait o).keysLeft = rest)
    (hwait : ∀ s' : Pool, ∀ o tr', s'.workedOn (wait o) = some tr' → n ≤ tr') :
    (s.cleanupBgTask t tr finish wait).SeesNewer n serverName t := by
  obtain ⟨s', hq, heq | ⟨o, heq⟩⟩ := s.cleanupBgTask_quiet t tr finish wait
  · rw [heq]
    exact hfinish s' (h.renews (.of_quiet hq))
  · have hset : s'.Renews (s'.setTask t (wait o)) := .of_eq rfl fun _ => rfl
    have htask : (s'.setTask t (wait o)).task t = wait o := by simp
    rw [heq]
    refine ⟨?_, fun tr' => ?_⟩
    · rw [htask, hkeys]
      exact (h.renews (.of_quiet hq)).renews hset
    · rw [htask]
      exact hwait _ o tr'

theorem connectOrReturn (h : s.NewerExcept n serverName []) (g : GetSession) (l : LockId)
    {tr : TransportId} (hsession : ∀ o, (s.transport tr).session = some o →
      (s.owner o).transport = tr) (htr : n ≤ tr) :
    (s.connectOrReturn t g l tr).SeesNewer n serverName t := by
  unfold Pool.connectOrReturn
  split
  · exact finishGet h g l hsession htr
  · refine cleanupBgTask h (fun s' h' => beginConnect h' g l htr) (fun _ => rfl) ?_
    intro s' o tr' hworks
    obtain rfl : tr = tr' := Option.some.inj hworks
    exact htr

theorem enter (h : s.NewerExcept n serverName []) (hlinked : s.Linked configs Q) {g : GetSession}
    (hg : g.serverName = serverName) (config : ServerConfig) (l : LockId) :
    (s.enter t g config l).SeesNewer n serverName t := by
  have hsession : ∀ tr o, (s.transport tr).session = some o → (s.owner o).transport = tr :=
    fun tr o hs => (hlinked.session tr o hs).1
  unfold Pool.enter transportOf
  cases hfind : s.find? g.key with
  | some tr =>
    have htr : n ≤ tr := (h.find? g.key tr hg hfind).resolve_right List.not_mem_nil
    exact connectOrReturn h g l (hsession tr) htr
  | none =>
    refine connectOrReturn (h.renews (Renews.create g.key config)) g l (fun o hs => ?_)
      h.nextTransport
    simp at hs

theorem closeKeys (all : Bool) (keys : List SessionKey) (h : s.NewerExcept n serverName keys) :
    (closeKeys t all keys s).SeesNewer n serverName t := by
  induction keys generalizing s with
  | nil =>
    have hset : s.Renews (s.setTask t (.closed all)) := .of_eq rfl fun _ => rfl
    have htask : (s.setTask t (.closed all)).task t = .closed all := by simp
    exact of_task (h.renews hset) rfl htask fun tr' hworks => by cases hworks
  | cons key rest ih =>
    unfold Pool.closeKeys
    cases s.find? key with
    | none => exact ih h.takeOut
    | some tr =>
      dsimp only
      split
      · have hstate : (s.takeOut key).Renews ((s.takeOut key).setTransport tr
            { s.transport tr with state := .disconnecting }) := .of_eq rfl fun _ => rfl
        refine cleanupBgTask (h.takeOut.renews hstate) (fun s' h' => ?_) (fun _ => rfl) ?_
        · have hfinish : s'.Renews (s'.finishDisconnect tr) := .of_eq rfl fun _ => rfl
          exact ih (h'.renews hfinish)
        · intro s' o tr' hworks
          cases hworks
      · exact ih h.takeOut

/-- A `disconnect` of the server begins with all of its keys. -/
theorem disconnect (hst : step configs s (.disconnect t serverName) = some s')
    (hn : n ≤ s.nextTransport) : s'.SeesNewer n serverName t := by
  simp only [step] at hst
  split at hst <;> cases hst
  refine closeKeys false _ ⟨hn, fun key tr hkey hfind => .inr ?_⟩
  have hmem : key ∈ s.transports.keys := by
    rw [← AList.mem_keys, ← AList.lookup_isSome]
    unfold Pool.find? at hfind
    rw [hfind]
    rfl
  simp [Pool.keys, hmem, hkey]

theorem getSession {g : GetSession} (hst : step configs s (.getSession t g) = some s')
    (h : s.NewerExcept n serverName []) (hlinked : s.Linked configs Q)
    (hg : g.serverName = serverName) : s'.SeesNewer n serverName t := by
  simp only [step] at hst
  split at hst <;> cases hst
  rcases startGet_cases configs s t g with
    ⟨e, -, heq⟩ | ⟨s₀, l, config, hlock, -, hfree⟩
  · have hset : s.Renews (s.setTask t (.raised g .routing)) := .of_eq rfl fun _ => rfl
    have htask : (s.setTask t (.raised g .routing)).task t = .raised g .routing := by simp
    rw [heq]
    exact of_task (h.renews hset) rfl htask fun tr' hworks => by cases hworks
  · have h₀ := h.renews (.lockOf hlock)
    have hlinked₀ : s₀.Linked configs Q := hlinked.lockOf hlock
    rcases hfree with ⟨-, heq⟩ | ⟨-, heq⟩
    · have hheld : s₀.Renews (s₀.setLock l ((s₀.lock l).hold t)) := .of_eq rfl fun _ => rfl
      rw [heq]
      exact enter (h₀.renews hheld) (hlinked₀.setLock l _) hg config l
    · have hwaits : s₀.Renews ((s₀.setLock l ((s₀.lock l).wait t)).setTask t
          (.waiting g config l)) := .of_eq rfl fun _ => rfl
      have htask : ((s₀.setLock l ((s₀.lock l).wait t)).setTask t (.waiting g config l)).task t =
          .waiting g config l := by simp
      rw [heq]
      exact of_task (h₀.renews hwaits) rfl htask fun tr' hworks => by cases hworks

theorem resumes (h : s.SeesNewer n serverName t) (hlinked : s.Linked configs Q)
    (hr : s.Resumes t s')
    (hg : ∀ g, (s.task t).getSession? = some g → g.serverName = serverName) :
    s'.SeesNewer n serverName t := by
  obtain ⟨hpool, hworks⟩ := h
  have hclear : ∀ tr, s.Renews (s.clearBgTask tr) := fun tr => .of_eq rfl fun _ => rfl
  cases hr with
  | @waiting g config l ht =>
    rw [ht] at hpool hg
    have hturn : s.Renews (s.setLock l ((s.lock l).takeTurn t)) := .of_eq rfl fun _ => rfl
    exact enter (hpool.renews hturn) (hlinked.setLock l _) (hg g rfl) config l
  | @clearing g l tr o ht =>
    rw [ht] at hpool hworks
    exact beginConnect (hpool.renews (hclear tr)) g l (hworks tr rfl)
  | @connected g l tr o ht =>
    rw [ht] at hpool hworks
    exact finishGet hpool g l (fun o hs => (hlinked.session tr o hs).1) (hworks tr rfl)
  | @failed g l tr o e ht =>
    rw [ht] at hpool hworks
    refine cleanupBgTask hpool (fun s' h' => abortConnect h' g l tr e) (fun _ => rfl) ?_
    intro s' o' tr' hw
    obtain rfl : tr = tr' := Option.some.inj hw
    exact hworks tr rfl
  | @failing g l tr o e ht =>
    rw [ht] at hpool
    exact abortConnect (hpool.renews (hclear tr)) g l tr e
  | @closing all tr o rest ht =>
    rw [ht] at hpool
    have hfinish : (s.clearBgTask tr).Renews ((s.clearBgTask tr).finishDisconnect tr) :=
      .of_eq rfl fun _ => rfl
    exact closeKeys all rest ((hpool.renews (hclear tr)).renews hfinish)

/-- The steps of others, and of the task itself until it begins another call. -/
theorem step {a : PoolAction} (h : s.SeesNewer n serverName t) (hlinked : s.Linked configs Q)
    (hst : step configs s a = some s') (ha : a.starts ≠ some t)
    (hg : ∀ g, (s.task t).getSession? = some g → g.serverName = serverName) :
    s'.SeesNewer n serverName t := by
  by_cases ht : a.task? = some t
  · cases steps_of_step hst with
    | resume hr =>
      cases ht
      exact h.resumes hlinked hr hg
    | getSession => exact absurd ht ha
    | disconnect => exact absurd ht ha
    | disconnectAll => exact absurd ht ha
    | _ => cases ht
  · have htask := task_of_step hst ht
    have hext := extends_of_step hst
    refine ⟨?_, fun tr hworks => h.worksOn tr ?_⟩
    · rw [htask]
      exact h.pool.renews (renews_of_step hst)
    · rw [htask] at hworks
      have hlinked := hlinked.task t
      generalize s.task t = task at hworks hlinked ⊢
      cases task with
      | returned g o =>
        obtain ⟨howner, -⟩ := hext.owner o hlinked.1
        exact (congrArg some howner).symm.trans hworks
      | _ => exact hworks

end SeesNewer

end Pool

end McpZero.Transport
