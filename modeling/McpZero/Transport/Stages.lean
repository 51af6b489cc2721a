import McpZero.Transport.Links

/-! Connecting: a transport in the state `CONNECTING` has an owner that connects it, and a task
waits for that owner. -/
namespace McpZero.Transport
open Lib

namespace Pool

variable {configs : List ServerConfig} {s s' : Pool}

/-- Two pools that differ in stop requests and background tasks only. -/
structure Quiet (s s' : Pool) : Prop where
  find? (key : SessionKey) : s'.find? key = s.find? key
  locks : s'.locks = s.locks
  lock : s'.lock = s.lock
  task : s'.task = s.task
  nextLock : s'.nextLock = s.nextLock
  nextTransport : s'.nextTransport = s.nextTransport
  nextOwner : s'.nextOwner = s.nextOwner
  key (tr : TransportId) : (s'.transport tr).key = (s.transport tr).key
  config (tr : TransportId) : (s'.transport tr).config = (s.transport tr).config
  state (tr : TransportId) : (s'.transport tr).state = (s.transport tr).state
  session (tr : TransportId) : (s'.transport tr).session = (s.transport tr).session
  owner (o : OwnerId) : (s'.owner o).transport = (s.owner o).transport ∧
    (s'.owner o).request = (s.owner o).request ∧ (s'.owner o).phase = (s.owner o).phase ∧
    (s'.owner o).ready = (s.owner o).ready ∧ (s'.owner o).error = (s.owner o).error

theorem Quiet.refl : s.Quiet s :=
  ⟨fun _ => rfl, rfl, rfl, rfl, rfl, rfl, rfl, fun _ => rfl, fun _ => rfl, fun _ => rfl,
    fun _ => rfl, fun _ => ⟨rfl, rfl, rfl, rfl, rfl⟩⟩

theorem Quiet.trans {s'' : Pool} (h : s.Quiet s') (k : s'.Quiet s'') : s.Quiet s'' where
  find? key := (k.find? key).trans (h.find? key)
  locks := k.locks.trans h.locks
  lock := k.lock.trans h.lock
  task := k.task.trans h.task
  nextLock := k.nextLock.trans h.nextLock
  nextTransport := k.nextTransport.trans h.nextTransport
  nextOwner := k.nextOwner.trans h.nextOwner
  key tr := (k.key tr).trans (h.key tr)
  config tr := (k.config tr).trans (h.config tr)
  state tr := (k.state tr).trans (h.state tr)
  session tr := (k.session tr).trans (h.session tr)
  owner o := by
    obtain ⟨htr, hreq, hphase, hready, herror⟩ := h.owner o
    obtain ⟨ktr, kreq, kphase, kready, kerror⟩ := k.owner o
    exact ⟨ktr.trans htr, kreq.trans hreq, kphase.trans hphase, kready.trans hready,
      kerror.trans herror⟩

theorem quiet_requestStop (s : Pool) (o : OwnerId) : s.Quiet (s.requestStop o) := by
  refine ⟨fun _ => rfl, rfl, rfl, rfl, rfl, rfl, rfl, fun _ => rfl, fun _ => rfl, fun _ => rfl,
    fun _ => rfl, fun o' => ?_⟩
  by_cases ho : o' = o
  · subst ho
    simp [requestStop]
  · simp [requestStop, Function.update_of_ne ho]

theorem quiet_clearBgTask (s : Pool) (tr : TransportId) : s.Quiet (s.clearBgTask tr) := by
  have hother : ∀ {α : Type} (f : MCPTransport → α),
      (∀ x : MCPTransport, f { x with bgTask := none } = f x) →
        ∀ tr', f ((s.clearBgTask tr).transport tr') = f (s.transport tr') := by
    intro α f hf tr'
    by_cases htr : tr' = tr
    · subst htr
      simpa [clearBgTask] using hf _
    · simp [clearBgTask, Function.update_of_ne htr]
  exact ⟨fun _ => rfl, rfl, rfl, rfl, rfl, rfl, rfl, hother _ fun _ => rfl, hother _ fun _ => rfl,
    hother _ fun _ => rfl, hother _ fun _ => rfl, fun _ => ⟨rfl, rfl, rfl, rfl, rfl⟩⟩

/-- `_cleanup_bg_task` changes little before it goes on or waits. -/
theorem cleanupBgTask_quiet (s : Pool) (t : TaskId) (tr : TransportId) (finish : Pool → Pool)
    (wait : OwnerId → Task) :
    ∃ s', s.Quiet s' ∧ (s.cleanupBgTask t tr finish wait = finish s' ∨
      ∃ o, s.cleanupBgTask t tr finish wait = s'.setTask t (wait o)) := by
  rcases s.cleanupBgTask_cases t tr finish wait with
    ⟨-, heq⟩ | ⟨o, -, ⟨-, heq⟩ | ⟨-, heq⟩⟩
  · exact ⟨s, .refl, .inl heq⟩
  · exact ⟨_, (s.quiet_requestStop o).trans ((s.requestStop o).quiet_clearBgTask tr), .inl heq⟩
  · exact ⟨_, s.quiet_requestStop o, .inr ⟨o, heq⟩⟩

theorem cleanupBgTask_task {P : Task → Prop} {t : TaskId} {tr : TransportId}
    {finish : Pool → Pool} {wait : OwnerId → Task} (hfinish : ∀ s' : Pool, P ((finish s').task t))
    (hwait : ∀ o, P (wait o)) : P ((s.cleanupBgTask t tr finish wait).task t) := by
  obtain ⟨s', -, heq | ⟨o, heq⟩⟩ := s.cleanupBgTask_quiet t tr finish wait
  · rw [heq]
    exact hfinish s'
  · rw [heq]
    simpa using hwait o

structure Staged (s : Pool) : Prop where
  state (tr : TransportId) : (s.transport tr).state = .connecting →
    (∃ o, (s.owner o).phase = .connecting ∧ (s.owner o).transport = tr) ∨
      (s.transport tr).config.refused
  owner (o : OwnerId) : (s.owner o).phase = .connecting →
    ∃ t g l, s.task t = .connecting g l (s.owner o).transport o
  ready (o : OwnerId) : (s.owner o).phase = .connecting → (s.owner o).ready = false

/-- The task `t` is not the one that waits for a connecting owner. -/
def NotConnecting (s : Pool) (t : TaskId) : Prop :=
  ∀ g l tr o, s.task t = .connecting g l tr o → (s.owner o).phase ≠ .connecting

theorem NotConnecting.quiet {t : TaskId} (h : s.NotConnecting t) (hq : s.Quiet s') :
    s'.NotConnecting t := by
  intro g l tr o ht
  rw [hq.task] at ht
  rw [(hq.owner o).2.2.1]
  exact h g l tr o ht

theorem notConnecting_of_not_pending {t : TaskId} (h : ¬ (s.task t).pending) :
    s.NotConnecting t := by
  intro g l tr o ht
  rw [ht] at h
  exact absurd rfl h

/-- Owners that are not done have been created. -/
def AllocatesOwners (s : Pool) : Prop := ∀ o, (s.owner o).phase ≠ .done → o < s.nextOwner

theorem AllocatesOwners.quiet (h : s.AllocatesOwners) (hq : s.Quiet s') : s'.AllocatesOwners := by
  intro o hphase
  rw [(hq.owner o).2.2.1] at hphase
  rw [hq.nextOwner]
  exact h o hphase

namespace Staged

theorem quiet (h : s.Staged) (hq : s.Quiet s') : s'.Staged where
  state tr hstate := by
    rw [hq.state] at hstate
    rcases h.state tr hstate with ⟨o, hphase, htr⟩ | hrefused
    · obtain ⟨htr', -, hphase', -⟩ := hq.owner o
      exact .inl ⟨o, hphase'.trans hphase, htr'.trans htr⟩
    · exact .inr (by rwa [hq.config])
  owner o hphase := by
    obtain ⟨htr', -, hphase', -⟩ := hq.owner o
    rw [hphase'] at hphase
    rw [hq.task, htr']
    exact h.owner o hphase
  ready o hphase := by
    obtain ⟨-, -, hphase', hready', -⟩ := hq.owner o
    rw [hphase'] at hphase
    exact hready'.trans (h.ready o hphase)

theorem setTask (h : s.Staged) {t : TaskId} (ht : s.NotConnecting t) (x : Task) :
    (s.setTask t x).Staged where
  state := h.state
  owner o hphase := by
    obtain ⟨t', g, l, ht'⟩ := h.owner o hphase
    have hne : t' ≠ t := by
      intro heq
      subst heq
      exact ht g l _ o ht' hphase
    exact ⟨t', g, l, by simpa [Function.update_of_ne hne] using ht'⟩
  ready := h.ready

theorem setLock (h : s.Staged) (l : LockId) (x : AsyncLock TaskId) : (s.setLock l x).Staged :=
  ⟨h.state, h.owner, h.ready⟩

theorem takeOut (h : s.Staged) (key : SessionKey) : (s.takeOut key).Staged :=
  ⟨h.state, h.owner, h.ready⟩

theorem setTransport (h : s.Staged) (tr : TransportId) {x : MCPTransport}
    (hx : x.state = .connecting →
      (s.transport tr).state = .connecting ∧ x.config = (s.transport tr).config) :
    (s.setTransport tr x).Staged where
  state tr' hstate := by
    by_cases htr : tr' = tr
    · subst htr
      obtain ⟨hold, hconfig⟩ := hx (by simpa using hstate)
      simpa [hconfig] using h.state tr' hold
    · simpa [Function.update_of_ne htr] using
        h.state tr' (by simpa [Function.update_of_ne htr] using hstate)
  owner := h.owner
  ready := h.ready

theorem finishGet (h : s.Staged) {t : TaskId} (ht : s.NotConnecting t) (g : GetSession)
    (l : LockId) (tr : TransportId) : (s.finishGet t g l tr).Staged :=
  (h.setLock l _).setTask ht _

theorem abortConnect (h : s.Staged) {t : TaskId} (ht : s.NotConnecting t) (g : GetSession)
    (l : LockId) (tr : TransportId) (e : ConnectError) : (s.abortConnect t g l tr e).Staged :=
  ((h.setTransport tr (by simp)).setLock l _).setTask ht _

theorem finishDisconnect (h : s.Staged) (tr : TransportId) : (s.finishDisconnect tr).Staged :=
  h.setTransport tr (by simp)

/-- A `connect` that is refused leaves a transport of which that is known. -/
theorem refuseConnect (h : s.Staged) {t : TaskId} (ht : s.NotConnecting t) (g : GetSession)
    (l : LockId) {tr : TransportId} (hrefused : (s.transport tr).config.refused) :
    (s.refuseConnect t g l tr).Staged := by
  have hset : (s.setTransport tr { s.transport tr with state := .connecting }).Staged := by
    refine ⟨fun tr' hstate => ?_, h.owner, h.ready⟩
    by_cases htr : tr' = tr
    · subst htr
      exact .inr (by simpa using hrefused)
    · simpa [Function.update_of_ne htr] using
        h.state tr' (by simpa [Function.update_of_ne htr] using hstate)
  exact (hset.setLock l _).setTask ht _

/-- A task that begins to connect becomes the one that waits for the new owner. -/
theorem spawnConnect (h : s.Staged) {t : TaskId} (ht : s.NotConnecting t) (g : GetSession)
    (l : LockId) (tr : TransportId) (hfresh : s.AllocatesOwners) :
    (s.spawnConnect t g l tr).Staged where
  state tr' hstate := by
    by_cases htr : tr' = tr
    · subst htr
      exact .inl ⟨s.nextOwner, by simp [Pool.spawnConnect], by simp [Pool.spawnConnect]⟩
    · have hold : (s.transport tr').state = .connecting := by
        simpa [Pool.spawnConnect, Function.update_of_ne htr] using hstate
      rcases h.state tr' hold with ⟨o, hphase, htr'⟩ | hrefused
      · have hne : o ≠ s.nextOwner := (hfresh o (by simp [hphase])).ne
        exact .inl ⟨o, by simpa [Pool.spawnConnect, Function.update_of_ne hne] using ⟨hphase, htr'⟩⟩
      · exact .inr (by simpa [Pool.spawnConnect, Function.update_of_ne htr] using hrefused)
  owner o hphase := by
    by_cases ho : o = s.nextOwner
    · subst ho
      exact ⟨t, g, l, by simp [Pool.spawnConnect]⟩
    · have hold : (s.owner o).phase = .connecting := by
        simpa [Pool.spawnConnect, Function.update_of_ne ho] using hphase
      obtain ⟨t', g', l', ht'⟩ := h.owner o hold
      have hne : t' ≠ t := by
        intro heq
        subst heq
        exact ht g' l' _ o ht' hold
      refine ⟨t', g', l', ?_⟩
      simpa [Pool.spawnConnect, Function.update_of_ne ho, Function.update_of_ne hne] using ht'
  ready o hphase := by
    by_cases ho : o = s.nextOwner
    · subst ho
      simp [Pool.spawnConnect]
    · have hold : (s.owner o).phase = .connecting := by
        simpa [Pool.spawnConnect, Function.update_of_ne ho] using hphase
      simpa [Pool.spawnConnect, Function.update_of_ne ho] using h.ready o hold

theorem beginConnect (h : s.Staged) {t : TaskId} (ht : s.NotConnecting t) (g : GetSession)
    (l : LockId) (tr : TransportId) (hfresh : s.AllocatesOwners) :
    (s.beginConnect t g l tr).Staged := by
  unfold Pool.beginConnect
  split
  · exact h.refuseConnect ht g l ‹_›
  · exact h.spawnConnect ht g l tr hfresh

theorem connecting_of_setOwner {o o' : OwnerId} {x : Owner} (hx : x.phase ≠ .connecting)
    (hphase : ((s.setOwner o x).owner o').phase = .connecting) :
    o' ≠ o ∧ (s.owner o').phase = .connecting := by
  have hne : o' ≠ o := by
    intro heq
    subst heq
    exact hx (by simpa using hphase)
  exact ⟨hne, by simpa [Function.update_of_ne hne] using hphase⟩

/-- An owner that was connecting and has become ready also changes the state of its
transport. -/
theorem settle (h : s.Staged) {o : OwnerId} {x : Owner} {y : MCPTransport}
    (hx : x.phase ≠ .connecting) (hy : y.state ≠ .connecting) :
    ((s.setOwner o x).setTransport (s.owner o).transport y).Staged where
  state tr hstate := by
    by_cases htr : tr = (s.owner o).transport
    · subst htr
      exact absurd (by simpa using hstate) hy
    · have hold : (s.transport tr).state = .connecting := by
        simpa [Function.update_of_ne htr] using hstate
      rcases h.state tr hold with ⟨o', hphase, htr'⟩ | hrefused
      · have hne : o' ≠ o := by
          intro heq
          subst heq
          exact htr htr'.symm
        exact .inl ⟨o', by simpa [Function.update_of_ne hne] using ⟨hphase, htr'⟩⟩
      · exact .inr (by simpa [Function.update_of_ne htr] using hrefused)
  owner o' hphase := by
    obtain ⟨hne, hold⟩ := connecting_of_setOwner hx hphase
    simpa [Function.update_of_ne hne] using h.owner o' hold
  ready o' hphase := by
    obtain ⟨hne, hold⟩ := connecting_of_setOwner hx hphase
    simpa [Function.update_of_ne hne] using h.ready o' hold

/-- An owner that is past connecting may change, as long as it does not connect again. -/
theorem setOwner (h : s.Staged) {o : OwnerId} {x : Owner} (ho : (s.owner o).phase ≠ .connecting)
    (hx : x.phase ≠ .connecting) : (s.setOwner o x).Staged where
  state tr hstate := by
    refine (h.state tr hstate).imp_left fun howner => ?_
    obtain ⟨o', hphase, htr⟩ := howner
    have hne : o' ≠ o := by
      intro heq
      subst heq
      exact ho hphase
    exact ⟨o', by simpa [Function.update_of_ne hne] using ⟨hphase, htr⟩⟩
  owner o' hphase := by
    obtain ⟨hne, hold⟩ := connecting_of_setOwner hx hphase
    simpa [Function.update_of_ne hne] using h.owner o' hold
  ready o' hphase := by
    obtain ⟨hne, hold⟩ := connecting_of_setOwner hx hphase
    simpa [Function.update_of_ne hne] using h.ready o' hold

theorem cleanupBgTask (h : s.Staged) {t : TaskId} (ht : s.NotConnecting t) {tr : TransportId}
    {finish : Pool → Pool} {wait : OwnerId → Task}
    (hfinish : ∀ s' : Pool, s'.Staged → s'.NotConnecting t → s.Quiet s' → (finish s').Staged) :
    (s.cleanupBgTask t tr finish wait).Staged := by
  obtain ⟨s', hq, heq | ⟨o, heq⟩⟩ := s.cleanupBgTask_quiet t tr finish wait
  · rw [heq]
    exact hfinish s' (h.quiet hq) (ht.quiet hq) hq
  · rw [heq]
    exact (h.quiet hq).setTask (ht.quiet hq) _

theorem connectOrReturn (h : s.Staged) {t : TaskId} (ht : s.NotConnecting t) (g : GetSession)
    (l : LockId) (tr : TransportId) (hfresh : s.AllocatesOwners) :
    (s.connectOrReturn t g l tr).Staged := by
  unfold Pool.connectOrReturn
  split
  · exact h.finishGet ht g l tr
  · exact h.cleanupBgTask ht fun s' h' ht' hq => h'.beginConnect ht' g l tr (hfresh.quiet hq)

theorem enter (h : s.Staged) {t : TaskId} (ht : s.NotConnecting t) (g : GetSession)
    (config : ServerConfig) (l : LockId) (hfresh : s.AllocatesOwners) :
    (s.enter t g config l).Staged := by
  unfold Pool.enter transportOf
  cases s.find? g.key with
  | some tr => exact h.connectOrReturn ht g l tr hfresh
  | none =>
    have hnew : (s.create g.key config).Staged := by
      have hset := h.setTransport s.nextTransport (x := { key := g.key, config := config })
        (by simp)
      exact ⟨hset.state, hset.owner, hset.ready⟩
    exact hnew.connectOrReturn ht g l _ hfresh

theorem closeKeys (h : s.Staged) {t : TaskId} (ht : s.NotConnecting t) (all : Bool)
    (keys : List SessionKey) : (closeKeys t all keys s).Staged := by
  induction keys generalizing s with
  | nil => exact h.setTask ht _
  | cons key rest ih =>
    unfold Pool.closeKeys
    cases s.find? key with
    | none => exact ih (h.takeOut key) ht
    | some tr =>
      dsimp only
      split
      · have hdisc := (h.takeOut key).setTransport tr
          (x := { s.transport tr with state := .disconnecting }) (by simp)
        exact hdisc.cleanupBgTask ht fun s' h' ht' _ => ih (h'.finishDisconnect tr) ht'
      · exact ih (h.takeOut key) ht

theorem lockOf (h : s.Staged) {t : TaskId} (ht : s.NotConnecting t)
    (hfresh : s.AllocatesOwners) {key : SessionKey} {s₀ : Pool} {l : LockId}
    (hlock : s.lockOf key = (s₀, l)) : s₀.Staged ∧ s₀.NotConnecting t ∧ s₀.AllocatesOwners := by
  unfold Pool.lockOf at hlock
  split at hlock <;> cases hlock
  · exact ⟨h, ht, hfresh⟩
  · exact ⟨⟨h.state, h.owner, h.ready⟩, ht, hfresh⟩

theorem startGet (h : s.Staged) {t : TaskId} (ht : s.NotConnecting t) (g : GetSession)
    (hfresh : s.AllocatesOwners) : (s.startGet configs t g).Staged := by
  rcases startGet_cases configs s t g with
    ⟨e, -, heq⟩ | ⟨s₀, l, config, hlock, -, hfree⟩
  · rw [heq]
    exact h.setTask ht _
  · obtain ⟨h₀, ht₀, hfresh₀⟩ := h.lockOf ht hfresh hlock
    rcases hfree with ⟨-, heq⟩ | ⟨-, heq⟩
    · rw [heq]
      exact (h₀.setLock l _).enter ht₀ g config l hfresh₀
    · rw [heq]
      exact (h₀.setLock l _).setTask ht₀ _

theorem notConnecting_of_resumes (h : s.Staged) {t : TaskId} (hr : s.Resumes t s') :
    s.NotConnecting t := by
  intro g l tr o ht hphase
  cases hr with
  | connected ht' hready =>
    obtain ⟨-, -, -, rfl⟩ := Task.connecting.inj (ht'.symm.trans ht)
    rw [h.ready _ hphase] at hready
    cases hready
  | failed ht' hready =>
    obtain ⟨-, -, -, rfl⟩ := Task.connecting.inj (ht'.symm.trans ht)
    rw [h.ready _ hphase] at hready
    cases hready
  | waiting ht' => cases ht'.symm.trans ht
  | clearing ht' => cases ht'.symm.trans ht
  | failing ht' => cases ht'.symm.trans ht
  | closing ht' => cases ht'.symm.trans ht

theorem resumes (h : s.Staged) {t : TaskId} (hr : s.Resumes t s') (hfresh : s.AllocatesOwners) :
    s'.Staged := by
  have ht := h.notConnecting_of_resumes hr
  cases hr with
  | @waiting g config l => exact (h.setLock l _).enter ht g config l hfresh
  | @clearing g l tr =>
    have hq := s.quiet_clearBgTask tr
    exact (h.quiet hq).beginConnect (ht.quiet hq) g l tr hfresh
  | @connected g l tr => exact h.finishGet ht g l tr
  | @failed g l tr o e => exact h.cleanupBgTask ht fun s' h' ht' _ => h'.abortConnect ht' g l tr e
  | @failing g l tr o e =>
    have hq := s.quiet_clearBgTask tr
    exact (h.quiet hq).abortConnect (ht.quiet hq) g l tr e
  | @closing all tr o rest =>
    have hq := s.quiet_clearBgTask tr
    have ht' : (s.clearBgTask tr).NotConnecting t := ht.quiet hq
    exact ((h.quiet hq).finishDisconnect tr).closeKeys ht' all rest

theorem step {a : PoolAction} (h : s.Staged) (hfresh : s.AllocatesOwners)
    (hst : step configs s a = some s') : s'.Staged := by
  cases steps_of_step hst with
  | getSession g ht => exact h.startGet (notConnecting_of_not_pending ht) g hfresh
  | disconnect serverName ht => exact h.closeKeys (notConnecting_of_not_pending ht) _ _
  | disconnectAll ht => exact h.closeKeys (notConnecting_of_not_pending ht) _ _
  | resume hr => exact h.resumes hr hfresh
  | @ownerConnects o hphase =>
    refine h.settle ?_ (by simp)
    cases (s.owner o).stopRequested <;> simp
  | ownerFails e hphase => exact h.settle (by simp) (by simp)
  | @ownerEnds o hphase =>
    have hdropped := h.setTransport (s.owner o).transport
      (x := { s.transport (s.owner o).transport with session := none }) fun hold => ⟨hold, rfl⟩
    exact hdropped.setOwner (by simp [hphase]) (by simp)
  | ownerCloses hphase => exact h.setOwner (by simp [hphase]) (by simp)

end Staged

theorem staged_empty : ({} : Pool).Staged where
  state tr h := by cases h
  owner o h := by cases h
  ready o h := by cases h

end Pool

end McpZero.Transport
