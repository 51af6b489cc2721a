import McpZero.Transport.Lifecycle

/-! What refers to what in the pool: keys to transports, transports to configurations,
sessions and owners to transports, and tasks to both. These links hold in every run, also in
one that loses a transport from the pool. -/
namespace McpZero.Transport
open Lib

namespace Pool

variable {configs : List ServerConfig} {Q : GetSession → Prop} {s s' : Pool}

/-- The request `g` works on the transport `tr`. -/
def WorksOn (Q : GetSession → Prop) (s : Pool) (g : GetSession) (tr : TransportId) : Prop :=
  Q g ∧ tr < s.nextTransport ∧ (s.transport tr).key = g.key

/-- What a task refers to. -/
def TaskLinked (configs : List ServerConfig) (Q : GetSession → Prop) (s : Pool) : Task → Prop
  | .waiting g config _ => Q g ∧ getConfig configs g.serverName = .ok config
  | .clearing g _ tr _ => s.WorksOn Q g tr
  | .connecting g _ tr o =>
    s.WorksOn Q g tr ∧ o < s.nextOwner ∧ (s.owner o).transport = tr ∧ (s.owner o).request = g
  | .failing g _ tr _ _ => s.WorksOn Q g tr
  | .returned g o => o < s.nextOwner ∧ (s.owner o).request.key = g.key
  | _ => True

/-- The links of a pool whose requests satisfy `Q`. Only an owner that serves is named by a
session. -/
structure Linked (configs : List ServerConfig) (Q : GetSession → Prop) (s : Pool) : Prop where
  inPool (key : SessionKey) (tr : TransportId) : s.find? key = some tr →
    tr < s.nextTransport ∧ (s.transport tr).key = key
  config (tr : TransportId) : tr < s.nextTransport →
    getConfig configs (s.transport tr).key.serverName = .ok (s.transport tr).config
  session (tr : TransportId) (o : OwnerId) : (s.transport tr).session = some o →
    (s.owner o).transport = tr ∧ (s.owner o).phase = .serving
  owner (o : OwnerId) : o < s.nextOwner → s.WorksOn Q (s.owner o).request (s.owner o).transport
  allocated (o : OwnerId) : (s.owner o).phase ≠ .done → o < s.nextOwner
  task (t : TaskId) : TaskLinked configs Q s (s.task t)

/-- What no step takes back: transports keep their keys, owners their transports and
requests. -/
structure Extends (s s' : Pool) : Prop where
  nextTransport : s.nextTransport ≤ s'.nextTransport
  nextOwner : s.nextOwner ≤ s'.nextOwner
  key (tr : TransportId) : tr < s.nextTransport → (s'.transport tr).key = (s.transport tr).key
  owner (o : OwnerId) : o < s.nextOwner →
    (s'.owner o).transport = (s.owner o).transport ∧ (s'.owner o).request = (s.owner o).request

theorem Extends.refl : s.Extends s :=
  ⟨le_rfl, le_rfl, fun _ _ => rfl, fun _ _ => ⟨rfl, rfl⟩⟩

theorem Extends.trans {s'' : Pool} (h : s.Extends s') (k : s'.Extends s'') : s.Extends s'' where
  nextTransport := h.nextTransport.trans k.nextTransport
  nextOwner := h.nextOwner.trans k.nextOwner
  key tr hlt := (k.key tr (hlt.trans_le h.nextTransport)).trans (h.key tr hlt)
  owner o hlt := by
    obtain ⟨htr, hreq⟩ := h.owner o hlt
    obtain ⟨htr', hreq'⟩ := k.owner o (hlt.trans_le h.nextOwner)
    exact ⟨htr'.trans htr, hreq'.trans hreq⟩

theorem WorksOn.extend {g : GetSession} {tr : TransportId} (h : s.WorksOn Q g tr)
    (he : s.Extends s') : s'.WorksOn Q g tr := by
  obtain ⟨hQ, hlt, hkey⟩ := h
  exact ⟨hQ, hlt.trans_le he.nextTransport, (he.key tr hlt).trans hkey⟩

theorem TaskLinked.extend {x : Task} (h : TaskLinked configs Q s x) (he : s.Extends s') :
    TaskLinked configs Q s' x := by
  cases x with
  | waiting => exact h
  | clearing => exact WorksOn.extend h he
  | failing => exact WorksOn.extend h he
  | connecting g l tr o =>
    obtain ⟨hwork, hlt, htr, hreq⟩ := h
    obtain ⟨htr', hreq'⟩ := he.owner o hlt
    exact ⟨hwork.extend he, hlt.trans_le he.nextOwner, htr'.trans htr, hreq'.trans hreq⟩
  | returned g o =>
    obtain ⟨hlt, hkey⟩ := h
    exact ⟨hlt.trans_le he.nextOwner, by rw [(he.owner o hlt).2, hkey]⟩
  | _ => trivial

theorem extends_setTransport {tr : TransportId} {x : MCPTransport}
    (hkey : x.key = (s.transport tr).key) : s.Extends (s.setTransport tr x) where
  nextTransport := le_rfl
  nextOwner := le_rfl
  key tr' _ := by
    by_cases h : tr' = tr
    · subst h
      simpa using hkey
    · simp [Function.update_of_ne h]
  owner _ _ := ⟨rfl, rfl⟩

theorem extends_setOwner {o : OwnerId} {x : Owner} (htr : x.transport = (s.owner o).transport)
    (hreq : x.request = (s.owner o).request) : s.Extends (s.setOwner o x) where
  nextTransport := le_rfl
  nextOwner := le_rfl
  key _ _ := rfl
  owner o' _ := by
    by_cases h : o' = o
    · subst h
      simpa using ⟨htr, hreq⟩
    · simp [Function.update_of_ne h]

theorem extends_spawnOwner {x : Owner} : s.Extends (s.spawnOwner x) where
  nextTransport := le_rfl
  nextOwner := Nat.le_succ _
  key _ _ := rfl
  owner o hlt := by simp [Function.update_of_ne hlt.ne]

theorem extends_create {key : SessionKey} {config : ServerConfig} :
    s.Extends (s.create key config) where
  nextTransport := Nat.le_succ _
  nextOwner := le_rfl
  key tr hlt := by simp [Function.update_of_ne hlt.ne]
  owner _ _ := ⟨rfl, rfl⟩

namespace Linked

theorem setLock (h : s.Linked configs Q) (l : LockId) (x : AsyncLock TaskId) :
    (s.setLock l x).Linked configs Q :=
  ⟨h.inPool, h.config, h.session, h.owner, h.allocated, h.task⟩

theorem setTask (h : s.Linked configs Q) (t : TaskId) {x : Task}
    (hx : TaskLinked configs Q s x) : (s.setTask t x).Linked configs Q where
  inPool := h.inPool
  config := h.config
  session := h.session
  owner := h.owner
  allocated := h.allocated
  task t' := by
    have hother : TaskLinked configs Q s ((s.setTask t x).task t') := by
      by_cases ht : t' = t
      · subst ht
        simpa using hx
      · simpa [Function.update_of_ne ht] using h.task t'
    exact hother

/-- A transport may change in all but its key and its configuration. -/
theorem setTransport (h : s.Linked configs Q) (tr : TransportId) {x : MCPTransport}
    (hkey : x.key = (s.transport tr).key) (hconfig : x.config = (s.transport tr).config)
    (hsession : ∀ o, x.session = some o →
      (s.owner o).transport = tr ∧ (s.owner o).phase = .serving) :
    (s.setTransport tr x).Linked configs Q where
  inPool key tr' hlookup := by
    obtain ⟨hlt, hkey'⟩ := h.inPool key tr' hlookup
    exact ⟨hlt, ((extends_setTransport hkey).key tr' hlt).trans hkey'⟩
  config tr' hlt := by
    by_cases htr : tr' = tr
    · subst htr
      simpa [hkey, hconfig] using h.config tr' hlt
    · simpa [Function.update_of_ne htr] using h.config tr' hlt
  session tr' o := by
    by_cases htr : tr' = tr
    · subst htr
      simpa using hsession o
    · simpa [Function.update_of_ne htr] using h.session tr' o
  owner o hlt := (h.owner o hlt).extend (extends_setTransport hkey)
  allocated := h.allocated
  task t := (h.task t).extend (extends_setTransport hkey)

theorem clearBgTask (h : s.Linked configs Q) (tr : TransportId) :
    (s.clearBgTask tr).Linked configs Q :=
  h.setTransport tr rfl rfl (h.session tr)

theorem setState (h : s.Linked configs Q) (tr : TransportId) (state : TransportState) :
    (s.setTransport tr { s.transport tr with state := state }).Linked configs Q :=
  h.setTransport tr rfl rfl (h.session tr)

theorem dropSession (h : s.Linked configs Q) (tr : TransportId) (state : TransportState) :
    (s.setTransport tr { s.transport tr with session := none, state := state }).Linked
      configs Q :=
  h.setTransport tr rfl rfl (by simp)

/-- An owner may change in all but its transport and its request, as long as it serves when a
session names it. -/
theorem setOwner (h : s.Linked configs Q) (o : OwnerId) {x : Owner}
    (htr : x.transport = (s.owner o).transport) (hreq : x.request = (s.owner o).request)
    (hphase : (s.owner o).phase = .done → x.phase = .done)
    (hserves : ∀ tr, (s.transport tr).session = some o → x.phase = .serving) :
    (s.setOwner o x).Linked configs Q where
  inPool := h.inPool
  config := h.config
  session tr o' hs := by
    obtain ⟨htr', hphase'⟩ := h.session tr o' hs
    by_cases ho : o' = o
    · subst ho
      simpa [htr] using ⟨htr', hserves tr hs⟩
    · simpa [Function.update_of_ne ho] using ⟨htr', hphase'⟩
  owner o' hlt := by
    obtain ⟨htr', hreq'⟩ := (extends_setOwner htr hreq).owner o' hlt
    rw [htr', hreq']
    exact (h.owner o' hlt).extend (extends_setOwner htr hreq)
  allocated o' hne := by
    by_cases ho : o' = o
    · subst ho
      exact h.allocated o' fun hdone => hne (by simpa using hphase hdone)
    · exact h.allocated o' (by simpa [Function.update_of_ne ho] using hne)
  task t := (h.task t).extend (extends_setOwner htr hreq)

theorem requestStop (h : s.Linked configs Q) (o : OwnerId) : (s.requestStop o).Linked configs Q :=
  h.setOwner o rfl rfl id fun tr hs => (h.session tr o hs).2

theorem takeOut (h : s.Linked configs Q) (key : SessionKey) :
    (s.takeOut key).Linked configs Q where
  inPool key' tr hlookup := by
    rw [find?_takeOut] at hlookup
    split at hlookup
    · cases hlookup
    · exact h.inPool key' tr hlookup
  config := h.config
  session := h.session
  owner := h.owner
  allocated := h.allocated
  task := h.task

/-- A new owner may be added that works on an existing transport. -/
theorem spawnOwner (h : s.Linked configs Q) {x : Owner}
    (hwork : s.WorksOn Q x.request x.transport) : (s.spawnOwner x).Linked configs Q where
  inPool := h.inPool
  config := h.config
  session tr o hs := by
    obtain ⟨htr, hphase⟩ := h.session tr o hs
    have hlt : o < s.nextOwner := h.allocated o (by simp [hphase])
    simpa [Function.update_of_ne hlt.ne] using ⟨htr, hphase⟩
  owner o hlt := by
    by_cases ho : o = s.nextOwner
    · subst ho
      simpa using hwork.extend extends_spawnOwner
    · have hlt' : o < s.nextOwner := lt_of_le_of_ne (Nat.le_of_lt_succ hlt) ho
      simpa [Function.update_of_ne ho] using (h.owner o hlt').extend extends_spawnOwner
  allocated o hne := by
    by_cases ho : o = s.nextOwner
    · subst ho
      exact Nat.lt_succ_self _
    · exact (h.allocated o (by simpa [Function.update_of_ne ho] using hne)).trans
        (Nat.lt_succ_self _)
  task t := (h.task t).extend extends_spawnOwner

theorem create (h : s.Linked configs Q) {key : SessionKey} {config : ServerConfig}
    (hconfig : getConfig configs key.serverName = .ok config) :
    (s.create key config).Linked configs Q where
  inPool key' tr hlookup := by
    rw [find?_create] at hlookup
    split at hlookup
    case isTrue hk =>
      obtain rfl : s.nextTransport = tr := Option.some.inj hlookup
      exact ⟨Nat.lt_succ_self _, by simp [hk]⟩
    case isFalse hk =>
      obtain ⟨hlt, hkey⟩ := h.inPool key' tr hlookup
      exact ⟨hlt.trans (Nat.lt_succ_self _), (extends_create.key tr hlt).trans hkey⟩
  config tr hlt := by
    by_cases htr : tr = s.nextTransport
    · subst htr
      simpa using hconfig
    · have hlt' : tr < s.nextTransport := lt_of_le_of_ne (Nat.le_of_lt_succ hlt) htr
      simpa [Function.update_of_ne htr] using h.config tr hlt'
  session tr o := by
    by_cases htr : tr = s.nextTransport
    · subst htr
      simp
    · simpa [Function.update_of_ne htr] using h.session tr o
  owner o hlt := (h.owner o hlt).extend extends_create
  allocated := h.allocated
  task t := (h.task t).extend extends_create

theorem spawnConnect (h : s.Linked configs Q) (t : TaskId) {g : GetSession} (l : LockId)
    {tr : TransportId} (hwork : s.WorksOn Q g tr) :
    (s.spawnConnect t g l tr).Linked configs Q := by
  have hext : s.Extends (s.setTransport tr { s.transport tr with
      state := .connecting, bgTask := some s.nextOwner }) := extends_setTransport rfl
  have hbegun : (s.setTransport tr { s.transport tr with
      state := .connecting, bgTask := some s.nextOwner }).Linked configs Q :=
    h.setTransport tr rfl rfl (h.session tr)
  have hwork' := hwork.extend hext
  refine (hbegun.spawnOwner (x := { transport := tr, request := g }) hwork').setTask t ?_
  refine ⟨hwork'.extend extends_spawnOwner, Nat.lt_succ_self _, ?_, ?_⟩ <;> simp

theorem beginConnect (h : s.Linked configs Q) (t : TaskId) {g : GetSession} (l : LockId)
    {tr : TransportId} (hwork : s.WorksOn Q g tr) :
    (s.beginConnect t g l tr).Linked configs Q := by
  unfold Pool.beginConnect
  split
  · exact ((h.setState tr .connecting).setLock l _).setTask t trivial
  · exact h.spawnConnect t l hwork

theorem abortConnect (h : s.Linked configs Q) (t : TaskId) (g : GetSession) (l : LockId)
    (tr : TransportId) (e : ConnectError) : (s.abortConnect t g l tr e).Linked configs Q :=
  ((h.setState tr .error).setLock l _).setTask t trivial

theorem finishDisconnect (h : s.Linked configs Q) (tr : TransportId) :
    (s.finishDisconnect tr).Linked configs Q :=
  h.dropSession tr .disconnected

theorem finishGet (h : s.Linked configs Q) (t : TaskId) {g : GetSession} (l : LockId)
    {tr : TransportId} (hwork : s.WorksOn Q g tr) : (s.finishGet t g l tr).Linked configs Q := by
  refine (h.setLock l _).setTask t ?_
  cases hactive : (s.transport tr).activeSession with
  | none => trivial
  | some o =>
    have hsession := (MCPTransport.activeSession_eq_some.mp hactive).2
    obtain ⟨htr, hphase⟩ := h.session tr o hsession
    have hlt := h.allocated o (by simp [hphase])
    obtain ⟨-, -, hkey⟩ := h.owner o hlt
    rw [htr] at hkey
    exact ⟨hlt, hkey.symm.trans hwork.2.2⟩

theorem cleanupBgTask (h : s.Linked configs Q) {t : TaskId} {tr : TransportId}
    {finish : Pool → Pool} {wait : OwnerId → Task}
    (hfinish : ∀ s' : Pool, s'.Linked configs Q → s.Extends s' → (finish s').Linked configs Q)
    (hwait : ∀ (s' : Pool) (o : OwnerId), s.Extends s' → TaskLinked configs Q s' (wait o)) :
    (s.cleanupBgTask t tr finish wait).Linked configs Q := by
  rcases s.cleanupBgTask_cases t tr finish wait with
    ⟨-, heq⟩ | ⟨o, -, ⟨-, heq⟩ | ⟨-, heq⟩⟩
  · rw [heq]
    exact hfinish s h .refl
  · have hstop : s.Extends (s.requestStop o) := extends_setOwner rfl rfl
    have hclear : (s.requestStop o).Extends ((s.requestStop o).clearBgTask tr) :=
      extends_setTransport rfl
    rw [heq]
    exact hfinish _ ((h.requestStop o).clearBgTask tr) (hstop.trans hclear)
  · rw [heq]
    exact (h.requestStop o).setTask t (hwait _ o (extends_setOwner rfl rfl))

theorem connectOrReturn (h : s.Linked configs Q) (t : TaskId) {g : GetSession} (l : LockId)
    {tr : TransportId} (hwork : s.WorksOn Q g tr) :
    (s.connectOrReturn t g l tr).Linked configs Q := by
  unfold Pool.connectOrReturn
  split
  · exact h.finishGet t l hwork
  · refine h.cleanupBgTask (fun s' h' he => ?_) (fun s' o he => hwork.extend he)
    exact h'.beginConnect t l (hwork.extend he)

theorem transportOf (h : s.Linked configs Q) {g : GetSession} {config : ServerConfig}
    (hQ : Q g) (hconfig : getConfig configs g.serverName = .ok config) :
    (s.transportOf g.key config).1.Linked configs Q ∧
      (s.transportOf g.key config).1.WorksOn Q g (s.transportOf g.key config).2 := by
  unfold Pool.transportOf
  split
  · obtain ⟨hlt, hkey⟩ := h.inPool _ _ ‹_›
    exact ⟨h, hQ, hlt, hkey⟩
  · exact ⟨h.create hconfig, hQ, Nat.lt_succ_self _, by simp⟩

theorem enter (h : s.Linked configs Q) (t : TaskId) {g : GetSession} {config : ServerConfig}
    (l : LockId) (hQ : Q g) (hconfig : getConfig configs g.serverName = .ok config) :
    (s.enter t g config l).Linked configs Q := by
  obtain ⟨h', hwork⟩ := h.transportOf hQ hconfig
  exact h'.connectOrReturn t l hwork

theorem closeKeys (t : TaskId) (all : Bool) (keys : List SessionKey) (h : s.Linked configs Q) :
    (closeKeys t all keys s).Linked configs Q := by
  induction keys generalizing s with
  | nil => exact h.setTask t trivial
  | cons key rest ih =>
    unfold Pool.closeKeys
    dsimp only
    split
    · exact ih (h.takeOut key)
    · split
      · refine ((h.takeOut key).setState _ .disconnecting).cleanupBgTask ?_ fun _ _ _ => trivial
        exact fun s' h' _ => ih (h'.finishDisconnect _)
      · exact ih (h.takeOut key)

theorem lockOf (h : s.Linked configs Q) {key : SessionKey} {s₀ : Pool} {l : LockId}
    (hlock : s.lockOf key = (s₀, l)) : s₀.Linked configs Q := by
  unfold Pool.lockOf at hlock
  split at hlock <;> cases hlock
  · exact h
  · exact ⟨h.inPool, h.config, h.session, h.owner, h.allocated, h.task⟩

theorem startGet (h : s.Linked configs Q) (t : TaskId) {g : GetSession} (hQ : Q g) :
    (s.startGet configs t g).Linked configs Q := by
  rcases startGet_cases configs s t g with
    ⟨e, -, heq⟩ | ⟨s₀, l, config, hlock, hconfig, hfree⟩
  · rw [heq]
    exact h.setTask t trivial
  · have h₀ : s₀.Linked configs Q := h.lockOf hlock
    rcases hfree with ⟨-, heq⟩ | ⟨-, heq⟩
    · rw [heq]
      exact (h₀.setLock l _).enter t l hQ hconfig
    · rw [heq]
      exact (h₀.setLock l _).setTask t ⟨hQ, hconfig⟩

theorem resumes (h : s.Linked configs Q) {t : TaskId} (hr : s.Resumes t s') :
    s'.Linked configs Q := by
  have htask := h.task t
  cases hr with
  | @waiting g config l ht =>
    rw [ht] at htask
    exact (h.setLock l _).enter t l htask.1 htask.2
  | @clearing g l tr o ht =>
    rw [ht] at htask
    exact (h.clearBgTask tr).beginConnect t l (htask.extend (extends_setTransport rfl))
  | @connected g l tr o ht =>
    rw [ht] at htask
    exact h.finishGet t l htask.1
  | @failed g l tr o e ht =>
    rw [ht] at htask
    refine h.cleanupBgTask (fun s' h' _ => ?_) (fun s' o' he => htask.1.extend he)
    exact h'.abortConnect t g l tr e
  | @failing g l tr o e => exact (h.clearBgTask tr).abortConnect t g l tr e
  | @closing all tr o rest => exact closeKeys t all rest ((h.clearBgTask tr).finishDisconnect tr)

/-- An owner that no session names may change its phase. -/
theorem setPhase (h : s.Linked configs Q) (o : OwnerId) {x : Owner}
    (htr : x.transport = (s.owner o).transport) (hreq : x.request = (s.owner o).request)
    (hlive : (s.owner o).phase ≠ .done) (hidle : (s.owner o).phase ≠ .serving) :
    (s.setOwner o x).Linked configs Q :=
  h.setOwner o htr hreq (fun hdone => absurd hdone hlive)
    fun tr hs => absurd (h.session tr o hs).2 hidle

theorem ownerConnects (h : s.Linked configs Q) {o : OwnerId}
    (hphase : (s.owner o).phase = .connecting) : (s.ownerConnects o).Linked configs Q := by
  have hlive : (s.owner o).phase ≠ .done := by simp [hphase]
  have hidle : (s.owner o).phase ≠ .serving := by simp [hphase]
  cases hstop : (s.owner o).stopRequested with
  | true =>
    have hready := h.setPhase o
      (x := { s.owner o with ready := true, phase := .closing }) rfl rfl hlive hidle
    simpa [Pool.ownerConnects, hstop] using hready.dropSession (s.owner o).transport .connected
  | false =>
    have hready := h.setPhase o
      (x := { s.owner o with ready := true, phase := .serving }) rfl rfl hlive hidle
    have hserves := hready.setTransport (s.owner o).transport
      (x := { s.transport (s.owner o).transport with state := .connected, session := some o })
      rfl rfl (by simp)
    simpa [Pool.ownerConnects, hstop] using hserves

theorem ownerFails (h : s.Linked configs Q) {o : OwnerId} (e : ConnectError)
    (hphase : (s.owner o).phase = .connecting) : (s.ownerFails o e).Linked configs Q :=
  (h.dropSession (s.owner o).transport .error).setPhase o rfl rfl (by simp [hphase])
    (by simp [hphase])

theorem ownerEnds (h : s.Linked configs Q) {o : OwnerId}
    (hphase : (s.owner o).phase = .serving) : (s.ownerEnds o).Linked configs Q := by
  have hdropped := h.dropSession (s.owner o).transport (s.transport (s.owner o).transport).state
  refine hdropped.setOwner o rfl rfl (by simp [hphase]) fun tr hs => ?_
  -- only the owner's own transport could name it
  exfalso
  obtain ⟨htr, -⟩ := hdropped.session tr o hs
  simp only [setTransport_owner] at htr
  simp [htr] at hs

theorem ownerCloses (h : s.Linked configs Q) {o : OwnerId}
    (hphase : (s.owner o).phase = .closing) : (s.ownerCloses o).Linked configs Q :=
  h.setPhase o rfl rfl (by simp [hphase]) (by simp [hphase])

/-- Every step keeps the links, if it starts no `get_session` outside `Q`. -/
theorem step {a : PoolAction} (h : s.Linked configs Q) (hst : step configs s a = some s')
    (hQ : ∀ t g, a = .getSession t g → Q g) : s'.Linked configs Q := by
  cases steps_of_step hst with
  | @getSession t g => exact h.startGet t (hQ t g rfl)
  | @disconnect t => exact h.closeKeys t _ _
  | @disconnectAll t => exact h.closeKeys t _ _
  | resume hr => exact h.resumes hr
  | ownerConnects hphase => exact h.ownerConnects hphase
  | ownerFails e hphase => exact h.ownerFails e hphase
  | ownerEnds hphase => exact h.ownerEnds hphase
  | ownerCloses hphase => exact h.ownerCloses hphase

end Linked

theorem TaskLinked.mono {Q' : GetSession → Prop} {x : Task} (h : TaskLinked configs Q s x)
    (hQ : ∀ g, Q g → Q' g) : TaskLinked configs Q' s x := by
  cases x with
  | waiting g => exact ⟨hQ g h.1, h.2⟩
  | clearing g => exact ⟨hQ g h.1, h.2⟩
  | connecting g => exact ⟨⟨hQ g h.1.1, h.1.2⟩, h.2⟩
  | failing g => exact ⟨hQ g h.1, h.2⟩
  | _ => exact h

theorem Linked.mono {Q' : GetSession → Prop} (h : s.Linked configs Q) (hQ : ∀ g, Q g → Q' g) :
    s.Linked configs Q' where
  inPool := h.inPool
  config := h.config
  session := h.session
  owner o hlt := ⟨hQ _ (h.owner o hlt).1, (h.owner o hlt).2⟩
  allocated := h.allocated
  task t := (h.task t).mono hQ

theorem linked_empty : ({} : Pool).Linked configs Q where
  inPool key tr h := by cases h
  config tr h := absurd h (Nat.not_lt_zero tr)
  session tr o h := by cases h
  owner o h := absurd h (Nat.not_lt_zero o)
  allocated o h := absurd rfl h
  task t := trivial

end Pool

end McpZero.Transport
