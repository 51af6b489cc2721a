import Mathlib.Data.List.AList
import Mathlib.Logic.Function.Basic
import Mathlib.Tactic.Simps.Basic
import McpZero.Context
import McpZero.Lib.AsyncLock
import McpZero.Lib.Runs
import McpZero.Transport.Config

/-! `ServerManager` with the transports in its pool, as a machine whose steps run one task
from one suspension to the next. A transport's connection lives in a background task, its
owner. The tasks that call the manager are not cancelled. -/
namespace McpZero.Transport
open Python Lib

abbrev TransportId := ℕ
abbrev OwnerId := ℕ

/-- `_SessionKey`. -/
structure SessionKey where
  serverName : String
  subjectId : Option String
  deriving DecidableEq

/-- The arguments of one `get_session`. -/
structure GetSession where
  serverName : String
  context : Option RequestContext := none
  authToken : Option String := none

namespace GetSession

def subjectId (g : GetSession) : Option String :=
  (g.context.bind (·.identity)).map (·.userId)

def key (g : GetSession) : SessionKey := ⟨g.serverName, g.subjectId⟩

end GetSession

inductive TransportState
  | disconnected
  | connecting
  | connected
  | disconnecting
  | error
  deriving DecidableEq

/-- A transport. Its session is named by the owner that opened it, and `bgTask` also stands
for the stop event, which is set and cleared together with it (a `connect` that is refused leaves
a stop event that nobody waits for). `key` is the key it was created for, which the source does
not store. -/
structure MCPTransport where
  key : SessionKey
  config : ServerConfig
  state : TransportState := .disconnected
  session : Option OwnerId := none
  bgTask : Option OwnerId := none

/-- The property `MCPTransport.session`; it raises `TransportClosedError` on `none`. -/
def MCPTransport.activeSession (tr : MCPTransport) : Option OwnerId :=
  if tr.state = .connected then tr.session else none

theorem MCPTransport.activeSession_eq_some {tr : MCPTransport} {o : OwnerId} :
    tr.activeSession = some o ↔ tr.state = .connected ∧ tr.session = some o := by
  unfold activeSession
  split <;> simp_all

/-- What `connect` raises for the error of its owner. -/
inductive ConnectError
  | connection
  | process
  | session
  deriving DecidableEq

inductive OwnerPhase
  | connecting
  | serving
  | closing
  | done
  deriving DecidableEq

/-- A `_connection_owner` with its stop event, its `ready` event and its `connect_error`. -/
structure Owner where
  transport : TransportId
  request : GetSession
  phase : OwnerPhase := .connecting
  stopRequested : Bool := false
  ready : Bool := false
  error : Option ConnectError := none

inductive GetSessionError
  | routing
  | closed
  | parameters
  | connect (error : ConnectError)
  deriving DecidableEq

/-- Where a task stands. `waiting` is at `async with lock`; `clearing` and `failing` wait in
`connect` for an owner to finish, before and after the attempt; `connecting` waits for the
owner to be ready; `closing` waits in `disconnect` with the keys that are still to do. -/
inductive Task
  | idle
  | waiting (g : GetSession) (config : ServerConfig) (lock : LockId)
  | clearing (g : GetSession) (lock : LockId) (transport : TransportId) (owner : OwnerId)
  | connecting (g : GetSession) (lock : LockId) (transport : TransportId) (owner : OwnerId)
  | failing (g : GetSession) (lock : LockId) (transport : TransportId) (owner : OwnerId)
      (error : ConnectError)
  | returned (g : GetSession) (session : OwnerId)
  | raised (g : GetSession) (error : GetSessionError)
  | closing (all : Bool) (transport : TransportId) (owner : OwnerId) (rest : List SessionKey)
  | closed (all : Bool)

namespace Task

/-- The pending `get_session` of a task. -/
def pendingGet : Task → Option GetSession
  | waiting g _ _ => some g
  | clearing g _ _ _ => some g
  | connecting g _ _ _ => some g
  | failing g _ _ _ _ => some g
  | _ => none

/-- Whether the task is inside the manager. -/
def pending : Task → Bool
  | closing _ _ _ _ => true
  | task => task.pendingGet.isSome

end Task

/-- The manager, its transports and the tasks that use it. `_global_lock` is left out: no task
waits while it holds it. A dictionary keeps its keys in the order opposite to `AList.keys`. -/
structure Pool where
  transports : AList (fun _ : SessionKey => TransportId) := ∅
  locks : SessionKey → Option LockId := fun _ => none
  lock : LockId → AsyncLock TaskId := fun _ => {}
  transport : TransportId → MCPTransport := fun _ =>
    { key := ⟨"", none⟩, config := { name := .str "", transport := .stdio } }
  owner : OwnerId → Owner := fun _ =>
    { transport := 0, request := { serverName := "" }, phase := .done }
  task : TaskId → Task := fun _ => .idle
  nextLock : LockId := 0
  nextTransport : TransportId := 0
  nextOwner : OwnerId := 0

/-- The steps of the pool. A task starts a call, or goes on after what it waited for; an owner
connects, fails before it is ready, ends after it was ready (on its stop event, by an
exception or by cancellation), and finishes closing its stack. -/
inductive PoolAction
  | getSession (t : TaskId) (g : GetSession)
  | disconnect (t : TaskId) (serverName : String)
  | disconnectAll (t : TaskId)
  | resume (t : TaskId)
  | ownerConnects (o : OwnerId)
  | ownerFails (o : OwnerId) (error : ConnectError)
  | ownerEnds (o : OwnerId)
  | ownerCloses (o : OwnerId)

/-- The task that runs in a step, unless an owner does. -/
def PoolAction.task? : PoolAction → Option TaskId
  | .getSession t _ => some t
  | .disconnect t _ => some t
  | .disconnectAll t => some t
  | .resume t => some t
  | _ => none

/-- The task that starts a call of the manager in a step. -/
def PoolAction.starts : PoolAction → Option TaskId
  | .getSession t _ => some t
  | .disconnect t _ => some t
  | .disconnectAll t => some t
  | _ => none

namespace Pool

/-- `self._transports.get(key)`. -/
def find? (s : Pool) (key : SessionKey) : Option TransportId := s.transports.lookup key

@[simps] def setTask (s : Pool) (t : TaskId) (task : Task) : Pool :=
  { s with task := Function.update s.task t task }

@[simps] def setLock (s : Pool) (l : LockId) (lock : AsyncLock TaskId) : Pool :=
  { s with lock := Function.update s.lock l lock }

@[simps] def setTransport (s : Pool) (tr : TransportId) (x : MCPTransport) : Pool :=
  { s with transport := Function.update s.transport tr x }

@[simps] def setOwner (s : Pool) (o : OwnerId) (x : Owner) : Pool :=
  { s with owner := Function.update s.owner o x }

@[simp] theorem find?_setTask (s : Pool) (t : TaskId) (x : Task) (key : SessionKey) :
    (s.setTask t x).find? key = s.find? key := rfl

@[simp] theorem find?_setLock (s : Pool) (l : LockId) (x : AsyncLock TaskId)
    (key : SessionKey) : (s.setLock l x).find? key = s.find? key := rfl

@[simp] theorem find?_setTransport (s : Pool) (tr : TransportId) (x : MCPTransport)
    (key : SessionKey) : (s.setTransport tr x).find? key = s.find? key := rfl

@[simp] theorem find?_setOwner (s : Pool) (o : OwnerId) (x : Owner) (key : SessionKey) :
    (s.setOwner o x).find? key = s.find? key := rfl

/-- The end of `async with lock`, and `return transport.session`. -/
def finishGet (s : Pool) (t : TaskId) (g : GetSession) (l : LockId) (tr : TransportId) : Pool :=
  (s.setLock l (s.lock l).release).setTask t
    (match (s.transport tr).activeSession with
    | some o => .returned g o
    | none => .raised g .closed)

/-- `self._stop_event.set()`. -/
def requestStop (s : Pool) (o : OwnerId) : Pool :=
  s.setOwner o { s.owner o with stopRequested := true }

/-- The end of `_cleanup_bg_task`: it forgets the background task of the moment, also when
that is no longer the one it has waited for. -/
def clearBgTask (s : Pool) (tr : TransportId) : Pool :=
  s.setTransport tr { s.transport tr with bgTask := none }

/-- `_cleanup_bg_task` in the task `t`, which goes on with `finish` or waits as `wait` says. -/
def cleanupBgTask (s : Pool) (t : TaskId) (tr : TransportId) (finish : Pool → Pool)
    (wait : OwnerId → Task) : Pool :=
  match (s.transport tr).bgTask with
  | none => finish s
  | some o =>
    let s := s.requestStop o
    if (s.owner o).phase = .done then finish (s.clearBgTask tr) else s.setTask t (wait o)

/-- The three ways through `_cleanup_bg_task`. -/
theorem cleanupBgTask_cases (s : Pool) (t : TaskId) (tr : TransportId) (finish : Pool → Pool)
    (wait : OwnerId → Task) :
    (s.transport tr).bgTask = none ∧ s.cleanupBgTask t tr finish wait = finish s ∨
    ∃ o, (s.transport tr).bgTask = some o ∧
      ((s.owner o).phase = .done ∧
          s.cleanupBgTask t tr finish wait = finish ((s.requestStop o).clearBgTask tr) ∨
        (s.owner o).phase ≠ .done ∧
          s.cleanupBgTask t tr finish wait = (s.requestStop o).setTask t (wait o)) := by
  unfold cleanupBgTask
  cases h : (s.transport tr).bgTask with
  | none => exact .inl ⟨rfl, rfl⟩
  | some o =>
    refine .inr ⟨o, rfl, ?_⟩
    have hphase : ((s.requestStop o).owner o).phase = (s.owner o).phase := by
      simp [requestStop]
    by_cases hdone : (s.owner o).phase = .done
    · exact .inl ⟨hdone, if_pos (hphase.trans hdone)⟩
    · exact .inr ⟨hdone, if_neg (hphase ▸ hdone)⟩

/-- `asyncio.create_task` for an owner. -/
@[simps] def spawnOwner (s : Pool) (x : Owner) : Pool :=
  { s with owner := Function.update s.owner s.nextOwner x, nextOwner := s.nextOwner + 1 }

/-- `connect` from the change to `CONNECTING` to the wait for the new owner. -/
def spawnConnect (s : Pool) (t : TaskId) (g : GetSession) (l : LockId) (tr : TransportId) : Pool :=
  let o := s.nextOwner
  let s := s.setTransport tr { s.transport tr with state := .connecting, bgTask := some o }
  (s.spawnOwner { transport := tr, request := g }).setTask t (.connecting g l tr o)

/-- `connect` where `StdioServerParameters` raises: it leaves `CONNECTING` behind, and
`async with lock`. -/
def refuseConnect (s : Pool) (t : TaskId) (g : GetSession) (l : LockId) (tr : TransportId) :
    Pool :=
  let s := s.setTransport tr { s.transport tr with state := .connecting }
  (s.setLock l (s.lock l).release).setTask t (.raised g .parameters)

/-- `connect` after it has cleaned up. -/
def beginConnect (s : Pool) (t : TaskId) (g : GetSession) (l : LockId) (tr : TransportId) : Pool :=
  if (s.transport tr).config.refused then s.refuseConnect t g l tr else s.spawnConnect t g l tr

/-- The end of a failed `connect`, which leaves `async with lock`. -/
def abortConnect (s : Pool) (t : TaskId) (g : GetSession) (l : LockId) (tr : TransportId)
    (error : ConnectError) : Pool :=
  let s := s.setTransport tr { s.transport tr with state := .error }
  (s.setLock l (s.lock l).release).setTask t (.raised g (.connect error))

/-- `TransportFactory.create`, stored in the pool. -/
@[simps] def create (s : Pool) (key : SessionKey) (config : ServerConfig) : Pool :=
  { s with
    transports := s.transports.insert key s.nextTransport
    transport := Function.update s.transport s.nextTransport { key := key, config := config }
    nextTransport := s.nextTransport + 1 }

theorem find?_create (s : Pool) (key key' : SessionKey) (config : ServerConfig) :
    (s.create key config).find? key' = if key' = key then some s.nextTransport else s.find? key' := by
  unfold find?
  by_cases h : key' = key
  · subst h
    simp
  · simp [h, AList.lookup_insert_ne h]

def connectOrReturn (s : Pool) (t : TaskId) (g : GetSession) (l : LockId) (tr : TransportId) :
    Pool :=
  if (s.transport tr).state = .connected then s.finishGet t g l tr
  else s.cleanupBgTask t tr (·.beginConnect t g l tr) (.clearing g l tr)

/-- The transport of a key, created when it is missing. -/
def transportOf (s : Pool) (key : SessionKey) (config : ServerConfig) : Pool × TransportId :=
  match s.find? key with
  | some tr => (s, tr)
  | none => (s.create key config, s.nextTransport)

/-- The body of `async with lock`. -/
def enter (s : Pool) (t : TaskId) (g : GetSession) (config : ServerConfig) (l : LockId) : Pool :=
  let (s, tr) := s.transportOf g.key config
  s.connectOrReturn t g l tr

/-- The lock of a key, created when it is missing. -/
def lockOf (s : Pool) (key : SessionKey) : Pool × LockId :=
  match s.locks key with
  | some l => (s, l)
  | none =>
    ({ s with
        locks := Function.update s.locks key (some s.nextLock)
        nextLock := s.nextLock + 1 }, s.nextLock)

/-- `get_session` up to its first wait. -/
def startGet (configs : List ServerConfig) (s : Pool) (t : TaskId) (g : GetSession) : Pool :=
  match getConfig configs g.serverName with
  | .error _ => s.setTask t (.raised g .routing)
  | .ok config =>
    let (s, l) := s.lockOf g.key
    if (s.lock l).free then (s.setLock l ((s.lock l).hold t)).enter t g config l
    else (s.setLock l ((s.lock l).wait t)).setTask t (.waiting g config l)

/-- The three ways through the start of `get_session`. -/
theorem startGet_cases (configs : List ServerConfig) (s : Pool) (t : TaskId) (g : GetSession) :
    (∃ e, getConfig configs g.serverName = .error e ∧
      s.startGet configs t g = s.setTask t (.raised g .routing)) ∨
    ∃ s₀ l config, s.lockOf g.key = (s₀, l) ∧ getConfig configs g.serverName = .ok config ∧
      ((s₀.lock l).free ∧
          s.startGet configs t g = (s₀.setLock l ((s₀.lock l).hold t)).enter t g config l ∨
        ¬ (s₀.lock l).free ∧ s.startGet configs t g =
          (s₀.setLock l ((s₀.lock l).wait t)).setTask t (.waiting g config l)) := by
  unfold startGet
  cases hconfig : getConfig configs g.serverName with
  | error e => exact .inl ⟨e, rfl, rfl⟩
  | ok config =>
    refine .inr ⟨_, _, config, rfl, rfl, ?_⟩
    by_cases hfree : ((s.lockOf g.key).1.lock (s.lockOf g.key).2).free
    · exact .inl ⟨hfree, if_pos hfree⟩
    · exact .inr ⟨hfree, if_neg hfree⟩

/-- `self._transports.pop(key, None)` and `self._locks.pop(key, None)`. -/
@[simps] def takeOut (s : Pool) (key : SessionKey) : Pool :=
  { s with
    transports := s.transports.erase key
    locks := Function.update s.locks key none }

theorem find?_takeOut (s : Pool) (key key' : SessionKey) :
    (s.takeOut key).find? key' = if key' = key then none else s.find? key' := by
  unfold find?
  by_cases h : key' = key
  · subst h
    simp
  · simp [h, AList.lookup_erase_ne h]

/-- The end of `MCPTransport.disconnect`. -/
def finishDisconnect (s : Pool) (tr : TransportId) : Pool :=
  s.setTransport tr { s.transport tr with session := none, state := .disconnected }

/-- The loop of `disconnect` and `disconnect_all`. A transport that is neither connected nor
in error is taken out and left as it is. -/
def closeKeys (t : TaskId) (all : Bool) : List SessionKey → Pool → Pool
  | [], s => s.setTask t (.closed all)
  | key :: rest, s =>
    let found := s.find? key
    let s := s.takeOut key
    match found with
    | none => closeKeys t all rest s
    | some tr =>
      if (s.transport tr).state = .connected ∨ (s.transport tr).state = .error then
        (s.setTransport tr { s.transport tr with state := .disconnecting }).cleanupBgTask t tr
          (fun s => closeKeys t all rest (s.finishDisconnect tr)) (.closing all tr · rest)
      else closeKeys t all rest s

/-- The keys of the pool in the order of insertion. -/
def keys (s : Pool) : List SessionKey := s.transports.keys.reverse

/-- A task goes on when what it waits for has happened. -/
def resume (s : Pool) (t : TaskId) : Option Pool :=
  match s.task t with
  | .waiting g config l =>
    if (s.lock l).turn t then some ((s.setLock l ((s.lock l).takeTurn t)).enter t g config l)
    else none
  | .clearing g l tr o =>
    if (s.owner o).phase = .done then some ((s.clearBgTask tr).beginConnect t g l tr) else none
  | .connecting g l tr o =>
    if (s.owner o).ready then
      match (s.owner o).error with
      | none => some (s.finishGet t g l tr)
      | some e =>
        some (s.cleanupBgTask t tr (·.abortConnect t g l tr e) (.failing g l tr · e))
    else none
  | .failing g l tr o e =>
    if (s.owner o).phase = .done then some ((s.clearBgTask tr).abortConnect t g l tr e) else none
  | .closing all tr o rest =>
    if (s.owner o).phase = .done then
      some (closeKeys t all rest ((s.clearBgTask tr).finishDisconnect tr))
    else none
  | _ => none

/-- What `resume` does, by the place where the task waits. -/
inductive Resumes (s : Pool) (t : TaskId) : Pool → Prop
  | waiting {g : GetSession} {config : ServerConfig} {l : LockId} :
      s.task t = .waiting g config l → (s.lock l).turn t →
        Resumes s t ((s.setLock l ((s.lock l).takeTurn t)).enter t g config l)
  | clearing {g : GetSession} {l : LockId} {tr : TransportId} {o : OwnerId} :
      s.task t = .clearing g l tr o → (s.owner o).phase = .done →
        Resumes s t ((s.clearBgTask tr).beginConnect t g l tr)
  | connected {g : GetSession} {l : LockId} {tr : TransportId} {o : OwnerId} :
      s.task t = .connecting g l tr o → (s.owner o).ready → (s.owner o).error = none →
        Resumes s t (s.finishGet t g l tr)
  | failed {g : GetSession} {l : LockId} {tr : TransportId} {o : OwnerId} {e : ConnectError} :
      s.task t = .connecting g l tr o → (s.owner o).ready → (s.owner o).error = some e →
        Resumes s t (s.cleanupBgTask t tr (·.abortConnect t g l tr e) (.failing g l tr · e))
  | failing {g : GetSession} {l : LockId} {tr : TransportId} {o : OwnerId} {e : ConnectError} :
      s.task t = .failing g l tr o e → (s.owner o).phase = .done →
        Resumes s t ((s.clearBgTask tr).abortConnect t g l tr e)
  | closing {all : Bool} {tr : TransportId} {o : OwnerId} {rest : List SessionKey} :
      s.task t = .closing all tr o rest → (s.owner o).phase = .done →
        Resumes s t (closeKeys t all rest ((s.clearBgTask tr).finishDisconnect tr))

theorem resumes_of_resume {s s' : Pool} {t : TaskId} (h : s.resume t = some s') :
    s.Resumes t s' := by
  unfold resume at h
  split at h
  case h_1 htask =>
    split at h <;> cases h
    exact .waiting htask ‹_›
  case h_2 htask =>
    split at h <;> cases h
    exact .clearing htask ‹_›
  case h_3 htask =>
    split at h
    · split at h <;> cases h
      · exact .connected htask ‹_› ‹_›
      · exact .failed htask ‹_› ‹_›
    · cases h
  case h_4 htask =>
    split at h <;> cases h
    exact .failing htask ‹_›
  case h_5 htask =>
    split at h <;> cases h
    exact .closing htask ‹_›
  case h_6 => cases h

/-- The owner `o` enters its stack, initializes the session and announces it. When its stop
event is already set it does not wait, and clears the session at once. -/
def ownerConnects (s : Pool) (o : OwnerId) : Pool :=
  let x := s.owner o
  let stopped := x.stopRequested
  let tr := s.transport x.transport
  (s.setOwner o { x with
      ready := true, phase := if stopped then .closing else .serving }).setTransport x.transport
    { tr with state := .connected, session := if stopped then none else some o }

def ownerFails (s : Pool) (o : OwnerId) (error : ConnectError) : Pool :=
  let x := s.owner o
  let tr := s.transport x.transport
  (s.setTransport x.transport { tr with state := .error, session := none }).setOwner o
    { x with ready := true, error := some error, phase := .closing }

/-- An owner that was ready leaves its `try`: only the session is cleared. -/
def ownerEnds (s : Pool) (o : OwnerId) : Pool :=
  let x := s.owner o
  let tr := s.transport x.transport
  (s.setTransport x.transport { tr with session := none }).setOwner o { x with phase := .closing }

def ownerCloses (s : Pool) (o : OwnerId) : Pool :=
  s.setOwner o { s.owner o with phase := .done }

def step (configs : List ServerConfig) (s : Pool) : PoolAction → Option Pool
  | .getSession t g => if (s.task t).pending then none else some (s.startGet configs t g)
  | .disconnect t serverName =>
    if (s.task t).pending then none
    else some (closeKeys t false (s.keys.filter (·.serverName = serverName)) s)
  | .disconnectAll t =>
    if (s.task t).pending then none else some (closeKeys t true s.keys s)
  | .resume t => s.resume t
  | .ownerConnects o => if (s.owner o).phase = .connecting then some (s.ownerConnects o) else none
  | .ownerFails o e => if (s.owner o).phase = .connecting then some (s.ownerFails o e) else none
  | .ownerEnds o => if (s.owner o).phase = .serving then some (s.ownerEnds o) else none
  | .ownerCloses o => if (s.owner o).phase = .closing then some (s.ownerCloses o) else none

/-- What a step does, by its action. -/
inductive Steps (configs : List ServerConfig) (s : Pool) : PoolAction → Pool → Prop
  | getSession {t : TaskId} (g : GetSession) :
      ¬ (s.task t).pending → Steps configs s (.getSession t g) (s.startGet configs t g)
  | disconnect {t : TaskId} (serverName : String) :
      ¬ (s.task t).pending → Steps configs s (.disconnect t serverName)
        (closeKeys t false (s.keys.filter (·.serverName = serverName)) s)
  | disconnectAll {t : TaskId} :
      ¬ (s.task t).pending → Steps configs s (.disconnectAll t) (closeKeys t true s.keys s)
  | resume {t : TaskId} {s' : Pool} : s.Resumes t s' → Steps configs s (.resume t) s'
  | ownerConnects {o : OwnerId} :
      (s.owner o).phase = .connecting → Steps configs s (.ownerConnects o) (s.ownerConnects o)
  | ownerFails {o : OwnerId} (e : ConnectError) :
      (s.owner o).phase = .connecting → Steps configs s (.ownerFails o e) (s.ownerFails o e)
  | ownerEnds {o : OwnerId} :
      (s.owner o).phase = .serving → Steps configs s (.ownerEnds o) (s.ownerEnds o)
  | ownerCloses {o : OwnerId} :
      (s.owner o).phase = .closing → Steps configs s (.ownerCloses o) (s.ownerCloses o)

theorem steps_of_step {configs : List ServerConfig} {s s' : Pool} {a : PoolAction}
    (h : step configs s a = some s') : s.Steps configs a s' := by
  cases a with
  | resume t => exact .resume (resumes_of_resume h)
  | getSession t g =>
    simp only [step] at h
    split at h <;> cases h
    exact .getSession g ‹_›
  | disconnect t serverName =>
    simp only [step] at h
    split at h <;> cases h
    exact .disconnect serverName ‹_›
  | disconnectAll t =>
    simp only [step] at h
    split at h <;> cases h
    exact .disconnectAll ‹_›
  | ownerConnects o =>
    simp only [step] at h
    split at h <;> cases h
    exact .ownerConnects ‹_›
  | ownerFails o e =>
    simp only [step] at h
    split at h <;> cases h
    exact .ownerFails e ‹_›
  | ownerEnds o =>
    simp only [step] at h
    split at h <;> cases h
    exact .ownerEnds ‹_›
  | ownerCloses o =>
    simp only [step] at h
    split at h <;> cases h
    exact .ownerCloses ‹_›

/-- The `get_session` that enters `async with lock` in this step, with its task. -/
def entering (configs : List ServerConfig) (s : Pool) : PoolAction → Option (TaskId × GetSession)
  | .getSession t g =>
    match getConfig configs g.serverName with
    | .error _ => none
    | .ok _ =>
      let (s, l) := s.lockOf g.key
      if (s.lock l).free then some (t, g) else none
  | .resume t =>
    match s.task t with
    | .waiting g _ l => if (s.lock l).turn t then some (t, g) else none
    | _ => none
  | _ => none

end Pool

end McpZero.Transport
