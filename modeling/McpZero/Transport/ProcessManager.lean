import Mathlib.Algebra.Order.Ring.Rat
import Mathlib.Logic.Function.Basic
import McpZero.Errors
import McpZero.Lib.Runs
import McpZero.Python.Value

/-! The manager of stdio transports, as a machine whose steps lead from one `await` to the next.
Its transports stay the same. How a connect or a reconnect ends, and what a health check finds, is
left open. -/
namespace McpZero.Transport
open Lib

/-- What the restarts read of the configuration of a stdio server. -/
structure RestartConfig where
  maxRestarts : ℤ := 3
  restartDelay : ℚ := 1

/-- The fields from `failedInARow` on are the history: the reconnects that failed since the
transport was last up, whether the counter has followed them, and whether a connect of `start_all`
has failed since the last restart began. -/
structure ProcessStatus where
  consecutiveFailures : ℕ := 0
  permanentlyFailed : Bool := false
  restartInProgress : Bool := false
  totalRestarts : ℕ := 0
  failedInARow : ℕ := 0
  followed : Bool := true
  overtaken : Bool := false
  deriving DecidableEq

namespace ProcessStatus

variable (p : ProcessStatus)

/-- `start_all` counts a connect that fails as one failure, whatever came before. -/
def connectFailed : ProcessStatus :=
  { p with consecutiveFailures := 1, followed := decide (1 ≤ p.failedInARow), overtaken := true }

/-- The transport is found up, by a connect or by a health check. The counter stays. -/
def foundUp : ProcessStatus :=
  { p with failedInARow := 0, followed := decide (p.consecutiveFailures = 0) }

def giveUp : ProcessStatus := { p with permanentlyFailed := true }

def beginRestart : ProcessStatus := { p with restartInProgress := true, overtaken := false }

def restarted : ProcessStatus :=
  { p with
    consecutiveFailures := 0
    totalRestarts := p.totalRestarts + 1
    restartInProgress := false
    failedInARow := 0
    followed := true }

def restartFailed : ProcessStatus :=
  { p with
    consecutiveFailures := p.consecutiveFailures + 1
    restartInProgress := false
    failedInARow := p.failedInARow + 1 }

/-- A cancellation during the reconnect only gets to the `finally`. -/
def interrupted : ProcessStatus := { p with restartInProgress := false }

/-- The health loop does not pass over the transport. -/
def Eligible : Prop := p.permanentlyFailed = false ∧ p.restartInProgress = false

instance : Decidable p.Eligible := inferInstanceAs (Decidable (_ ∧ _))

end ProcessStatus

/-- `min(base_delay * (2**consecutive_failures), _MAX_BACKOFF)`: the power must still be a float. -/
def restartDelay (config : RestartConfig) (failures : ℕ) : Except Exc ℚ :=
  if failures < 1024 then .ok (min (config.restartDelay * 2 ^ failures) 60)
  else .error (.other "OverflowError" "int too large to convert to float")

/-- How the checks of a round end: with all transports checked, or at the restart of one, which has
still to wait or raises. -/
inductive CheckOutcome
  | finished
  | restarting (name : String) (rest : List String) (delay : Except Exc ℚ)

/-- Where `_health_loop` stands. While it waits for the shutdown event it may have been woken. -/
inductive LoopPhase
  | created
  | waiting (woken : Bool)
  | sleeping (name : String) (rest : List String) (delay : ℚ)
  | reconnecting (name : String) (rest : List String)
  | finished
  | died (e : Exc)

/-- The transport for which a `_try_restart` of the loop is running. -/
def LoopPhase.restarting : LoopPhase → Option String
  | sleeping name _ _ => some name
  | reconnecting name _ => some name
  | _ => none

structure HealthLoop where
  phase : LoopPhase := .finished
  cancelRequested : Bool := false

def HealthLoop.wake (l : HealthLoop) : HealthLoop :=
  match l.phase with
  | .waiting _ => { l with phase := .waiting true }
  | _ => l

/-- Where a call of `start_all` or `shutdown` stands. -/
inductive ManagerCall
  | idle
  | connecting (name : String) (rest : List String)
  | stopping (loop : ℕ)
  | disconnecting

structure StdioProcessManager where
  status : String → ProcessStatus := fun _ => {}
  shutdownEvent : Bool := false
  healthTask : Option ℕ := none
  loops : ℕ → HealthLoop := fun _ => {}
  nextLoop : ℕ := 0
  calls : ℕ → ManagerCall := fun _ => .idle

/-- `cancelSwallowed` is a cancellation that reaches a reconnect while it waits for the old
connection to end. -/
inductive ManagerAction
  | startAll (call : ℕ)
  | connectEnds (call : ℕ) (ok : Bool)
  | loopStarts (loop : ℕ)
  | intervalElapsed (loop : ℕ) (healthy : String → Bool)
  | shutdownNoticed (loop : ℕ)
  | sleepEnds (loop : ℕ)
  | reconnectEnds (loop : ℕ) (ok : Bool) (healthy : String → Bool)
  | cancelSwallowed (loop : ℕ)
  | loopCancelled (loop : ℕ)
  | shutdown (call : ℕ)
  | shutdownResumes (call : ℕ)
  | disconnected (call : ℕ)
  | signalled

/-- The checks of a round from a transport on, up to the first `await`. A transport that is
given up needs none. -/
def checkFrom (config : String → RestartConfig) (healthy : String → Bool) :
    List String → (String → ProcessStatus) → (String → ProcessStatus) × CheckOutcome
  | [], status => (status, .finished)
  | name :: rest, status =>
    if ¬ (status name).Eligible then checkFrom config healthy rest status
    else if healthy name then
      checkFrom config healthy rest (Function.update status name (status name).foundUp)
    else if (config name).maxRestarts ≤ (status name).consecutiveFailures then
      checkFrom config healthy rest (Function.update status name (status name).giveUp)
    else
      (Function.update status name (status name).beginRestart,
        .restarting name rest (restartDelay (config name) (status name).consecutiveFailures))

namespace StdioProcessManager

section
variable (names : List String) (config : String → RestartConfig) (s : StdioProcessManager)

def setStatus (name : String) (p : ProcessStatus) : StdioProcessManager :=
  { s with status := Function.update s.status name p }

def setLoop (id : ℕ) (l : HealthLoop) : StdioProcessManager :=
  { s with loops := Function.update s.loops id l }

def setCall (id : ℕ) (c : ManagerCall) : StdioProcessManager :=
  { s with calls := Function.update s.calls id c }

/-- `self._shutdown_event.set()`. -/
def setShutdownEvent : StdioProcessManager :=
  { s with shutdownEvent := true, loops := fun id => (s.loops id).wake }

/-- The end of `start_all`. -/
def createLoop : StdioProcessManager :=
  { s with
    shutdownEvent := false
    healthTask := some s.nextLoop
    loops := Function.update s.loops s.nextLoop { phase := .created }
    nextLoop := s.nextLoop + 1 }

/-- `start_all` before the transports that are left. -/
def connectFrom (id : ℕ) : List String → StdioProcessManager
  | [] => s.createLoop.setCall id .idle
  | name :: rest => s.setCall id (.connecting name rest)

/-- `while not self._shutdown_event.is_set()`. -/
def nextIteration (id : ℕ) : StdioProcessManager :=
  s.setLoop id { phase := if s.shutdownEvent then .finished else .waiting false }

/-- The loop checks the transports from one on, and goes on to its next `await`. -/
def runChecks (id : ℕ) (healthy : String → Bool) (rest : List String) : StdioProcessManager :=
  match checkFrom config healthy rest s.status with
  | (status, .finished) => { s with status := status }.nextIteration id
  | (status, .restarting name rest (.ok delay)) =>
    { s with status := status }.setLoop id { phase := .sleeping name rest delay }
  | (status, .restarting _ _ (.error e)) =>
    { s with status := status }.setLoop id { phase := .died e }

/-- The step of a task, when it has one. -/
def step : ManagerAction → Option StdioProcessManager
  | .startAll id =>
    match s.calls id with
    | .idle => some (s.connectFrom id names)
    | _ => none
  | .connectEnds id ok =>
    match s.calls id with
    | .connecting name rest =>
      some ((s.setStatus name (if ok then (s.status name).foundUp
        else (s.status name).connectFailed)).connectFrom id rest)
    | _ => none
  | .loopStarts id =>
    match s.loops id with
    | ⟨.created, false⟩ => some (s.nextIteration id)
    | _ => none
  | .intervalElapsed id healthy =>
    match s.loops id with
    | ⟨.waiting _, false⟩ => some (s.runChecks config id healthy names)
    | _ => none
  | .shutdownNoticed id =>
    match s.loops id with
    | ⟨.waiting true, false⟩ => some (s.setLoop id {})
    | _ => none
  | .sleepEnds id =>
    match s.loops id with
    | ⟨.sleeping name rest _, false⟩ => some (s.setLoop id { phase := .reconnecting name rest })
    | _ => none
  | .reconnectEnds id ok healthy =>
    match s.loops id with
    | ⟨.reconnecting name rest, false⟩ =>
      some ((s.setStatus name (if ok then (s.status name).restarted
        else (s.status name).restartFailed)).runChecks config id healthy rest)
    | _ => none
  | .cancelSwallowed id =>
    match s.loops id with
    | ⟨.reconnecting name rest, true⟩ => some (s.setLoop id { phase := .reconnecting name rest })
    | _ => none
  | .loopCancelled id =>
    match s.loops id with
    | ⟨.created, true⟩ => some (s.setLoop id {})
    | ⟨.waiting _, true⟩ => some (s.setLoop id {})
    | ⟨.sleeping _ _ _, true⟩ => some (s.setLoop id {})
    | ⟨.reconnecting name _, true⟩ =>
      some ((s.setStatus name (s.status name).interrupted).setLoop id {})
    | _ => none
  | .shutdown id =>
    match s.calls id, s.healthTask with
    | .idle, none => some (s.setShutdownEvent.setCall id .disconnecting)
    | .idle, some loop =>
      some ((s.setShutdownEvent.setLoop loop
        { (s.loops loop).wake with cancelRequested := true }).setCall id (.stopping loop))
    | _, _ => none
  | .shutdownResumes id =>
    match s.calls id with
    | .stopping loop =>
      match (s.loops loop).phase with
      | .finished => some ({ s with healthTask := none }.setCall id .disconnecting)
      | .died _ => some (s.setCall id .idle)
      | _ => none
    | _ => none
  | .disconnected id =>
    match s.calls id with
    | .disconnecting => some (s.setCall id .idle)
    | _ => none
  | .signalled => some s.setShutdownEvent

end

end StdioProcessManager

end McpZero.Transport
