import McpZero.Analytics.Operations
import McpZero.Lib.Runs

/-! The collector at work: the flush loop, the heartbeat and `stop`, as a machine whose steps lead
from one `await` to the next. Redis succeeds, and the heartbeat does not touch the queue. -/
namespace McpZero.Analytics
open Python Governance Lib

/-- An event on the queue, with its number among those that were put there. -/
structure QueuedEvent extends TimedEvent where
  number : ℕ

/-- A call of `execute_pipeline`, with the batch that its operations are built from. -/
structure PipelineCall where
  batch : List QueuedEvent
  operations : List RedisOp

def PipelineCall.numbers (call : PipelineCall) : List ℕ := call.batch.map (·.number)

/-- Where `_flush_loop` waits. -/
inductive FlushLoop
  | created
  | sleeping
  | writing (call : PipelineCall)
  | finished

/-- Where `stop` waits. -/
inductive StopCall
  | notCalled
  | awaitingFlushLoop
  | awaitingHeartbeat
  | writing (call : PipelineCall)
  | disconnecting
  | returned
  | raised (exc : Exc)

namespace FlushLoop

def isWriting : FlushLoop → Bool
  | writing _ => true
  | _ => false

def batch : FlushLoop → List QueuedEvent
  | writing call => call.batch
  | _ => []

end FlushLoop

namespace StopCall

def isFinished : StopCall → Bool
  | returned | raised _ => true
  | _ => false

def batch : StopCall → List QueuedEvent
  | writing call => call.batch
  | _ => []

end StopCall

/-- `put` and the fields after it are the history: how many events were put on the queue, how
many of them while `stop` had not been called, the `execute_pipeline` calls that ran to completion,
the events that were drained but not written, and what `_build_operations` raised. -/
structure CollectorTasks where
  queueSize : ℤ
  queue : List QueuedEvent := []
  dropCount : ℕ := 0
  running : Bool := true
  connected : Bool := true
  flushLoop : FlushLoop := .created
  cancelRequested : Bool := false
  heartbeatFinished : Bool := false
  stop : StopCall := .notCalled
  put : ℕ := 0
  putBeforeStop : ℕ := 0
  completed : List PipelineCall := []
  lost : List QueuedEvent := []
  errors : List Exc := []

inductive CollectorAction
  | record (event : TimedEvent)
  | flushLoopStarts
  | flushLoopWakes
  | flushLoopWritten
  | flushLoopCancelled
  | heartbeatEnds
  | stop
  | stopResumes

/-- What `_flush` comes to at its first `await`. -/
inductive FlushOutcome
  | returned
  | raised (exc : Exc)
  | writing (call : PipelineCall)

namespace CollectorTasks

section

variable (config : AnalyticsConfig) (keys : KeyBuilder) (s : CollectorTasks)

/-- The collector as the hooks see it. -/
def collector : AnalyticsCollector where
  queueSize := s.queueSize
  queue := s.queue.map (·.toAnalyticsEvent)
  dropCount := s.dropCount

/-- `_enqueue`. -/
def enqueue (event : TimedEvent) : CollectorTasks :=
  if s.collector.full then { s with dropCount := s.dropCount + 1 }
  else
    { s with
      queue := s.queue ++ [{ toTimedEvent := event, number := s.put }]
      put := s.put + 1
      putBeforeStop := if s.running then s.put + 1 else s.putBeforeStop }

/-- `_flush` on the events that it has drained. A client that is not connected has nothing to
await, and neither has an empty pipeline. -/
def beginFlush (batch : List QueuedEvent) : FlushOutcome :=
  if batch.isEmpty then .returned
  else
    match buildOperations config keys (batch.map (·.toTimedEvent)) with
    | .error exc => .raised exc
    | .ok operations =>
      if !s.connected || operations.isEmpty then .returned else .writing ⟨batch, operations⟩

/-- The queue is drained. Only a batch that is being written is not lost. -/
def drain : FlushOutcome → CollectorTasks
  | .returned => { s with queue := [], lost := s.lost ++ s.queue }
  | .raised exc =>
    { s with queue := [], lost := s.lost ++ s.queue, errors := s.errors ++ [exc] }
  | .writing _ => { s with queue := [] }

/-- `while self._running`. -/
def nextIteration : CollectorTasks :=
  { s with flushLoop := if s.running then .sleeping else .finished }

/-- The flush loop after its sleep. What `_flush` raises is logged. -/
def wake : CollectorTasks :=
  match s.beginFlush config keys s.queue with
  | .writing call => { s.drain (.writing call) with flushLoop := .writing call }
  | outcome => (s.drain outcome).nextIteration

/-- The final flush of `stop`, which leaves with what it raises. -/
def finalFlush : CollectorTasks :=
  match s.beginFlush config keys s.queue with
  | .writing call => { s.drain (.writing call) with stop := .writing call }
  | .raised exc => { s.drain (.raised exc) with stop := .raised exc }
  | .returned => { s.drain .returned with stop := .disconnecting }

/-- `task.cancel()` reaches the flush loop at the `await` where it is. `CancelledError` is no
`Exception`: `execute_pipeline` lets it through, and the loop ends. -/
def interrupted : CollectorTasks :=
  { s with flushLoop := .finished, lost := s.lost ++ s.flushLoop.batch }

/-- The step of a task, when it has one. -/
def step : CollectorAction → Option CollectorTasks
  | .record event => some (s.enqueue event)
  | .flushLoopStarts =>
    match s.flushLoop, s.cancelRequested with
    | .created, false => some s.nextIteration
    | _, _ => none
  | .flushLoopWakes =>
    match s.flushLoop, s.cancelRequested with
    | .sleeping, false => some (s.wake config keys)
    | _, _ => none
  | .flushLoopWritten =>
    match s.flushLoop, s.cancelRequested with
    | .writing call, false => some { s with completed := s.completed ++ [call] }.nextIteration
    | _, _ => none
  | .flushLoopCancelled =>
    match s.flushLoop, s.cancelRequested with
    | .finished, _ => none
    | _, true => some s.interrupted
    | _, false => none
  | .heartbeatEnds =>
    match s.running with
    | true => none
    | false => some { s with heartbeatFinished := true }
  | .stop =>
    match s.running with
    | true => some { s with running := false, cancelRequested := true, stop := .awaitingFlushLoop }
    | false => some s
  | .stopResumes =>
    match s.stop, s.flushLoop, s.heartbeatFinished with
    | .awaitingFlushLoop, .finished, _ => some { s with stop := .awaitingHeartbeat }
    | .awaitingHeartbeat, _, true => some (s.finalFlush config keys)
    | .writing call, _, _ =>
      some { s with completed := s.completed ++ [call], stop := .disconnecting }
    | .disconnecting, _, _ => some { s with stop := .returned, connected := false }
    | _, _, _ => none

end

/-- The queue takes an event as the collector of the hooks does. -/
theorem enqueue_collector (s : CollectorTasks) (event : TimedEvent) :
    (s.enqueue event).collector =
      { s.collector.enqueue event.toAnalyticsEvent with recorded := [] } := by
  unfold enqueue AnalyticsCollector.enqueue
  split
  · rfl
  · simp [collector]

/-- After `start`. -/
def start (queueSize : ℤ) : CollectorTasks where
  queueSize := queueSize

end CollectorTasks

end McpZero.Analytics
