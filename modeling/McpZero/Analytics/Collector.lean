import McpZero.Python.Value

/-! The analytics collector as the hooks see it: a bounded queue of events, without time stamps and
without the tasks that drain it. -/
namespace McpZero.Analytics
open Python

inductive EventType
  | toolCall
  | denial
  | redaction
  | outputRedaction
  | maskingFailure
  | error
  deriving DecidableEq

/-- The time stamp is left out. -/
structure AnalyticsEvent where
  eventType : EventType
  server : String := ""
  tool : String := ""
  userId : String := ""
  ruleId : Value := .str ""
  entityType : String := ""
  count : ℤ := 1
  durationMs : ℚ := 0
  requestBytes : ℕ := 0
  responseBytes : ℕ := 0
  transport : String := ""
  reason : String := ""
  direction : String := ""

/-- `recorded` is the history of the collector: all events handed to `_enqueue`, in order, also
those that found the queue full. -/
structure AnalyticsCollector where
  queueSize : ℤ
  queue : List AnalyticsEvent := []
  dropCount : ℕ := 0
  recorded : List AnalyticsEvent := []

namespace AnalyticsCollector

variable (c : AnalyticsCollector)

/-- `asyncio.Queue.full`: a queue without a positive size is unbounded. -/
def full : Bool := 0 < c.queueSize && c.queueSize ≤ c.queue.length

/-- `_enqueue`. -/
def enqueue (event : AnalyticsEvent) : AnalyticsCollector :=
  if c.full then { c with dropCount := c.dropCount + 1, recorded := c.recorded ++ [event] }
  else { c with queue := c.queue ++ [event], recorded := c.recorded ++ [event] }

def recordToolCall (server tool userId : String) (durationMs : ℚ)
    (requestBytes responseBytes : ℕ) (transport : String) : AnalyticsCollector :=
  c.enqueue
    { eventType := .toolCall, server := server, tool := tool, userId := userId,
      durationMs := durationMs, requestBytes := requestBytes, responseBytes := responseBytes,
      transport := transport }

def recordDenial (server tool userId : String) (ruleId : Value) (reason : String) :
    AnalyticsCollector :=
  c.enqueue
    { eventType := .denial, server := server, tool := tool, userId := userId, ruleId := ruleId,
      reason := reason }

def recordRedaction (server tool entityType : String) (count : ℤ) : AnalyticsCollector :=
  c.enqueue
    { eventType := .redaction, server := server, tool := tool, entityType := entityType,
      count := count }

def recordOutputRedaction (server tool entityType : String) (count : ℤ) : AnalyticsCollector :=
  c.enqueue
    { eventType := .outputRedaction, server := server, tool := tool, entityType := entityType,
      count := count }

def recordMaskingFailure (server tool direction : String) : AnalyticsCollector :=
  c.enqueue
    { eventType := .maskingFailure, server := server, tool := tool, direction := direction }

def recordError (server tool : String) : AnalyticsCollector :=
  c.enqueue { eventType := .error, server := server, tool := tool }

@[simp] theorem enqueue_recorded (event : AnalyticsEvent) :
    (c.enqueue event).recorded = c.recorded ++ [event] := by
  unfold enqueue
  split <;> rfl

@[simp] theorem enqueue_queueSize (event : AnalyticsEvent) :
    (c.enqueue event).queueSize = c.queueSize := by
  unfold enqueue
  split <;> rfl

/-- The queue never holds more than its size, and a full queue drops what is new. -/
theorem enqueue_bounded (event : AnalyticsEvent) (hpos : 0 < c.queueSize)
    (h : c.queue.length ≤ c.queueSize) :
    ((c.enqueue event).queue.length : ℤ) ≤ (c.enqueue event).queueSize := by
  rw [enqueue_queueSize]
  by_cases hfull : c.queueSize ≤ c.queue.length
  · simpa [enqueue, full, hpos, hfull] using h
  · simp [enqueue, full, hpos, hfull]
    omega

/-- A queue without bound holds whatever is handed to it. -/
theorem enqueue_of_unbounded (event : AnalyticsEvent) (h : c.queueSize ≤ 0) :
    (c.enqueue event).queue = c.queue ++ [event] := by
  have hfull : c.full = false := by
    simp only [full, Bool.and_eq_false_iff, decide_eq_false_iff_not]
    omega
  simp [enqueue, hfull]

end AnalyticsCollector

end McpZero.Analytics
