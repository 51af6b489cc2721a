import McpZero.Analytics.Collector
import McpZero.Analytics.Keys
import McpZero.Analytics.Redis
import McpZero.Governance.Config

/-! How a batch of events becomes a pipeline. The counters are one family of hashes for each
category and dimension. -/
namespace McpZero.Analytics
open Python Governance

/-- An event with its time stamp. -/
structure TimedEvent extends AnalyticsEvent where
  timestamp : ℚ

/-- `f"{event.server}::{event.tool}"`. -/
def TimedEvent.toolField (event : TimedEvent) : String := event.server ++ "::" ++ event.tool

/-- `d[key] = v`. A new key comes last. -/
def setItem {κ ν : Type} [DecidableEq κ] (key : κ) (v : ν) : List (κ × ν) → List (κ × ν)
  | [] => [(key, v)]
  | (k, w) :: d => if k = key then (k, v) :: d else (k, w) :: setItem key v d

/-- The longest duration of a key so far. -/
def raiseMax (key : String × String) (duration : ℤ) (maxes : List ((String × String) × ℤ)) :
    List ((String × String) × ℤ) :=
  if (maxes.lookup key).getD 0 < duration then setItem key duration maxes else maxes

/-- `ops`, `keys_seen` and `latency_maxes` of `_build_operations`. -/
structure Pending where
  ops : List RedisOp := []
  keysSeen : List String := []
  latencyMaxes : List ((String × String) × ℤ) := []

namespace Pending

variable (ttl : ℤ)

/-- A write, and `EXPIRE` after the first one of a key. -/
def push (op : RedisOp) (p : Pending) : Pending :=
  if op.key ∈ p.keysSeen then { p with ops := p.ops ++ [op] }
  else { p with ops := p.ops ++ [op, .expire op.key ttl], keysSeen := op.key :: p.keysSeen }

def pushAll (ops : List RedisOp) (p : Pending) : Pending := ops.foldl (fun p op => p.push ttl op) p

def trackMax (key : String × String) (duration : ℤ) (p : Pending) : Pending :=
  { p with latencyMaxes := raiseMax key duration p.latencyMaxes }

end Pending

section

variable (config : AnalyticsConfig) (keys : KeyBuilder)

/-- `_hincrby`. -/
def hincrby (category dimension : String) (bid : ℤ) (field : Value) (increment : ℤ)
    (p : Pending) : Pending :=
  p.push config.retentionSeconds (.hincrby (keys.bucketKey category dimension bid) field increment)

/-- `_hincrby` under an `if`. -/
def hincrbyIf (c : Prop) [Decidable c] (category dimension : String) (bid : ℤ) (field : Value)
    (increment : ℤ) (p : Pending) : Pending :=
  if c then hincrby config keys category dimension bid field increment p else p

/-- The latency of a `tool_call`. -/
def addLatency (bid : ℤ) (event : TimedEvent) (p : Pending) : Pending :=
  if 0 < event.durationMs then
    let durationInt := truncate event.durationMs
    let p := hincrby config keys "latency" "sum" bid (.str event.toolField) durationInt p
    let p := hincrby config keys "latency" "count" bid (.str event.toolField) 1 p
    p.trackMax (keys.bucketKey "latency" "max" bid, event.toolField) durationInt
  else p

/-- The branch of `tool_call`. -/
def addToolCall (bid : ℤ) (event : TimedEvent) (p : Pending) : Pending :=
  let p := hincrby config keys "calls" "tool" bid (.str event.toolField) 1 p
  let p := hincrby config keys "calls" "server" bid (.str event.server) 1 p
  let p := hincrbyIf config keys (event.userId ≠ "") "calls" "user" bid (.str event.userId) 1 p
  let p := hincrbyIf config keys (event.transport ≠ "") "calls" "transport" bid
    (.str event.transport) 1 p
  let p := addLatency config keys bid event p
  let p := hincrbyIf config keys (0 < event.requestBytes) "sizes" "request" bid
    (.str event.toolField) event.requestBytes p
  hincrbyIf config keys (0 < event.responseBytes) "sizes" "response" bid
    (.str event.toolField) event.responseBytes p

/-- The branch of `denial`. -/
def addDenial (bid : ℤ) (event : TimedEvent) (p : Pending) : Pending :=
  let p := hincrby config keys "denials" "tool" bid (.str event.toolField) 1 p
  let p := hincrbyIf config keys event.ruleId.truthy "denials" "rule" bid event.ruleId 1 p
  let p := hincrbyIf config keys (event.userId ≠ "") "denials" "user" bid (.str event.userId) 1 p
  hincrbyIf config keys (event.reason ≠ "") "denials" "reason" bid (.str event.reason) 1 p

/-- The branches of `redaction` and `output_redaction`, which differ in the dimension. -/
def addRedaction (dimension : String) (bid : ℤ) (event : TimedEvent) (p : Pending) : Pending :=
  let p := hincrby config keys "redactions" dimension bid (.str event.entityType) event.count p
  hincrby config keys "redactions" "tool" bid (.str event.toolField) event.count p

/-- The loop body of `_build_operations`. -/
def addEvent (p : Pending) (event : TimedEvent) : Except Exc Pending := do
  let bid ← KeyBuilder.bucketId config.bucketSeconds event.timestamp
  return match event.eventType with
  | .toolCall => addToolCall config keys bid event p
  | .denial => addDenial config keys bid event p
  | .redaction => addRedaction config keys "input" bid event p
  | .outputRedaction => addRedaction config keys "output" bid event p
  | .maskingFailure => hincrby config keys "redactions" "fail" bid (.str event.direction) 1 p
  | .error => hincrby config keys "errors" "tool" bid (.str event.toolField) 1 p

/-- `HSET` of one longest duration. -/
def hsetMax (e : (String × String) × ℤ) : RedisOp :=
  .hset e.1.1 [(e.1.2, .str (toString e.2))]

/-- `_build_operations`. -/
def buildOperations (events : List TimedEvent) : Except Exc (List RedisOp) := do
  let p ← events.foldlM (addEvent config keys) {}
  return (p.pushAll config.retentionSeconds (p.latencyMaxes.map hsetMax)).ops

end

/-! The counters that the events have -/

inductive CounterFamily
  | callsTool | callsServer | callsUser | callsTransport
  | latencySum | latencyCount
  | sizesRequest | sizesResponse
  | denialsTool | denialsRule | denialsUser | denialsReason
  | redactionsInput | redactionsOutput | redactionsTool | redactionsFail
  | errorsTool
  deriving DecidableEq

namespace CounterFamily

def all : List CounterFamily :=
  [callsTool, callsServer, callsUser, callsTransport, latencySum, latencyCount, sizesRequest,
    sizesResponse, denialsTool, denialsRule, denialsUser, denialsReason, redactionsInput,
    redactionsOutput, redactionsTool, redactionsFail, errorsTool]

def category : CounterFamily → String
  | callsTool | callsServer | callsUser | callsTransport => "calls"
  | latencySum | latencyCount => "latency"
  | sizesRequest | sizesResponse => "sizes"
  | denialsTool | denialsRule | denialsUser | denialsReason => "denials"
  | redactionsInput | redactionsOutput | redactionsTool | redactionsFail => "redactions"
  | errorsTool => "errors"

def dimension : CounterFamily → String
  | callsTool | denialsTool | redactionsTool | errorsTool => "tool"
  | callsServer => "server"
  | callsUser | denialsUser => "user"
  | callsTransport => "transport"
  | latencySum => "sum"
  | latencyCount => "count"
  | sizesRequest => "request"
  | sizesResponse => "response"
  | denialsRule => "rule"
  | denialsReason => "reason"
  | redactionsInput => "input"
  | redactionsOutput => "output"
  | redactionsFail => "fail"

/-- The field that an event counts for, and how much. -/
def amount (event : TimedEvent) : CounterFamily → Option (Value × ℤ)
  | callsTool =>
    if event.eventType = .toolCall then some (.str event.toolField, 1) else none
  | callsServer =>
    if event.eventType = .toolCall then some (.str event.server, 1) else none
  | callsUser =>
    if event.eventType = .toolCall ∧ event.userId ≠ "" then some (.str event.userId, 1) else none
  | callsTransport =>
    if event.eventType = .toolCall ∧ event.transport ≠ "" then
      some (.str event.transport, 1) else none
  | latencySum =>
    if event.eventType = .toolCall ∧ 0 < event.durationMs then
      some (.str event.toolField, truncate event.durationMs) else none
  | latencyCount =>
    if event.eventType = .toolCall ∧ 0 < event.durationMs then
      some (.str event.toolField, 1) else none
  | sizesRequest =>
    if event.eventType = .toolCall ∧ 0 < event.requestBytes then
      some (.str event.toolField, event.requestBytes) else none
  | sizesResponse =>
    if event.eventType = .toolCall ∧ 0 < event.responseBytes then
      some (.str event.toolField, event.responseBytes) else none
  | denialsTool =>
    if event.eventType = .denial then some (.str event.toolField, 1) else none
  | denialsRule =>
    if event.eventType = .denial ∧ event.ruleId.truthy then some (event.ruleId, 1) else none
  | denialsUser =>
    if event.eventType = .denial ∧ event.userId ≠ "" then some (.str event.userId, 1) else none
  | denialsReason =>
    if event.eventType = .denial ∧ event.reason ≠ "" then some (.str event.reason, 1) else none
  | redactionsInput =>
    if event.eventType = .redaction then some (.str event.entityType, event.count) else none
  | redactionsOutput =>
    if event.eventType = .outputRedaction then some (.str event.entityType, event.count) else none
  | redactionsTool =>
    if event.eventType = .redaction ∨ event.eventType = .outputRedaction then
      some (.str event.toolField, event.count) else none
  | redactionsFail =>
    if event.eventType = .maskingFailure then some (.str event.direction, 1) else none
  | errorsTool =>
    if event.eventType = .error then some (.str event.toolField, 1) else none

def key (keys : KeyBuilder) (bid : ℤ) (F : CounterFamily) : String :=
  keys.bucketKey F.category F.dimension bid

end CounterFamily

def TimedEvent.bucket (bucketSeconds : ℤ) (event : TimedEvent) : ℤ :=
  (truncate event.timestamp).fdiv bucketSeconds

section

variable (keys : KeyBuilder) (bid : ℤ) (event : TimedEvent)

/-- The increments that an event has, family by family. -/
def increments : List RedisOp :=
  CounterFamily.all.filterMap fun F =>
    (F.amount event).map fun c => .hincrby (F.key keys bid) c.1 c.2

/-- The event's part in the longest durations. -/
def raiseLatency (maxes : List ((String × String) × ℤ)) : List ((String × String) × ℤ) :=
  if event.eventType = .toolCall ∧ 0 < event.durationMs then
    raiseMax (keys.bucketKey "latency" "max" bid, event.toolField) (truncate event.durationMs) maxes
  else maxes

end

section

variable (config : AnalyticsConfig) (keys : KeyBuilder) (events : List TimedEvent)

def batchIncrements : List RedisOp :=
  events.flatMap fun event => increments keys (event.bucket config.bucketSeconds) event

def batchMaxes (maxes : List ((String × String) × ℤ)) : List ((String × String) × ℤ) :=
  events.foldl (fun maxes event =>
    raiseLatency keys (event.bucket config.bucketSeconds) event maxes) maxes

/-- What a batch writes: its increments, and then its longest durations. -/
def batchWrites : List RedisOp :=
  batchIncrements config keys events ++ (batchMaxes config keys events []).map hsetMax

end

namespace Pending

variable {ttl : ℤ} {p : Pending}

theorem pushAll_append (ops ops' : List RedisOp) :
    p.pushAll ttl (ops ++ ops') = (p.pushAll ttl ops).pushAll ttl ops' := List.foldl_append

theorem push_withMaxes (op : RedisOp) (maxes : List ((String × String) × ℤ)) :
    ({ p with latencyMaxes := maxes } : Pending).push ttl op =
      { p.push ttl op with latencyMaxes := maxes } := by
  unfold push
  split_ifs <;> rfl

variable (ttl p) in
theorem pushAll_withMaxes (ops : List RedisOp) (maxes : List ((String × String) × ℤ)) :
    ({ p with latencyMaxes := maxes } : Pending).pushAll ttl ops =
      { p.pushAll ttl ops with latencyMaxes := maxes } := by
  induction ops generalizing p with
  | nil => rfl
  | cons op ops ih =>
    change (({ p with latencyMaxes := maxes } : Pending).push ttl op).pushAll ttl ops = _
    rw [push_withMaxes, ih]
    rfl

theorem push_latencyMaxes (op : RedisOp) : (p.push ttl op).latencyMaxes = p.latencyMaxes := by
  unfold push
  split_ifs <;> rfl

theorem pushAll_latencyMaxes (ops : List RedisOp) :
    (p.pushAll ttl ops).latencyMaxes = p.latencyMaxes := by
  induction ops generalizing p with
  | nil => rfl
  | cons op ops ih => exact ih.trans (push_latencyMaxes op)

end Pending

variable {config : AnalyticsConfig} {keys : KeyBuilder} {bid : ℤ} {event : TimedEvent} {p : Pending}

theorem hincrbyIf_trackMax (c : Prop) [Decidable c] (category dimension : String) (bid' : ℤ)
    (field : Value) (increment : ℤ) (key : String × String) (duration : ℤ) :
    hincrbyIf config keys c category dimension bid' field increment (p.trackMax key duration) =
      (hincrbyIf config keys c category dimension bid' field increment p).trackMax key duration := by
  unfold hincrbyIf hincrby Pending.trackMax
  split_ifs
  · rw [Pending.push_withMaxes, Pending.push_latencyMaxes]
  · rfl

/-- The increments of an event, as a loop over the families. -/
theorem pushAll_increments :
    p.pushAll config.retentionSeconds (increments keys bid event) =
      CounterFamily.all.foldl (fun p F => (F.amount event).elim p fun c =>
        hincrby config keys F.category F.dimension bid c.1 c.2 p) p := by
  rw [increments, Pending.pushAll, List.foldl_filterMap]
  congr 1
  funext p F
  cases F.amount event <;> rfl

theorem elim_ite (c : Prop) [Decidable c] (category dimension : String) (field : Value)
    (increment : ℤ) :
    (if c then some (field, increment) else none).elim p
        (fun c => hincrby config keys category dimension bid c.1 c.2 p) =
      hincrbyIf config keys c category dimension bid field increment p := by
  unfold hincrbyIf
  split_ifs <;> rfl

theorem hincrbyIf_true (category dimension : String) (field : Value) (increment : ℤ) :
    hincrbyIf config keys True category dimension bid field increment p =
      hincrby config keys category dimension bid field increment p := if_pos trivial

theorem hincrbyIf_false (category dimension : String) (field : Value) (increment : ℤ) :
    hincrbyIf config keys False category dimension bid field increment p = p := if_neg not_false

theorem addLatency_eq :
    addLatency config keys bid event p =
      if 0 < event.durationMs then
        (hincrbyIf config keys (0 < event.durationMs) "latency" "count" bid (.str event.toolField) 1
          (hincrbyIf config keys (0 < event.durationMs) "latency" "sum" bid (.str event.toolField)
            (truncate event.durationMs) p)).trackMax
          (keys.bucketKey "latency" "max" bid, event.toolField) (truncate event.durationMs)
      else
        hincrbyIf config keys (0 < event.durationMs) "latency" "count" bid (.str event.toolField) 1
          (hincrbyIf config keys (0 < event.durationMs) "latency" "sum" bid (.str event.toolField)
            (truncate event.durationMs) p) := by
  unfold addLatency hincrbyIf
  split_ifs <;> rfl

/-- An event adds its increments, and its duration is tracked. -/
theorem addEvent_eq (hne : config.bucketSeconds ≠ 0) :
    addEvent config keys p event =
      .ok { p.pushAll config.retentionSeconds
          (increments keys (event.bucket config.bucketSeconds) event) with
        latencyMaxes :=
          raiseLatency keys (event.bucket config.bucketSeconds) event p.latencyMaxes } := by
  have hbucket : KeyBuilder.bucketId config.bucketSeconds event.timestamp =
      .ok (event.bucket config.bucketSeconds) := if_neg hne
  unfold addEvent
  rw [hbucket, ← Pending.pushAll_latencyMaxes (increments keys _ event), pushAll_increments]
  generalize event.bucket config.bucketSeconds = bid
  -- One case for each branch: the families that do not count the event fall away.
  cases hkind : event.eventType
  all_goals simp only [raiseLatency, CounterFamily.all, List.foldl_cons, List.foldl_nil,
    CounterFamily.amount, hkind, elim_ite, reduceCtorEq, true_and, false_and, or_false, false_or,
    hincrbyIf_true, hincrbyIf_false]
  case toolCall =>
    simp only [addToolCall, addLatency_eq]
    split_ifs
    · simp only [hincrbyIf_trackMax]
      rfl
    · rfl
  all_goals rfl

theorem foldlM_addEvent (hne : config.bucketSeconds ≠ 0) (events : List TimedEvent) :
    events.foldlM (addEvent config keys) p =
      .ok { p.pushAll config.retentionSeconds (batchIncrements config keys events) with
        latencyMaxes := batchMaxes config keys events p.latencyMaxes } := by
  induction events generalizing p with
  | nil => rfl
  | cons event events ih =>
    rw [List.foldlM_cons, addEvent_eq hne]
    change events.foldlM (addEvent config keys) _ = _
    rw [ih, Pending.pushAll_withMaxes, ← Pending.pushAll_append]
    rfl

/-- The pipeline of a batch: what it writes, with `EXPIRE` after the first write of a key. -/
theorem buildOperations_eq (hne : config.bucketSeconds ≠ 0) (events : List TimedEvent) :
    buildOperations config keys events =
      .ok (({} : Pending).pushAll config.retentionSeconds (batchWrites config keys events)).ops := by
  rw [buildOperations, foldlM_addEvent hne, batchWrites, Pending.pushAll_append]
  have hops := congrArg Pending.ops (Pending.pushAll_withMaxes config.retentionSeconds
    (({} : Pending).pushAll config.retentionSeconds (batchIncrements config keys events))
    ((batchMaxes config keys events []).map hsetMax) (batchMaxes config keys events []))
  exact congrArg Except.ok hops

/-- With buckets of no width there is no pipeline. -/
theorem buildOperations_of_zero (hzero : config.bucketSeconds = 0) (event : TimedEvent)
    (events : List TimedEvent) :
    buildOperations config keys (event :: events) = .error zeroDivision := by
  have hbucket : KeyBuilder.bucketId config.bucketSeconds event.timestamp = .error zeroDivision :=
    if_pos hzero
  have hevent : addEvent config keys {} event = .error zeroDivision := by
    rw [addEvent, hbucket]
    rfl
  rw [buildOperations, List.foldlM_cons, hevent]
  rfl

theorem eq_of_buildOperations {events : List TimedEvent} {ops : List RedisOp}
    (hops : buildOperations config keys events = .ok ops) :
    ops = (({} : Pending).pushAll config.retentionSeconds (batchWrites config keys events)).ops := by
  by_cases hzero : config.bucketSeconds = 0
  · cases events with
    | nil => exact (Except.ok.inj hops).symm
    | cons event events =>
      rw [buildOperations_of_zero hzero] at hops
      cases hops
  · rw [buildOperations_eq hzero] at hops
    exact (Except.ok.inj hops).symm

theorem Pending.pushAll_ops_ne_nil {ttl : ℤ} {ops : List RedisOp} (h : p.ops ≠ [] ∨ ops ≠ []) :
    (p.pushAll ttl ops).ops ≠ [] := by
  induction ops generalizing p with
  | nil => exact h.resolve_right fun hne => hne rfl
  | cons op ops ih =>
    refine ih (p := p.push ttl op) (.inl ?_)
    unfold Pending.push
    split_ifs <;> simp

/-- Every event counts somewhere. -/
theorem increments_ne_nil : increments keys bid event ≠ [] := by
  have hcounted : ∃ F ∈ CounterFamily.all, F.amount event ≠ none := by
    cases hkind : event.eventType with
    | toolCall => exact ⟨.callsTool, by decide, by simp [CounterFamily.amount, hkind]⟩
    | denial => exact ⟨.denialsTool, by decide, by simp [CounterFamily.amount, hkind]⟩
    | redaction => exact ⟨.redactionsTool, by decide, by simp [CounterFamily.amount, hkind]⟩
    | outputRedaction => exact ⟨.redactionsTool, by decide, by simp [CounterFamily.amount, hkind]⟩
    | maskingFailure => exact ⟨.redactionsFail, by decide, by simp [CounterFamily.amount, hkind]⟩
    | error => exact ⟨.errorsTool, by decide, by simp [CounterFamily.amount, hkind]⟩
  obtain ⟨F, hF, hamount⟩ := hcounted
  obtain ⟨c, hc⟩ := Option.ne_none_iff_exists'.mp hamount
  have hmem : .hincrby (F.key keys bid) c.1 c.2 ∈ increments keys bid event :=
    List.mem_filterMap.mpr ⟨F, hF, by rw [hc, Option.map_some]⟩
  exact List.ne_nil_of_mem hmem

/-- The pipeline of a batch that is not empty has commands. -/
theorem operations_ne_nil {events : List TimedEvent} {ops : List RedisOp} (hne : events ≠ [])
    (hops : buildOperations config keys events = .ok ops) : ops ≠ [] := by
  obtain ⟨event, events, rfl⟩ := List.exists_cons_of_ne_nil hne
  rw [eq_of_buildOperations hops]
  refine Pending.pushAll_ops_ne_nil (.inr ?_)
  rw [batchWrites, batchIncrements, List.flatMap_cons]
  simp [increments_ne_nil]

end McpZero.Analytics
