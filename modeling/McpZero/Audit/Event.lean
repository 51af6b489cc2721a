import McpZero.Context
import McpZero.Python.Json

/-! Audit events and their JSON form. -/
namespace McpZero.Audit
open Python

inductive AuditEventType
  | toolInvocation
  | policyDecision
  | maskingEvent
  | error
  deriving DecidableEq

def AuditEventType.value : AuditEventType → String
  | toolInvocation => "mcp_tool_invocation"
  | policyDecision => "policy_decision"
  | maskingEvent => "masking_event"
  | error => "error"

/-- `PolicyDecision.value`. -/
def decisionValue : PolicyDecision → String
  | .pending => "pending"
  | .allow => "allow"
  | .deny => "deny"

structure MaskingEventSummary where
  entityType : String := ""
  count : ℤ := 0
  status : String := ""
  deriving DecidableEq

structure MaskingSummary where
  applied : Bool := false
  entityTypes : List String := []
  entityCounts : List (String × ℤ) := []
  maskedFieldCount : ℕ := 0
  maskedFields : List String := []
  failureCount : ℕ := 0
  maskingStageCompleted : Bool := false
  deriving DecidableEq

structure AuditEvent where
  eventType : AuditEventType
  correlationId : String := ""
  traceId : Option String := none
  userId : String := ""
  userGroups : List String := []
  serverName : String := ""
  toolName : String := ""
  policyDecision : String := ""
  policyRuleId : Value := .str ""
  shortCircuited : Bool := false
  shortCircuitReason : Value := .str ""
  inputMasking : MaskingSummary := {}
  outputMasking : MaskingSummary := {}
  durationMs : ℚ := 0
  errorType : String := ""
  errorMessage : String := ""
  timestamp : String := ""
  transport : String := ""
  maskingEvents : List MaskingEventSummary := []
  requestSizeBytes : ℕ := 0
  responseSizeBytes : ℕ := 0

namespace AuditEvent

def summaryDict (m : MaskingEventSummary) : Value :=
  .dict
    [(.str "entity_type", .str m.entityType),
     (.str "count", .int m.count),
     (.str "status", .str m.status)]

/-- All entries of the JSON form. `reprFloat` is `repr` of a float. -/
def jsonEntries (reprFloat : ℚ → String) (e : AuditEvent) : Dict :=
  [(.str "event_type", .str e.eventType.value),
   (.str "timestamp", .str e.timestamp),
   (.str "correlation_id", .str e.correlationId),
   (.str "trace_id", e.traceId.elim .none .str),
   (.str "user", .dict
     [(.str "user_id", .str e.userId),
      (.str "groups", .ofStrings e.userGroups)]),
   (.str "server_name", .str e.serverName),
   (.str "tool_name", .str e.toolName),
   (.str "transport", .str e.transport),
   (.str "policy_decision", .str e.policyDecision),
   (.str "policy_rule_id", e.policyRuleId),
   (.str "short_circuited", .bool e.shortCircuited),
   (.str "short_circuit_reason", e.shortCircuitReason),
   (.str "duration_ms", .scalar (.float ⟨.finite e.durationMs, reprFloat e.durationMs⟩)),
   (.str "request_size_bytes", .int e.requestSizeBytes),
   (.str "response_size_bytes", .int e.responseSizeBytes),
   (.str "masking_events", .list (e.maskingEvents.map summaryDict)),
   (.str "error_type", .str e.errorType),
   (.str "error_message", .str e.errorMessage)]

def alwaysIncluded : List String := ["event_type", "timestamp", "correlation_id"]

/-- `to_json_dict`. -/
def toJsonDict (reprFloat : ℚ → String) (includes : Option (List String)) (e : AuditEvent) : Dict :=
  match includes with
  | none => e.jsonEntries reprFloat
  | some keys => (e.jsonEntries reprFloat).filter fun entry =>
      (keys ++ alwaysIncluded).any fun key => entry.1 == .str key

end AuditEvent

end McpZero.Audit
