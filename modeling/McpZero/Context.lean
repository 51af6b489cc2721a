import McpZero.Python.Value

/-! The context threaded through a request. -/
namespace McpZero
open Python

structure UserIdentity where
  userId : String
  email : Option String := none
  groups : List String := []
  deriving DecidableEq

/-- `correlationId` is a fresh uuid in the source; here the caller supplies it. -/
structure RequestContext where
  correlationId : String
  traceId : Option String := none
  identity : Option UserIdentity := none
  rawToken : Option String := none
  deriving DecidableEq

inductive PolicyDecision
  | pending
  | allow
  | deny
  deriving DecidableEq

/-- One kind of entity masked in one text. -/
structure MaskingEvent where
  entityType : String
  count : ℤ
  status : String
  deriving DecidableEq

/-- `evolve` of the source is the structure update `{ctx with …}`. -/
structure HookContext where
  request : RequestContext
  requestPayload : Dict := []
  responsePayload : Dict := []
  serverName : String := ""
  toolName : String := ""
  policyDecision : PolicyDecision := .pending
  policyRuleId : Value := .str ""
  maskingApplied : Bool := false
  maskedFields : List String := []
  maskingEvents : List MaskingEvent := []
  outputMaskingApplied : Bool := false
  outputMaskedFields : List String := []
  maskingStageCompleted : Bool := false
  shortCircuited : Bool := false
  shortCircuitReason : Value := .str ""
  startedAt : ℚ := 0
  extras : Dict := []
  transport : String := ""

end McpZero
