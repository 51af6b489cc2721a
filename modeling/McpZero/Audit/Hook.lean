import McpZero.Events.Bus
import McpZero.Pipeline.Hooks

/-! The audit hook. It works on its log, beside the world of the other hooks, in which it only
reads the clocks. -/
namespace McpZero.Audit
open Python Events

/-- The events in memory, the history of all events that were logged, and the world of the
event handlers. -/
structure AuditLog (η : Type) where
  events : List AuditEvent := []
  emitted : List AuditEvent := []
  handlers : η

/-- `monotonic` and `now` are the clocks, `reprFloat` is `repr` of a float. `includes` is empty
where the configuration names no fields. -/
structure AuditHook (η σ : Type) where
  includes : List String := []
  maxEvents : ℕ := 1000
  eventBus : Option (EventBus η) := none
  monotonic : σ → ℚ
  now : σ → String
  reprFloat : ℚ → String

/-- The class name of an exception. -/
def typeName : Exc → String
  | .shortCircuit _ _ => "ShortCircuitError"
  | .hook _ _ _ => "HookError"
  | .maskingEngine _ _ => "MaskingEngineError"
  | .identity t _ => t
  | .tokenExchange _ _ => "TokenExchangeError"
  | .routing _ _ => "RoutingError"
  | .upstream _ _ _ => "UpstreamError"
  | .proxyTimeout _ _ _ => "ProxyTimeoutError"
  | .timeout _ => "TimeoutError"
  | .transportConnection _ => "TransportConnectionError"
  | .transportTimeout _ => "TransportTimeoutError"
  | .transport t _ => t
  | .other t _ => t

namespace AuditHook

/-- `entity_counts[entity_type] += count`. -/
def addCount (entityType : String) (count : ℤ) : List (String × ℤ) → List (String × ℤ)
  | [] => [(entityType, count)]
  | (t, n) :: rest =>
    if t = entityType then (t, n + count) :: rest else (t, n) :: addCount entityType count rest

/-- `_build_masking_summary`. -/
def buildMaskingSummary (applied : Bool) (maskedFields : List String)
    (maskingEvents : List MaskingEvent) (maskingStageCompleted : Bool) : MaskingSummary where
  applied := applied
  entityTypes := maskingEvents.foldl
    (fun types e => if e.entityType ∈ types then types else types ++ [e.entityType]) []
  entityCounts := maskingEvents.foldl (fun counts e => addCount e.entityType e.count counts) []
  maskedFieldCount := maskedFields.length
  maskedFields := maskedFields
  failureCount := maskingEvents.countP (·.status = "failed")
  maskingStageCompleted := maskingStageCompleted

/-- One round of `_build_masking_event_summaries`. -/
def summarize (e : MaskingEvent) : MaskingEventSummary where
  entityType := e.entityType
  count := e.count
  status := if e.status = "failed" then "failed" else "success"

/-- `_measure_size`. -/
def measureSize (payload : Dict) : Except Exc ℕ := Json.payloadSize payload

variable {η σ : Type} (h : AuditHook η σ)

/-- The event of a context with the given sizes and clock readings. -/
def eventOf (ctx : HookContext) (eventType : AuditEventType) (requestSize responseSize : ℕ)
    (durationMs : ℚ) (timestamp : String) : AuditEvent where
  eventType := eventType
  correlationId := ctx.request.correlationId
  traceId := ctx.request.traceId
  userId := ctx.request.identity.elim "" (·.userId)
  userGroups := ctx.request.identity.elim [] (·.groups)
  serverName := ctx.serverName
  toolName := ctx.toolName
  policyDecision := decisionValue ctx.policyDecision
  policyRuleId := ctx.policyRuleId
  shortCircuited := ctx.shortCircuited
  shortCircuitReason := ctx.shortCircuitReason
  inputMasking := buildMaskingSummary ctx.maskingApplied ctx.maskedFields ctx.maskingEvents
    ctx.maskingStageCompleted
  outputMasking := buildMaskingSummary ctx.outputMaskingApplied ctx.outputMaskedFields []
    ctx.maskingStageCompleted
  durationMs := durationMs
  timestamp := timestamp
  transport := ctx.transport
  maskingEvents := ctx.maskingEvents.map summarize
  requestSizeBytes := requestSize
  responseSizeBytes := responseSize

/-- `_build_event`. -/
def buildEvent (ctx : HookContext) (eventType : AuditEventType) (s : σ) : Except Exc AuditEvent := do
  let requestSize ← measureSize ctx.requestPayload
  let responseSize ← measureSize ctx.responsePayload
  return eventOf ctx eventType requestSize responseSize ((h.monotonic s - ctx.startedAt) * 1000)
    (h.now s)

/-- What is logged of an event. -/
def jsonDict (event : AuditEvent) : Dict :=
  event.toJsonDict h.reprFloat (if h.includes = [] then none else some h.includes)

/-- `deque(maxlen=max_events or None)`. -/
def append (events : List AuditEvent) (event : AuditEvent) : List AuditEvent :=
  let events := events ++ [event]
  if h.maxEvents = 0 then events else events.drop (events.length - h.maxEvents)

/-- `_emit`. -/
def emit (event : AuditEvent) : Action (AuditLog η) Unit := fun log =>
  let log := { log with events := h.append log.events event }
  match Json.dumps (Json.defaultStr (.dict (h.jsonDict event))) with
  | .error e => (.error e, log)
  | .ok _ => (.ok (),
      { log with
        emitted := log.emitted ++ [event]
        handlers := h.eventBus.elim log.handlers (·.emit event log.handlers) })

def onPreAudit (ctx : HookContext) : Action (AuditLog η × σ) HookContext := fun s =>
  match h.buildEvent ctx .toolInvocation s.2 with
  | .error e => (.error e, s)
  | .ok event =>
    match h.emit event s.1 with
    | (.error e, log) => (.error e, (log, s.2))
    | (.ok (), log) =>
      if ctx.maskingApplied || ctx.outputMaskingApplied then
        match h.buildEvent ctx .maskingEvent s.2 with
        | .error e => (.error e, (log, s.2))
        | .ok maskingEvent =>
          match h.emit maskingEvent log with
          | (.error e, log) => (.error e, (log, s.2))
          | (.ok (), log) => (.ok ctx, (log, s.2))
      else (.ok ctx, (log, s.2))

/-- The type of the event for an exception. -/
def errorEventType (error : Exc) : AuditEventType :=
  if error.denies then .policyDecision else .error

def onError (ctx : HookContext) (error : Exc) : Action (AuditLog η × σ) Unit := fun s =>
  match h.buildEvent ctx (errorEventType error) s.2 with
  | .error e => (.error e, s)
  | .ok event =>
    let event := { event with errorType := typeName error, errorMessage := error.message }
    match h.emit event s.1 with
    | (.error e, log) => (.error e, (log, s.2))
    | (.ok (), log) => (.ok (), (log, s.2))

def toHook : Pipeline.LifecycleHook (AuditLog η × σ) where
  name := "AuditHook"
  onPreAudit := h.onPreAudit
  onError := h.onError

end AuditHook

end McpZero.Audit
