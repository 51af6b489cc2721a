import McpZero.Analytics.Collector
import McpZero.Lib.Except
import McpZero.Pipeline.Observer
import McpZero.Python.JsonWritable
import McpZero.Python.Unicode

/-! The analytics hook. It works on its collector, beside the world of the other hooks, in which
it only reads the clock. -/
namespace McpZero.Analytics
open Python Lib Pipeline

/-- `monotonic` is `time.monotonic`. -/
structure AnalyticsHook (σ : Type) where
  unicode : Unicode
  monotonic : σ → ℚ

namespace AnalyticsHook

variable {σ : Type} (h : AnalyticsHook σ)

def userId (ctx : HookContext) : String := ctx.request.identity.elim "" (·.userId)

/-- `_measure_size`. -/
def measureSize (payload : Dict) : Except Exc ℕ := Json.payloadSize payload

/-- One round of the loop over the masking events. -/
def recordMasking (ctx : HookContext) (collector : AnalyticsCollector) (event : MaskingEvent) :
    AnalyticsCollector :=
  if event.status = "failed" then
    collector.recordMaskingFailure ctx.serverName ctx.toolName "input"
  else collector.recordRedaction ctx.serverName ctx.toolName event.entityType event.count

/-- What `on_pre_audit` records once it has the sizes. -/
def recordCall (ctx : HookContext) (durationMs : ℚ) (requestBytes responseBytes : ℕ)
    (collector : AnalyticsCollector) : AnalyticsCollector :=
  let collector := collector.recordToolCall ctx.serverName ctx.toolName (userId ctx) durationMs
    requestBytes responseBytes ctx.transport
  let collector := ctx.maskingEvents.foldl (recordMasking ctx) collector
  if ctx.outputMaskingApplied then
    collector.recordOutputRedaction ctx.serverName ctx.toolName "_aggregate"
      ctx.outputMaskedFields.length
  else collector

def onPreAudit (ctx : HookContext) : Action (AnalyticsCollector × σ) HookContext := fun s =>
  let durationMs := (h.monotonic s.2 - ctx.startedAt) * 1000
  match measureSize ctx.requestPayload with
  | .error e => (.error e, s)
  | .ok requestBytes =>
    match measureSize ctx.responsePayload with
    | .error e => (.error e, s)
    | .ok responseBytes =>
      (.ok ctx, (recordCall ctx durationMs requestBytes responseBytes s.1, s.2))

/-- `_categorize_denial`. -/
def categorizeDenial (ctx : HookContext) (error : Exc) : Except Exc String :=
  let reasonText :=
    if ctx.shortCircuitReason.truthy then ctx.shortCircuitReason else .str error.message
  match reasonText with
  | .str reasonText =>
    let lower := h.unicode.lower reasonText
    if hasSubstring lower "identity" || hasSubstring lower "token" ||
        hasSubstring lower "authen" then .ok "no_identity"
    else if hasSubstring lower "mask" then .ok "masking_failed"
    else .ok "policy_deny"
  -- bytes have a `lower`, but no string can be looked up in what it gives
  | .bytes _ => .error (.other "TypeError" "a bytes-like object is required, not 'str'")
  | v => .error (.other "AttributeError" ("'" ++ v.typeName ++ "' object has no attribute 'lower'"))

def onError (ctx : HookContext) (error : Exc) : Action (AnalyticsCollector × σ) Unit := fun s =>
  if error.denies then
    match h.categorizeDenial ctx error with
    | .error e => (.error e, s)
    | .ok reason =>
      (.ok (), s.1.recordDenial ctx.serverName ctx.toolName (userId ctx) ctx.policyRuleId reason,
        s.2)
  else (.ok (), s.1.recordError ctx.serverName ctx.toolName, s.2)

def toHook : LifecycleHook (AnalyticsCollector × σ) where
  name := "AnalyticsHook"
  onPreAudit := h.onPreAudit
  onError := h.onError

/-- Both payloads of the context have a size. -/
def Measured (ctx : HookContext) : Prop :=
  (measureSize ctx.requestPayload).isOk ∧ (measureSize ctx.responsePayload).isOk

instance (ctx : HookContext) : Decidable (Measured ctx) := inferInstanceAs (Decidable (_ ∧ _))

theorem measured_iff {ctx : HookContext} : Measured ctx ↔
    ∃ n m, measureSize ctx.requestPayload = .ok n ∧ measureSize ctx.responsePayload = .ok m := by
  unfold Measured
  cases measureSize ctx.requestPayload with
  | error e => simp [Except.isOk, Except.toBool]
  | ok n => cases measureSize ctx.responsePayload <;> simp [Except.isOk, Except.toBool]

/-- What the hook does to its collector before the audit. -/
def note (ctx : HookContext) (s : σ) (collector : AnalyticsCollector) : AnalyticsCollector :=
  match measureSize ctx.requestPayload, measureSize ctx.responsePayload with
  | .ok requestBytes, .ok responseBytes =>
    recordCall ctx ((h.monotonic s - ctx.startedAt) * 1000) requestBytes responseBytes collector
  | _, _ => collector

/-- What the hook does to its collector on an error. -/
def recordFailure (ctx : HookContext) (error : Exc) (collector : AnalyticsCollector) :
    AnalyticsCollector :=
  if error.denies then
    match h.categorizeDenial ctx error with
    | .error _ => collector
    | .ok reason =>
      collector.recordDenial ctx.serverName ctx.toolName (userId ctx) ctx.policyRuleId reason
  else collector.recordError ctx.serverName ctx.toolName

/-- A failure that is no denial, or a denial with a category. -/
def Categorized (ctx : HookContext) (error : Exc) : Prop :=
  error.denies = true → ∃ reason, h.categorizeDenial ctx error = .ok reason

theorem observes : Observes h.toHook Measured h.note fun ctx e _ => h.recordFailure ctx e where
  idle p ctx w hp := by
    cases p with
    | preAudit => exact absurd rfl hp
    | _ => rfl
  preAudit ctx w := by
    simp only [toHook, onPreAudit, note]
    cases measureSize ctx.requestPayload with
    | error e => rfl
    | ok n => cases measureSize ctx.responsePayload <;> rfl
  accepted ctx w hmeasured := by
    obtain ⟨n, m, hn, hm⟩ := measured_iff.mp hmeasured
    simp only [toHook, onPreAudit, hn, hm]
  refused ctx w hmeasured := by
    simp only [toHook, onPreAudit]
    cases hn : measureSize ctx.requestPayload with
    | error e => exact ⟨e, rfl⟩
    | ok n =>
      cases hm : measureSize ctx.responsePayload with
      | error e => exact ⟨e, rfl⟩
      | ok m => exact absurd (measured_iff.mpr ⟨n, m, hn, hm⟩) hmeasured
  onError ctx e w := by
    simp only [toHook, onError, recordFailure]
    cases e.denies with
    | false => rfl
    | true => cases h.categorizeDenial ctx e <;> rfl

/-- The hook never short-circuits. -/
theorem onPreAudit_avoids (ctx : HookContext) (w : AnalyticsCollector × σ) :
    Avoids Exc.IsShortCircuit (h.onPreAudit ctx w).1 := by
  intro e he
  unfold onPreAudit at he
  dsimp only at he
  split at he
  · rename_i hsize
    cases he
    exact Json.payloadSize_avoids _ _ hsize
  · split at he
    · rename_i hsize
      cases he
      exact Json.payloadSize_avoids _ _ hsize
    · cases he

/-- A reason has a category exactly if it is a string, or is empty and replaced by one. -/
theorem categorizeDenial_isOk_iff (ctx : HookContext) (e : Exc) :
    (∃ reason, h.categorizeDenial ctx e = .ok reason) ↔
      (ctx.shortCircuitReason.truthy → ∃ s, ctx.shortCircuitReason = .str s) := by
  unfold categorizeDenial
  cases htruthy : ctx.shortCircuitReason.truthy with
  | false =>
    simp only [Bool.false_eq_true, if_false, false_implies, iff_true]
    split_ifs <;> exact ⟨_, rfl⟩
  | true =>
    simp only [if_true, true_implies]
    split
    · split_ifs <;> simp_all
    · simp_all
    · rename_i hstr _
      simp only [reduceCtorEq, exists_false, false_iff, not_exists]
      exact hstr

/-- The record of a masking event. -/
def maskingRecord (ctx : HookContext) (event : MaskingEvent) : AnalyticsEvent :=
  if event.status = "failed" then
    { eventType := .maskingFailure, server := ctx.serverName, tool := ctx.toolName,
      direction := "input" }
  else
    { eventType := .redaction, server := ctx.serverName, tool := ctx.toolName,
      entityType := event.entityType, count := event.count }

theorem recordMasking_recorded (ctx : HookContext) (event : MaskingEvent)
    (c : AnalyticsCollector) :
    (recordMasking ctx c event).recorded = c.recorded ++ [maskingRecord ctx event] := by
  unfold recordMasking maskingRecord
  split <;> simp [AnalyticsCollector.recordMaskingFailure, AnalyticsCollector.recordRedaction]

/-- The whole loop over the masking events, each of which is recorded once. -/
theorem recordMaskings_recorded (ctx : HookContext) (events : List MaskingEvent)
    (c : AnalyticsCollector) :
    (events.foldl (recordMasking ctx) c).recorded =
      c.recorded ++ events.map (maskingRecord ctx) := by
  induction events generalizing c with
  | nil => simp
  | cons event events ih =>
    rw [List.foldl_cons, ih, recordMasking_recorded, List.map_cons, List.append_assoc]
    rfl

/-- The record of masked output. -/
def outputRecords (ctx : HookContext) : List AnalyticsEvent :=
  if ctx.outputMaskingApplied then
    [{ eventType := .outputRedaction, server := ctx.serverName, tool := ctx.toolName,
       entityType := "_aggregate", count := ctx.outputMaskedFields.length }]
  else []

/-- The record of a call. -/
def callRecord (ctx : HookContext) (durationMs : ℚ) (requestBytes responseBytes : ℕ) :
    AnalyticsEvent :=
  { eventType := .toolCall, server := ctx.serverName, tool := ctx.toolName, userId := userId ctx,
    durationMs := durationMs, requestBytes := requestBytes, responseBytes := responseBytes,
    transport := ctx.transport }

/-- A call is recorded once, with each of its masking events. -/
theorem recordCall_recorded (ctx : HookContext) (durationMs : ℚ) (requestBytes responseBytes : ℕ)
    (c : AnalyticsCollector) :
    (recordCall ctx durationMs requestBytes responseBytes c).recorded =
      c.recorded ++ (callRecord ctx durationMs requestBytes responseBytes ::
        ctx.maskingEvents.map (maskingRecord ctx) ++ outputRecords ctx) := by
  unfold recordCall outputRecords callRecord
  split <;>
    simp only [AnalyticsCollector.recordOutputRedaction, AnalyticsCollector.enqueue_recorded,
      recordMaskings_recorded, AnalyticsCollector.recordToolCall, List.append_assoc,
      List.cons_append, List.nil_append, List.append_nil]

/-- A failure is recorded once, as a denial or as an error. -/
theorem recordFailure_of_categorized {ctx : HookContext} {e : Exc} (hcategory : h.Categorized ctx e)
    (c : AnalyticsCollector) :
    ∃ failure : AnalyticsEvent, failure.eventType = (if e.denies then .denial else .error) ∧
      failure.ruleId = (if e.denies then ctx.policyRuleId else .str "") ∧
      (h.recordFailure ctx e c).recorded = c.recorded ++ [failure] := by
  unfold recordFailure
  cases hdenies : e.denies with
  | true =>
    obtain ⟨reason, hreason⟩ := hcategory hdenies
    rw [hreason]
    exact ⟨_, rfl, rfl, AnalyticsCollector.enqueue_recorded _ _⟩
  | false => exact ⟨_, rfl, rfl, AnalyticsCollector.enqueue_recorded _ _⟩

/-- A denial without a category is not recorded. -/
theorem recordFailure_of_not_categorized {ctx : HookContext} {e : Exc}
    (hcategory : ¬ h.Categorized ctx e) (c : AnalyticsCollector) : h.recordFailure ctx e c = c := by
  unfold Categorized at hcategory
  push Not at hcategory
  obtain ⟨hdenies, hreason⟩ := hcategory
  unfold recordFailure
  rw [if_pos hdenies]
  cases hcategorize : h.categorizeDenial ctx e with
  | error e => rfl
  | ok reason => exact absurd hcategorize (hreason reason)

end AnalyticsHook

end McpZero.Analytics
