import McpZero.Audit.Hook
import McpZero.Pipeline.Observer
import McpZero.Python.JsonWritable

/-! What the audit hook emits: of every context that it can write, one event before the audit, one
more where something was masked, and one for a failure. -/
namespace McpZero.Audit
open Python Lib Pipeline Json

variable {η σ : Type}

namespace AuditHook

variable (h : AuditHook η σ)

/-- The configuration includes the field in what is logged. -/
def Includes (key : String) : Prop := h.includes = [] ∨ key ∈ h.includes ++ AuditEvent.alwaysIncluded

/-- The JSON form of the event can be logged. -/
def Writes (event : AuditEvent) : Prop := Writable (defaultStr (.dict (h.jsonDict event)))

theorem forall_mem_jsonDict {event : AuditEvent} {P : Scalar × Value → Prop} :
    (∀ e ∈ h.jsonDict event, P e) ↔ ∀ e ∈ event.jsonEntries h.reprFloat,
      (h.includes = [] ∨ ∃ key ∈ h.includes ++ AuditEvent.alwaysIncluded, e.1 = .str key) → P e := by
  unfold jsonDict AuditEvent.toJsonDict
  by_cases hall : h.includes = []
  · simp [hall]
  · simp only [hall, if_false, List.mem_filter, List.any_eq_true, beq_iff_eq, false_or, and_imp]

theorem writable_ofStrings (xs : List String) : Writable (defaultStr (.ofStrings xs)) := by
  rw [Value.ofStrings, defaultStr, defaultStrItems_eq_map, writable_list_iff]
  simp [defaultStr]

theorem writable_summary (m : MaskingEventSummary) :
    Writable (defaultStr (AuditEvent.summaryDict m)) ↔ Writable (.int m.count) := by
  rw [AuditEvent.summaryDict, defaultStr, defaultStrEntries_eq_map, writable_dict_iff]
  simp [defaultStr, keyText]

/-- Whether an event can be logged depends on the fields that are not texts or flags. -/
theorem writes_iff (event : AuditEvent) :
    h.Writes event ↔ (h.Includes "policy_rule_id" → Writable (defaultStr event.policyRuleId)) ∧
      (h.Includes "short_circuit_reason" → Writable (defaultStr event.shortCircuitReason)) ∧
      (h.Includes "request_size_bytes" → Writable (.int event.requestSizeBytes)) ∧
      (h.Includes "response_size_bytes" → Writable (.int event.responseSizeBytes)) ∧
      (h.Includes "masking_events" → ∀ m ∈ event.maskingEvents, Writable (.int m.count)) := by
  have htrace : Writable (defaultStr (event.traceId.elim .none .str)) := by
    cases event.traceId <;> simp [defaultStr]
  have huser : Writable (defaultStr (.dict [(.str "user_id", .str event.userId),
      (.str "groups", .ofStrings event.userGroups)])) := by
    rw [defaultStr, defaultStrEntries_eq_map, writable_dict_iff]
    simp [defaultStr, keyText, writable_ofStrings]
  have hmasking : Writable (defaultStr (.list (event.maskingEvents.map AuditEvent.summaryDict))) ↔
      ∀ m ∈ event.maskingEvents, Writable (.int m.count) := by
    rw [defaultStr, defaultStrItems_eq_map, writable_list_iff]
    simp only [List.forall_mem_map, writable_summary]
  unfold Writes
  rw [defaultStr, defaultStrEntries_eq_map, writable_dict_iff, List.forall_mem_map,
    forall_mem_jsonDict]
  simp only [AuditEvent.jsonEntries, List.forall_mem_cons, keyText, htrace, huser, hmasking,
    Except.ok.injEq, exists_eq', true_and, Scalar.str.injEq, exists_eq_right', Includes]
  simp [defaultStr]

/-- The hook can report the context: its payloads have a size, and its events can be logged. -/
def Reportable (ctx : HookContext) : Prop :=
  ∃ n m, measureSize ctx.requestPayload = .ok n ∧ measureSize ctx.responsePayload = .ok m ∧
    h.Writes (eventOf ctx .error n m 0 "")

theorem writes_eventOf_iff (ctx : HookContext) (t t' : AuditEventType) (n m : ℕ) (d d' : ℚ)
    (now now' : String) :
    h.Writes (eventOf ctx t n m d now) ↔ h.Writes (eventOf ctx t' n m d' now') := by
  rw [writes_iff, writes_iff]
  rfl

/-- Whether an event can be logged does not depend on the exception it names. -/
theorem writes_error_iff (event : AuditEvent) (errorType errorMessage : String) :
    h.Writes { event with errorType := errorType, errorMessage := errorMessage } ↔
      h.Writes event := by
  rw [writes_iff, writes_iff]

theorem emit_of_writes {event : AuditEvent} (hwrites : h.Writes event) (log : AuditLog η) :
    ∃ log', h.emit event log = (.ok (), log') ∧ log'.emitted = log.emitted ++ [event] := by
  obtain ⟨cs, hcs⟩ := hwrites
  unfold emit dumps
  rw [hcs]
  exact ⟨_, rfl, rfl⟩

theorem emit_of_not_writes {event : AuditEvent} (hwrites : ¬ h.Writes event) (log : AuditLog η) :
    ∃ e log', h.emit event log = (.error e, log') ∧ log'.emitted = log.emitted := by
  unfold emit dumps
  cases htext : text (defaultStr (.dict (h.jsonDict event))) with
  | ok cs => exact absurd ⟨cs, htext⟩ hwrites
  | error e => exact ⟨e, _, rfl, rfl⟩

/-- What is emitted of a context before the audit. -/
def invocationEvents (ctx : HookContext) (s : σ) : List AuditEvent :=
  match h.buildEvent ctx .toolInvocation s, h.buildEvent ctx .maskingEvent s with
  | .ok event, .ok maskingEvent =>
    if ctx.maskingApplied || ctx.outputMaskingApplied then [event, maskingEvent] else [event]
  | _, _ => []

/-- What is emitted of a failure. -/
def failureEvents (ctx : HookContext) (error : Exc) (s : σ) : List AuditEvent :=
  match h.buildEvent ctx (errorEventType error) s with
  | .ok event => [{ event with errorType := typeName error, errorMessage := error.message }]
  | .error _ => []

theorem buildEvent_of_sizes {ctx : HookContext} {n m : ℕ}
    (hn : measureSize ctx.requestPayload = .ok n) (hm : measureSize ctx.responsePayload = .ok m)
    (t : AuditEventType) (s : σ) :
    h.buildEvent ctx t s =
      .ok (eventOf ctx t n m ((h.monotonic s - ctx.startedAt) * 1000) (h.now s)) := by
  unfold buildEvent
  rw [hn, hm]
  rfl

/-- An event that is built of a context that is not reportable cannot be logged. -/
theorem not_writes_of_buildEvent {ctx : HookContext} (hreport : ¬ h.Reportable ctx)
    {t : AuditEventType} {s : σ} {event : AuditEvent} (hbuild : h.buildEvent ctx t s = .ok event) :
    ¬ h.Writes event := by
  intro hwrites
  unfold buildEvent at hbuild
  simp only [bind_eq_ok, pure_eq_ok] at hbuild
  obtain ⟨n, hn, m, hm, rfl⟩ := hbuild
  exact hreport ⟨n, m, hn, hm, (h.writes_eventOf_iff ctx _ _ n m _ _ _ _).mp hwrites⟩

theorem onPreAudit_of_reportable {ctx : HookContext} (hreport : h.Reportable ctx) (log : AuditLog η)
    (s : σ) : ∃ log', h.onPreAudit ctx (log, s) = (.ok ctx, log', s) ∧
      log'.emitted = log.emitted ++ h.invocationEvents ctx s := by
  obtain ⟨n, m, hn, hm, hwrites⟩ := hreport
  have hbuild := h.buildEvent_of_sizes hn hm
  have hwrites' (t : AuditEventType) : h.Writes
      (eventOf ctx t n m ((h.monotonic s - ctx.startedAt) * 1000) (h.now s)) :=
    (h.writes_eventOf_iff ctx _ _ n m _ _ _ _).mp hwrites
  obtain ⟨log₁, hemit, hlog₁⟩ := h.emit_of_writes (hwrites' .toolInvocation) log
  obtain ⟨log₂, hemit', hlog₂⟩ := h.emit_of_writes (hwrites' .maskingEvent) log₁
  unfold onPreAudit invocationEvents
  simp only [hbuild, hemit]
  split
  · simp only [hemit']
    exact ⟨log₂, rfl, by rw [hlog₂, hlog₁, List.append_assoc]; rfl⟩
  · exact ⟨log₁, rfl, hlog₁⟩

theorem onPreAudit_of_not_reportable {ctx : HookContext} (hreport : ¬ h.Reportable ctx)
    (log : AuditLog η) (s : σ) : ∃ e log', h.onPreAudit ctx (log, s) = (.error e, log', s) ∧
      log'.emitted = log.emitted := by
  unfold onPreAudit
  cases hbuild : h.buildEvent ctx .toolInvocation s with
  | error e => exact ⟨e, log, rfl, rfl⟩
  | ok event =>
    obtain ⟨e, log', hemit, hlog⟩ :=
      h.emit_of_not_writes (h.not_writes_of_buildEvent hreport hbuild) log
    simp only [hemit]
    exact ⟨e, log', rfl, hlog⟩

theorem onError_of_reportable {ctx : HookContext} (hreport : h.Reportable ctx) (error : Exc)
    (log : AuditLog η) (s : σ) : ∃ log', h.onError ctx error (log, s) = (.ok (), log', s) ∧
      log'.emitted = log.emitted ++ h.failureEvents ctx error s := by
  obtain ⟨n, m, hn, hm, hwrites⟩ := hreport
  have hbuild := h.buildEvent_of_sizes hn hm (errorEventType error) s
  have hwrites' : h.Writes { eventOf ctx (errorEventType error) n m
      ((h.monotonic s - ctx.startedAt) * 1000) (h.now s) with
        errorType := typeName error, errorMessage := error.message } :=
    (h.writes_error_iff _ _ _).mpr ((h.writes_eventOf_iff ctx _ _ n m _ _ _ _).mp hwrites)
  obtain ⟨log', hemit, hlog⟩ := h.emit_of_writes hwrites' log
  unfold onError failureEvents
  simp only [hbuild, hemit]
  exact ⟨log', rfl, hlog⟩

theorem onError_of_not_reportable {ctx : HookContext} (hreport : ¬ h.Reportable ctx) (error : Exc)
    (log : AuditLog η) (s : σ) : ∃ e log', h.onError ctx error (log, s) = (.error e, log', s) ∧
      log'.emitted = log.emitted := by
  unfold onError
  cases hbuild : h.buildEvent ctx (errorEventType error) s with
  | error e => exact ⟨e, log, rfl, rfl⟩
  | ok event =>
    have hwrites := h.not_writes_of_buildEvent hreport hbuild
    obtain ⟨e, log', hemit, hlog⟩ :=
      h.emit_of_not_writes ((h.writes_error_iff event (typeName error) error.message).not.mpr hwrites)
        log
    simp only [hemit]
    exact ⟨e, log', rfl, hlog⟩

/-- The hook never short-circuits. -/
theorem onPreAudit_avoids (ctx : HookContext) (w : AuditLog η × σ) :
    Avoids Exc.IsShortCircuit (h.onPreAudit ctx w).1 := by
  have hemit (event : AuditEvent) (log : AuditLog η) :
      Avoids Exc.IsShortCircuit (h.emit event log).1 := by
    have hdumps := dumps_avoids (defaultStr (.dict (h.jsonDict event)))
    unfold emit
    dsimp only
    cases hwritten : dumps (defaultStr (.dict (h.jsonDict event))) with
    | error e =>
      rw [hwritten] at hdumps
      exact avoids_error.mpr (avoids_error.mp hdumps)
    | ok message => exact avoids_ok
  have hbuild (t : AuditEventType) : Avoids Exc.IsShortCircuit (h.buildEvent ctx t w.2) := by
    refine avoids_bind.mpr ⟨payloadSize_avoids _, fun _ _ => ?_⟩
    exact avoids_bind.mpr ⟨payloadSize_avoids _, fun _ _ => avoids_pure⟩
  intro e he
  unfold onPreAudit at he
  split at he
  · rename_i hevent
    cases he
    exact hbuild _ _ hevent
  · split at he
    · rename_i hemitted
      cases he
      exact hemit _ _ _ (congrArg Prod.fst hemitted)
    · split_ifs at he
      split at he
      · rename_i hevent
        cases he
        exact hbuild _ _ hevent
      · split at he
        · rename_i hemitted
          cases he
          exact hemit _ _ _ (congrArg Prod.fst hemitted)
        · cases he

/-- What the hook does to its log before the audit, and on an error. -/
def note (ctx : HookContext) (s : σ) (log : AuditLog η) : AuditLog η :=
  (h.onPreAudit ctx (log, s)).2.1

def report (ctx : HookContext) (error : Exc) (s : σ) (log : AuditLog η) : AuditLog η :=
  (h.onError ctx error (log, s)).2.1

theorem observes : Observes h.toHook h.Reportable h.note h.report where
  idle p ctx w hp := by
    cases p with
    | preAudit => exact absurd rfl hp
    | _ => rfl
  preAudit ctx w := by
    by_cases hreport : h.Reportable ctx
    · obtain ⟨log', hrun, -⟩ := h.onPreAudit_of_reportable hreport w.1 w.2
      simp only [toHook, note, hrun]
    · obtain ⟨e, log', hrun, -⟩ := h.onPreAudit_of_not_reportable hreport w.1 w.2
      simp only [toHook, note, hrun]
  accepted ctx w hreport := by
    obtain ⟨log', hrun, -⟩ := h.onPreAudit_of_reportable hreport w.1 w.2
    simp only [toHook, hrun]
  refused ctx w hreport := by
    obtain ⟨e, log', hrun, -⟩ := h.onPreAudit_of_not_reportable hreport w.1 w.2
    exact ⟨e, by simp only [toHook, hrun]⟩
  onError ctx e w := by
    by_cases hreport : h.Reportable ctx
    · obtain ⟨log', hrun, -⟩ := h.onError_of_reportable hreport e w.1 w.2
      simp only [toHook, report, hrun]
    · obtain ⟨e', log', hrun, -⟩ := h.onError_of_not_reportable hreport e w.1 w.2
      simp only [toHook, report, hrun]

theorem note_emitted_of_reportable {ctx : HookContext} (hreport : h.Reportable ctx) (s : σ)
    (log : AuditLog η) : (h.note ctx s log).emitted = log.emitted ++ h.invocationEvents ctx s := by
  obtain ⟨log', hrun, hlog⟩ := h.onPreAudit_of_reportable hreport log s
  rw [note, hrun, hlog]

theorem note_emitted_of_not_reportable {ctx : HookContext} (hreport : ¬ h.Reportable ctx) (s : σ)
    (log : AuditLog η) : (h.note ctx s log).emitted = log.emitted := by
  obtain ⟨e, log', hrun, hlog⟩ := h.onPreAudit_of_not_reportable hreport log s
  rw [note, hrun, hlog]

theorem report_emitted_of_reportable {ctx : HookContext} (hreport : h.Reportable ctx) (error : Exc)
    (s : σ) (log : AuditLog η) :
    (h.report ctx error s log).emitted = log.emitted ++ h.failureEvents ctx error s := by
  obtain ⟨log', hrun, hlog⟩ := h.onError_of_reportable hreport error log s
  rw [report, hrun, hlog]

theorem report_emitted_of_not_reportable {ctx : HookContext} (hreport : ¬ h.Reportable ctx)
    (error : Exc) (s : σ) (log : AuditLog η) : (h.report ctx error s log).emitted = log.emitted := by
  obtain ⟨e, log', hrun, hlog⟩ := h.onError_of_not_reportable hreport error log s
  rw [report, hrun, hlog]

end AuditHook

end McpZero.Audit
