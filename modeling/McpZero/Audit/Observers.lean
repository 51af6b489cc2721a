import McpZero.Analytics.Hook
import McpZero.Audit.Reporting

/-! A pipeline with the analytics hook and the audit hook among its hooks. The collector and the
log are parts of the world that no other hook touches. -/
namespace McpZero.Audit
open Python Lib Pipeline Analytics

abbrev ObservedWorld (η σ : Type) := AnalyticsCollector × (AuditLog η × σ)

structure Observers (η σ : Type) where
  analytics : AnalyticsHook (AuditLog η × σ)
  audit : AuditHook η σ

/-- A place in the pipeline: one of the two observers, or another hook. -/
inductive Member (σ : Type)
  | analytics
  | audit
  | hook (h : LifecycleHook σ)

namespace Observers

variable {η σ : Type} (o : Observers η σ)

/-- The hook at a place. -/
def hookAt : Member σ → LifecycleHook (ObservedWorld η σ)
  | .analytics => o.analytics.toHook
  | .audit => o.audit.toHook.beside
  | .hook h => h.beside.beside

/-- The hooks of a pipeline. -/
def hooks (members : List (Member σ)) : List (LifecycleHook (ObservedWorld η σ)) :=
  members.map o.hookAt

/-- What has been recorded and emitted. -/
def history (w : ObservedWorld η σ) : List AnalyticsEvent × List AuditEvent :=
  (w.1.recorded, w.2.1.emitted)

/-- Before the audit nothing is recorded or emitted. -/
theorem history_method (m : Member σ) {p : HookPoint} (hp : p ≠ .preAudit) (ctx : HookContext)
    (w : ObservedWorld η σ) : history ((o.hookAt m).method p ctx w).2 = history w := by
  cases m with
  | analytics =>
    have hidle := o.analytics.observes.idle p ctx w hp
    rw [hookAt, hidle]
  | audit =>
    have hidle := o.audit.observes.idle p ctx w.2 hp
    rw [hookAt, LifecycleHook.beside_method, beside, hidle]
  | hook h =>
    rw [hookAt, LifecycleHook.beside_method, beside, LifecycleHook.beside_method]
    rfl

theorem history_executePoints (members : List (Member σ)) {ps : List HookPoint}
    (hps : .preAudit ∉ ps) (c : HookContext) (ex : List String) (w : ObservedWorld η σ) :
    history (executePoints (o.hooks members) ps c ex w).2 = history w := by
  refine executePoints_keeps history ?_ c ex w
  intro p hp hook hhook ctx w
  obtain ⟨m, -, rfl⟩ := List.mem_map.mp hhook
  exact o.history_method m (ne_of_mem_of_not_mem hp hps) ctx w

/-- What the error hooks emit and record of a failure. -/
structure Reports (members : List (Member σ)) (ctx : HookContext) (e : Exc)
    (records : List AnalyticsEvent) (events : List AuditEvent) : Prop where
  record (r : AnalyticsEvent) : r ∈ records →
    r.eventType = (if e.denies then .denial else .error) ∧
      r.ruleId = (if e.denies then ctx.policyRuleId else .str "")
  event (ev : AuditEvent) : ev ∈ events → ∃ s, ev ∈ o.audit.failureEvents ctx e s
  recorded : .analytics ∈ members → o.analytics.Categorized ctx e → records ≠ []
  unrecorded : ¬ o.analytics.Categorized ctx e → records = []
  emitted : .audit ∈ members → o.audit.Reportable ctx → events ≠ []
  silent : ¬ o.audit.Reportable ctx → events = []

/-- The error hooks, by induction over the hooks still to be called. -/
theorem fireErrorHooks_reports (members : List (Member σ)) (ctx : HookContext) (e : Exc)
    (w : ObservedWorld η σ) :
    ∃ records events, o.Reports members ctx e records events ∧
      history (fireErrorHooks ctx e (o.hooks members) w) =
        (w.1.recorded ++ records, w.2.1.emitted ++ events) := by
  induction members generalizing w with
  | nil =>
    refine ⟨[], [], ⟨by simp, by simp, by simp, fun _ => rfl, by simp, fun _ => rfl⟩, ?_⟩
    simp [history, hooks, fireErrorHooks]
  | cons m members ih =>
    cases m with
    | analytics =>
      obtain ⟨records, events, hreports, hhistory⟩ := ih (o.analytics.recordFailure ctx e w.1, w.2)
      have hstep : fireErrorHooks ctx e (o.hooks (.analytics :: members)) w =
          fireErrorHooks ctx e (o.hooks members) (o.analytics.recordFailure ctx e w.1, w.2) := by
        have hown := o.analytics.observes.onError ctx e w
        change fireErrorHooks ctx e (o.hooks members) (o.analytics.toHook.onError ctx e w).2 = _
        rw [hown]
      rw [hstep, hhistory]
      by_cases hcategory : o.analytics.Categorized ctx e
      · obtain ⟨failure, htype, hrule, hfailure⟩ :=
          o.analytics.recordFailure_of_categorized hcategory w.1
        refine ⟨failure :: records, events, ?_, ?_⟩
        · exact {
            record := fun r hr => by
              rcases List.mem_cons.mp hr with rfl | hr
              · exact ⟨htype, hrule⟩
              · exact hreports.record r hr
            event := hreports.event
            recorded := fun _ _ => List.cons_ne_nil _ _
            unrecorded := fun hnot => absurd hcategory hnot
            emitted := fun hmem => hreports.emitted (by simpa using hmem)
            silent := hreports.silent }
        · rw [hfailure, List.append_assoc, List.singleton_append]
      · refine ⟨records, events, ?_, ?_⟩
        · exact {
            record := hreports.record
            event := hreports.event
            recorded := fun _ h => absurd h hcategory
            unrecorded := hreports.unrecorded
            emitted := fun hmem => hreports.emitted (by simpa using hmem)
            silent := hreports.silent }
        · rw [o.analytics.recordFailure_of_not_categorized hcategory]
    | audit =>
      obtain ⟨records, events, hreports, hhistory⟩ :=
        ih (w.1, o.audit.report ctx e w.2.2 w.2.1, w.2.2)
      have hstep : fireErrorHooks ctx e (o.hooks (.audit :: members)) w =
          fireErrorHooks ctx e (o.hooks members) (w.1, o.audit.report ctx e w.2.2 w.2.1, w.2.2) := by
        have hown := o.audit.observes.onError ctx e w.2
        change fireErrorHooks ctx e (o.hooks members) (w.1, (o.audit.toHook.onError ctx e w.2).2) = _
        rw [hown]
      rw [hstep, hhistory]
      by_cases hreport : o.audit.Reportable ctx
      · refine ⟨records, o.audit.failureEvents ctx e w.2.2 ++ events, ?_, ?_⟩
        · exact {
            record := hreports.record
            event := fun ev hev => by
              rcases List.mem_append.mp hev with hev | hev
              · exact ⟨_, hev⟩
              · exact hreports.event ev hev
            recorded := fun hmem => hreports.recorded (by simpa using hmem)
            unrecorded := hreports.unrecorded
            emitted := fun _ _ => by
              obtain ⟨n, m, hn, hm, -⟩ := hreport
              simp [AuditHook.failureEvents, o.audit.buildEvent_of_sizes hn hm]
            silent := fun hnot => absurd hreport hnot }
        · rw [o.audit.report_emitted_of_reportable hreport, List.append_assoc]
      · refine ⟨records, events, ?_, by rw [o.audit.report_emitted_of_not_reportable hreport]⟩
        exact {
          record := hreports.record
          event := hreports.event
          recorded := fun hmem => hreports.recorded (by simpa using hmem)
          unrecorded := hreports.unrecorded
          emitted := fun _ h => absurd h hreport
          silent := hreports.silent }
    | hook h =>
      obtain ⟨records, events, hreports, hhistory⟩ :=
        ih (w.1, w.2.1, (h.onError ctx e w.2.2).2)
      refine ⟨records, events, ?_, hhistory⟩
      exact {
        record := hreports.record
        event := hreports.event
        recorded := fun hmem => hreports.recorded (by simpa using hmem)
        unrecorded := hreports.unrecorded
        emitted := fun hmem => hreports.emitted (by simpa using hmem)
        silent := hreports.silent }

end Observers

end McpZero.Audit
