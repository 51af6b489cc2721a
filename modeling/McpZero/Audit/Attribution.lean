import McpZero.Audit.Observers
import McpZero.Governance.Hook
import McpZero.Pipeline.Failure

/-! Which rule a denial is attributed to. The governance hook denies by an exception, which does
not carry the rule, and the observers read the rule from the context that the point was entered
with. -/
namespace McpZero.Audit
open Python Lib Pipeline Governance Analytics Json

variable {η σ : Type}

/-- The hook denies the call because of the rule. -/
structure DeniesFor (G : GovernanceHook) (ctx : HookContext) (r : PolicyRule) : Prop where
  identified : ctx.request.identity = none → G.identityRequired = false
  effect : (PolicyEngine.evaluate G.policy (GovernanceHook.policyInput ctx)).effect = .deny
  policyId : (PolicyEngine.evaluate G.policy (GovernanceHook.policyInput ctx)).policyId = some r.id

/-- The run gets to the hook behind the first ones at the second point, which it enters with the
context `entered`, and calls it with `seen`. -/
def ComesTo {ω : Type} (hooks first : List (LifecycleHook ω)) (c : HookContext) (w : ω)
    (entered seen : HookContext) : Prop :=
  ∃ u v, Completes (stagesAt hooks .preValidation) c w entered u ∧
    Completes (stagesAt first .postValidation) entered u seen v

/-- Between the two worlds a POLICY_DECISION event is emitted and a DENIAL recorded, both with the
rule id. -/
def Attributed (w w' : ObservedWorld η σ) (id : Value) : Prop :=
  (∃ events, w'.2.1.emitted = w.2.1.emitted ++ events ∧
    ∃ ev ∈ events, ev.eventType = .policyDecision ∧ ev.policyRuleId = id) ∧
  ∃ records, w'.1.recorded = w.1.recorded ++ records ∧
    ∃ r ∈ records, r.eventType = .denial ∧ r.ruleId = id

theorem DeniesFor.onPostValidation {G : GovernanceHook} {ctx : HookContext} {r : PolicyRule}
    (h : DeniesFor G ctx r) :
    G.onPostValidation ctx = .error (.shortCircuit (G.denialReason ctx) true) := by
  have hidentified : (ctx.request.identity.isNone && G.identityRequired) = false := by
    cases hidentity : ctx.request.identity with
    | none => exact h.identified hidentity
    | some user => rfl
  have heffect := h.effect
  unfold GovernanceHook.onPostValidation
  rw [if_neg (by simp [hidentified])]
  simp only [heffect, reduceCtorEq, if_false]

/-- An event of a failure has the type for its exception and the rule id of the context. -/
theorem AuditHook.failureEvents_spec (h : AuditHook η σ) {ctx : HookContext} {e : Exc} {s : σ}
    {ev : AuditEvent} (hev : ev ∈ h.failureEvents ctx e s) :
    ev.eventType = errorEventType e ∧ ev.policyRuleId = ctx.policyRuleId ∧
      ev.policyDecision = decisionValue ctx.policyDecision ∧ ev.errorType = typeName e ∧
      ev.errorMessage = e.message := by
  unfold failureEvents at hev
  cases hbuild : h.buildEvent ctx (errorEventType e) s with
  | error e' =>
    rw [hbuild] at hev
    cases hev
  | ok event =>
    rw [hbuild] at hev
    unfold buildEvent at hbuild
    simp only [bind_eq_ok, pure_eq_ok] at hbuild
    obtain ⟨n, hn, m, hm, rfl⟩ := hbuild
    rw [List.mem_singleton.mp hev]
    exact ⟨rfl, rfl, rfl, rfl, rfl⟩

/-- A denial by the hook has a category exactly if its reason is a string. -/
theorem categorized_denied_iff {α : Type} (analytics : AnalyticsHook α) (G : GovernanceHook)
    (entered seen : HookContext) :
    analytics.Categorized (failedContext entered (.shortCircuit (G.denialReason seen) true))
        (.shortCircuit (G.denialReason seen) true) ↔ ∃ s, G.denialReason seen = .str s := by
  have htruthy := G.denialReason_truthy seen
  unfold AnalyticsHook.Categorized
  rw [analytics.categorizeDenial_isOk_iff]
  simp [failedContext, markShortCircuited, Exc.denies, htruthy]

namespace Observers

variable (o : Observers η σ)

/-- A run that fails at the second point has recorded and emitted nothing before the error hooks
are called. -/
theorem execute_of_raisesAt {members : List (Member σ)} {c entered seen : HookContext}
    {w : ObservedWorld η σ} {e : Exc}
    (hraise : RaisesAt (o.hooks members) [.preValidation, .postValidation] c w entered seen e) :
    ∃ t, history t = history w ∧ (execute (o.hooks members) c w).2 =
      fireErrorHooks (failedContext entered e) e (o.hooks members) t := by
  obtain ⟨ex, t, hrun⟩ := executePoints_of_raisesAt hraise []
  have hbefore : HookPoint.preAudit ∉ [.preValidation, .postValidation] := by decide
  have hhistory := o.history_executePoints members hbefore c [] w
  have hsequence : hookSequence =
      [.preValidation, .postValidation] ++ [.preMasking, .postMasking, .preAudit] := rfl
  rw [hrun] at hhistory
  refine ⟨t, hhistory, ?_⟩
  unfold execute
  rw [hsequence, executePoints_split, hrun]

/-- A denial is attributed to its rule exactly when the context that POST_VALIDATION was entered
with already has the id of the rule, the reason is a string, and the audit hook can report that
context with the reason. -/
theorem attributed_iff (G : GovernanceHook) {first last : List (Member σ)}
    (haudit : .audit ∈ first ++ last) (hanalytics : .analytics ∈ first ++ last)
    {c entered seen : HookContext} {w : ObservedWorld η σ} {r : PolicyRule}
    (hcomes : ComesTo (o.hooks (first ++ .hook G.toHook :: last)) (o.hooks first) c w entered seen)
    (hdenies : DeniesFor G seen r) :
    Attributed w (execute (o.hooks (first ++ .hook G.toHook :: last)) c w).2 r.id ↔
      entered.policyRuleId = r.id ∧ (∃ s, G.denialReason seen = .str s) ∧
        o.audit.Reportable (failedContext entered (.shortCircuit (G.denialReason seen) true)) := by
  have hdeny := hdenies.onPostValidation
  have hcategorized := categorized_denied_iff o.analytics G entered seen
  generalize G.denialReason seen = reason at hdeny hcategorized ⊢
  obtain ⟨u, v, hpre, hpost⟩ := hcomes
  have hmethod : (o.hookAt (.hook G.toHook)).method .postValidation seen v =
      (.error (.shortCircuit reason true), v) := by
    change (G.onPostValidation seen, v) = _
    rw [hdeny]
  have hsplit : o.hooks (first ++ .hook G.toHook :: last) =
      o.hooks first ++ o.hookAt (.hook G.toHook) :: o.hooks last := List.map_append
  have hraise : RaisesAt (o.hooks (first ++ .hook G.toHook :: last))
      [.preValidation, .postValidation] c w entered seen (.shortCircuit reason true) :=
    .later hpre (.here hsplit hpost hmethod)
  obtain ⟨t, ht, hrun⟩ := o.execute_of_raisesAt hraise
  obtain ⟨records, events, hreports, hhistory⟩ := o.fireErrorHooks_reports
    (first ++ .hook G.toHook :: last) (failedContext entered (.shortCircuit reason true))
    (.shortCircuit reason true) t
  obtain ⟨hrecorded, hemitted⟩ := Prod.mk.inj hhistory
  obtain ⟨hrecordedBefore, hemittedBefore⟩ := Prod.mk.inj ht
  rw [hrecordedBefore] at hrecorded
  rw [hemittedBefore] at hemitted
  have hmember {m : Member σ} (hm : m ∈ first ++ last) : m ∈ first ++ .hook G.toHook :: last := by
    rw [List.mem_append] at hm
    rw [List.mem_append, List.mem_cons]
    exact hm.imp id .inr
  rw [hrun]
  constructor
  · rintro ⟨⟨events', hevents', ev, hev, -, hid⟩, records', hrecords', record, hrecord, -, -⟩
    obtain rfl : events' = events := List.append_cancel_left (hevents'.symm.trans hemitted)
    obtain rfl : records' = records := List.append_cancel_left (hrecords'.symm.trans hrecorded)
    obtain ⟨s, hs⟩ := hreports.event ev hev
    obtain ⟨-, hrule, -⟩ := o.audit.failureEvents_spec hs
    refine ⟨hrule.symm.trans hid, ?_, ?_⟩
    · by_contra hstr
      rw [hreports.unrecorded (hcategorized.not.mpr hstr)] at hrecord
      cases hrecord
    · by_contra hreport
      rw [hreports.silent hreport] at hev
      cases hev
  · rintro ⟨hid, hstr, hreport⟩
    obtain ⟨ev, hev⟩ := List.exists_mem_of_ne_nil _ (hreports.emitted (hmember haudit) hreport)
    obtain ⟨record, hrecord⟩ :=
      List.exists_mem_of_ne_nil _ (hreports.recorded (hmember hanalytics) (hcategorized.mpr hstr))
    obtain ⟨s, hs⟩ := hreports.event ev hev
    obtain ⟨htype, hrule, -⟩ := o.audit.failureEvents_spec hs
    obtain ⟨hkind, hruleId⟩ := hreports.record record hrecord
    exact ⟨⟨events, hemitted, ev, hev, htype, hrule.trans hid⟩,
      records, hrecorded, record, hrecord, hkind, hruleId.trans hid⟩

end Observers

def noQueries : PolicyRule where
  id := .str "no-queries"
  description := .str "No queries"
  effect := .deny
  subjects := {}
  mcpServers := [{ name := .str "db", tools := .list [.str "query"] }]

/-- A hook that denies the tool query to everyone. -/
def queriesDenied : GovernanceHook where
  policy :=
    { version := .int 1, default := .deny, identity := none, servers := [],
      policies := [noQueries], logging := {}, masking := {}, analytics := none, cors := none,
      plugins := [] }
  identityRequired := false

def plainObservers : Observers Unit Unit where
  analytics := { unicode := .ascii, monotonic := fun _ => 0 }
  audit := { monotonic := fun _ => 0, now := fun _ => "", reprFloat := fun _ => "0.0" }

def queryMembers : List (Member Unit) := [.hook queriesDenied.toHook, .analytics, .audit]

/-- A call of the tool query, with a rule id in its context. -/
def queryContext (ruleId : String) : HookContext where
  request := { correlationId := "c1" }
  serverName := "db"
  toolName := "query"
  policyRuleId := .str ruleId

def quietWorld : ObservedWorld Unit Unit := ({ queueSize := 0 }, { handlers := () }, ())

theorem queriesDenied_deniesFor (ruleId : String) :
    DeniesFor queriesDenied (queryContext ruleId) noQueries :=
  ⟨fun _ => rfl, rfl, rfl⟩

theorem queryMembers_comesTo (ruleId : String) :
    ComesTo (plainObservers.hooks queryMembers) (plainObservers.hooks []) (queryContext ruleId)
      quietWorld (queryContext ruleId) (queryContext ruleId) :=
  ⟨quietWorld, quietWorld, .cons rfl (.cons rfl (.cons rfl (.nil _ _))), .nil _ _⟩

/-- A denial of a call whose context has the rule id beforehand is attributed. -/
theorem queryMembers_attributed :
    Attributed quietWorld (execute (plainObservers.hooks queryMembers) (queryContext "no-queries")
      quietWorld).2 (.str "no-queries") := by
  have hreport : plainObservers.audit.Reportable (failedContext (queryContext "no-queries")
      (.shortCircuit (.str "No queries") true)) :=
    ⟨0, 0, rfl, rfl, (plainObservers.audit.writes_iff _).mpr
      ⟨fun _ => writable_str _, fun _ => writable_str _, fun _ => ⟨_, rfl⟩, fun _ => ⟨_, rfl⟩,
        fun _ => nofun⟩⟩
  have haudit : .audit ∈ [] ++ [Member.analytics, (.audit : Member Unit)] := by simp
  have hanalytics : .analytics ∈ [] ++ [Member.analytics, (.audit : Member Unit)] := by simp
  exact (plainObservers.attributed_iff queriesDenied haudit hanalytics
    (queryMembers_comesTo "no-queries") (queriesDenied_deniesFor "no-queries")).mpr
      ⟨rfl, ⟨"No queries", rfl⟩, hreport⟩

/-- The id of the rule is lost. -/
theorem queryMembers_not_attributed :
    ComesTo (plainObservers.hooks queryMembers) (plainObservers.hooks []) (queryContext "")
        quietWorld (queryContext "") (queryContext "") ∧
      DeniesFor queriesDenied (queryContext "") noQueries ∧
      ¬ Attributed quietWorld (execute (plainObservers.hooks queryMembers) (queryContext "")
        quietWorld).2 noQueries.id := by
  refine ⟨queryMembers_comesTo "", queriesDenied_deniesFor "", ?_⟩
  rintro ⟨-, records, hrecords, record, hmem, -, hid⟩
  have hempty : ((execute (plainObservers.hooks queryMembers) (queryContext "")
      quietWorld).2.1.recorded.all fun r => r.ruleId.text == "") = true := by
    decide +kernel
  have hquiet : quietWorld.1.recorded = [] := rfl
  rw [hrecords, hquiet, List.nil_append, List.all_eq_true] at hempty
  have htext := hempty record hmem
  rw [hid] at htext
  cases htext

end McpZero.Audit
