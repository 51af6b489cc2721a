import McpZero.Audit.Attribution
import McpZero.Proxy.Observed

/-! Whether the log tells how a call ended. The audit hook works inside the pipeline, and a call
can end outside it: without a token, or with an exception. -/
namespace McpZero.Audit
open Python Pipeline Proxy Json

variable {η σ S C : Type}

/-- What a routed call can come to. -/
inductive Outcome
  | denied
  | tokenRefused (message : String)
  | blocked (e : Exc)
  | failed (e : Exc)
  | returned

/-- The event tells of the outcome. -/
def Outcome.ToldBy : Outcome → AuditEvent → Prop
  | denied, ev => ev.policyDecision = decisionValue .deny
  | tokenRefused message, ev => ev.policyDecision = decisionValue .deny ∧
      (ev.shortCircuitReason = .str message ∨ ev.errorMessage = message)
  | blocked e, ev => ev.eventType = AuditHook.errorEventType e ∧ ev.errorType = typeName e ∧
      ev.errorMessage = e.message
  | failed e, ev => ev.eventType = .error ∧ ev.errorType = typeName e ∧ ev.errorMessage = e.message
  | returned, ev => ev.eventType = .toolInvocation

/-- Between the two logs an event is emitted that tells of the outcome. -/
def Told (log log' : AuditLog η) (o : Outcome) : Prop :=
  ∃ events, log'.emitted = log.emitted ++ events ∧ ∃ ev ∈ events, o.ToldBy ev

/-- The log tells how the call ended, where `pre` is what the pre-call pipeline left. What is
decided after that pipeline is told after it. -/
structure AuditComplete (K : Collaborators σ S C) (server : String) (log : AuditLog η)
    (pre : PipelineResult × (AuditLog η × σ)) (run : CallRun (AuditLog η × σ) S C) : Prop where
  denied : pre.1.context.policyDecision = .deny → Told log run.state.1 .denied
  tokenRefused (message audience : String) (v : σ) : pre.1.context.policyDecision ≠ .deny →
    K.getToken server pre.1.context.request pre.2.2 = (.error (.tokenExchange message audience), v) →
    Told pre.2.1 run.state.1 (.tokenRefused message)
  blocked (post : PipelineResult) (e : Exc) : .postRun post ∈ run.events → post.error = some e →
    Told pre.2.1 run.state.1 (.blocked e)
  failed (e : Exc) : run.result = .error e → Told pre.2.1 run.state.1 (.failed e)
  returned (post : PipelineResult) (content : List C) : .postRun post ∈ run.events →
    post.error = none → run.result = .ok content → Told pre.2.1 run.state.1 .returned

theorem told_iff {log log' : AuditLog η} {events : List AuditEvent} {o : Outcome}
    (h : log'.emitted = log.emitted ++ events) : Told log log' o ↔ ∃ ev ∈ events, o.ToldBy ev := by
  constructor
  · rintro ⟨events', h', htold⟩
    obtain rfl : events = events' := List.append_cancel_left (h.symm.trans h')
    exact htold
  · intro htold
    exact ⟨events, h, htold⟩

theorem not_told_self (log : AuditLog η) (o : Outcome) : ¬ Told log log o := by
  rw [told_iff (List.append_nil _).symm]
  simp

theorem errorEventType_cases (e : Exc) :
    AuditHook.errorEventType e = .policyDecision ∨ AuditHook.errorEventType e = .error := by
  unfold AuditHook.errorEventType
  split
  · exact .inl rfl
  · exact .inr rfl

namespace AuditHook

variable (H : AuditHook η σ)

/-- What is emitted before the audit has the decision of the context, and one of the events is
the invocation. -/
theorem invocationEvents_spec (ctx : HookContext) (s : σ) :
    (∀ ev ∈ H.invocationEvents ctx s, ev.policyDecision = decisionValue ctx.policyDecision ∧
        (ev.eventType = .toolInvocation ∨ ev.eventType = .maskingEvent)) ∧
      (H.Reportable ctx → ∃ ev ∈ H.invocationEvents ctx s, ev.eventType = .toolInvocation) := by
  unfold invocationEvents
  constructor
  · intro ev hev
    unfold buildEvent at hev
    cases hn : measureSize ctx.requestPayload with
    | error e =>
      rw [hn] at hev
      cases hev
    | ok n =>
      cases hm : measureSize ctx.responsePayload with
      | error e =>
        rw [hn, hm] at hev
        cases hev
      | ok m =>
        rw [hn, hm] at hev
        dsimp only [bind, Except.bind, pure, Except.pure] at hev
        split at hev
        · rcases List.mem_pair.mp hev with rfl | rfl
          · exact ⟨rfl, .inl rfl⟩
          · exact ⟨rfl, .inr rfl⟩
        · rw [List.mem_singleton.mp hev]
          exact ⟨rfl, .inl rfl⟩
  · rintro ⟨n, m, hn, hm, -⟩
    rw [H.buildEvent_of_sizes hn hm, H.buildEvent_of_sizes hn hm]
    dsimp only
    split
    · exact ⟨_, List.mem_cons_self, rfl⟩
    · exact ⟨_, List.mem_cons_self, rfl⟩

section
variable (first last : List (LifecycleHook σ)) (c : HookContext) (w : AuditLog η × σ)

/-- The context with which the audit hook is called. -/
def Called (seen : HookContext) : Prop :=
  ∃ w', calledWith (first.map (·.beside)) (watched first last H.toHook) c w = some (seen, w')

/-- What a run of the pipeline emits: events of the context that the audit hook is called with,
and of the failure. -/
structure Emits (invocations failures : List AuditEvent) : Prop where
  invocation (ev : AuditEvent) : ev ∈ invocations → ∃ seen, H.Called first last c w seen ∧
    H.Reportable seen ∧ ev.policyDecision = decisionValue seen.policyDecision ∧
      (ev.eventType = .toolInvocation ∨ ev.eventType = .maskingEvent)
  called (seen : HookContext) : H.Called first last c w seen → H.Reportable seen →
    ∃ ev ∈ invocations, ev.eventType = .toolInvocation ∧
      ev.policyDecision = decisionValue seen.policyDecision
  failure (ev : AuditEvent) : ev ∈ failures → ∃ e s,
    (execute (watched first last H.toHook) c w).1.error = some e ∧
      H.Reportable (execute (watched first last H.toHook) c w).1.context ∧
      ev ∈ H.failureEvents (execute (watched first last H.toHook) c w).1.context e s
  reported (e : Exc) : (execute (watched first last H.toHook) c w).1.error = some e →
    H.Reportable (execute (watched first last H.toHook) c w).1.context → failures ≠ []

theorem noted_emits : ∃ invocations,
    (noted H.note w.1 (calledWith (first.map (·.beside)) (watched first last H.toHook) c w)).emitted =
        w.1.emitted ++ invocations ∧
      (∀ ev ∈ invocations, ∃ seen, H.Called first last c w seen ∧ H.Reportable seen ∧
        ev.policyDecision = decisionValue seen.policyDecision ∧
        (ev.eventType = .toolInvocation ∨ ev.eventType = .maskingEvent)) ∧
      ∀ seen, H.Called first last c w seen → H.Reportable seen → ∃ ev ∈ invocations,
        ev.eventType = .toolInvocation ∧ ev.policyDecision = decisionValue seen.policyDecision := by
  unfold Called
  cases calledWith (first.map (·.beside)) (watched first last H.toHook) c w with
  | none =>
    refine ⟨[], (List.append_nil _).symm, by simp, ?_⟩
    rintro seen ⟨w', hcalled⟩
    cases hcalled
  | some call =>
    obtain ⟨seen, w'⟩ := call
    obtain ⟨hspec, htold⟩ := H.invocationEvents_spec seen w'.2
    dsimp only [noted]
    by_cases hreport : H.Reportable seen
    · refine ⟨_, H.note_emitted_of_reportable hreport w'.2 w.1, ?_, ?_⟩
      · intro ev hev
        obtain ⟨hdecision, htype⟩ := hspec ev hev
        exact ⟨seen, ⟨w', rfl⟩, hreport, hdecision, htype⟩
      · rintro seen' ⟨w'', hcalled⟩ -
        cases hcalled
        obtain ⟨ev, hev, htype⟩ := htold hreport
        exact ⟨ev, hev, htype, (hspec ev hev).1⟩
    · refine ⟨[], ?_, by simp, ?_⟩
      · rw [H.note_emitted_of_not_reportable hreport, List.append_nil]
      · rintro seen' ⟨w'', hcalled⟩ hreport'
        cases hcalled
        exact absurd hreport' hreport

theorem execute_emits : ∃ invocations failures,
    (execute (watched first last H.toHook) c w).2.1.emitted = w.1.emitted ++ (invocations ++ failures) ∧
      H.Emits first last c w invocations failures := by
  obtain ⟨⟨v, hown⟩, -⟩ := execute_watched H.observes first last c w
  obtain ⟨invocations, hnoted, hinvocation, hcalled⟩ := H.noted_emits first last c w
  cases herror : (execute (watched first last H.toHook) c w).1.error with
  | none =>
    rw [herror] at hown
    refine ⟨invocations, [], ?_, hinvocation, hcalled, by simp, ?_⟩
    · rw [hown, List.append_nil]
      exact hnoted
    · intro e he
      rw [herror] at he
      cases he
  | some e =>
    rw [herror] at hown
    dsimp only at hown
    by_cases hreport : H.Reportable (execute (watched first last H.toHook) c w).1.context
    · refine ⟨invocations, H.failureEvents (execute (watched first last H.toHook) c w).1.context e v, ?_,
        hinvocation, hcalled, fun ev hev => ⟨e, v, herror, hreport, hev⟩, ?_⟩
      · rw [hown]
        refine (H.report_emitted_of_reportable hreport e v _).trans ?_
        rw [← List.append_assoc]
        exact congrArg (· ++ _) hnoted
      · intro _ _ _
        obtain ⟨n, m, hn, hm, -⟩ := hreport
        simp [failureEvents, H.buildEvent_of_sizes hn hm]
    · refine ⟨invocations, [], ?_, hinvocation, hcalled, by simp, fun _ _ h => absurd h hreport⟩
      rw [hown, List.append_nil]
      exact (H.report_emitted_of_not_reportable hreport e v _).trans hnoted

/-- The audit hook is told of the denial: a hook fails and the context that is left can be
reported, or the audit hook is called with such a context in which the denial stands. -/
def DenialReported : Prop :=
  ((execute (watched first last H.toHook) c w).1.error ≠ none ∧
      H.Reportable (execute (watched first last H.toHook) c w).1.context) ∨
    ∃ seen, H.Called first last c w seen ∧ H.Reportable seen ∧ seen.policyDecision = .deny

/-- The audit hook is told how the response ends: the post-call pipeline fails with a context
that can be reported, or content can be rebuilt from the payload that it returns. -/
def ResponseReported (P : ProxyServer σ S C) : Prop :=
  match (execute (watched first last H.toHook) c w).1.error with
  | some _ => H.Reportable (execute (watched first last H.toHook) c w).1.context
  | none => ∃ content, P.rebuildContent
      (execute (watched first last H.toHook) c w).1.context.responsePayload = .ok content

theorem told_denied_iff
    (hdeny : (execute (watched first last H.toHook) c w).1.context.policyDecision = .deny) :
    Told w.1 (execute (watched first last H.toHook) c w).2.1 .denied ↔
      H.DenialReported first last c w := by
  obtain ⟨invocations, failures, hemitted, hemits⟩ := H.execute_emits first last c w
  rw [told_iff hemitted]
  constructor
  · rintro ⟨ev, hev, hdecision⟩
    rcases List.mem_append.mp hev with hev | hev
    · obtain ⟨seen, hcalled, hreport, hseen, -⟩ := hemits.invocation ev hev
      refine .inr ⟨seen, hcalled, hreport, ?_⟩
      have hvalue : decisionValue seen.policyDecision = decisionValue .deny :=
        hseen.symm.trans hdecision
      cases hd : seen.policyDecision with
      | deny => rfl
      | _ =>
        rw [hd] at hvalue
        exact absurd hvalue (by decide)
    · obtain ⟨e, s, herror, hreport, -⟩ := hemits.failure ev hev
      exact .inl ⟨by simp [herror], hreport⟩
  · rintro (⟨herror, hreport⟩ | ⟨seen, hcalled, hreport, hseen⟩)
    · obtain ⟨e, he⟩ := Option.ne_none_iff_exists'.mp herror
      obtain ⟨ev, hev⟩ := List.exists_mem_of_ne_nil _ (hemits.reported e he hreport)
      obtain ⟨e', s, -, -, hevent⟩ := hemits.failure ev hev
      obtain ⟨-, -, hdecision, -⟩ := H.failureEvents_spec hevent
      refine ⟨ev, List.mem_append_right _ hev, ?_⟩
      rw [Outcome.ToldBy, hdecision, hdeny]
    · obtain ⟨ev, hev, -, hdecision⟩ := hemits.called seen hcalled hreport
      refine ⟨ev, List.mem_append_left _ hev, ?_⟩
      rw [Outcome.ToldBy, hdecision, hseen]

theorem told_blocked_iff {e : Exc}
    (he : (execute (watched first last H.toHook) c w).1.error = some e) :
    Told w.1 (execute (watched first last H.toHook) c w).2.1 (.blocked e) ↔
      H.Reportable (execute (watched first last H.toHook) c w).1.context := by
  obtain ⟨invocations, failures, hemitted, hemits⟩ := H.execute_emits first last c w
  rw [told_iff hemitted]
  constructor
  · rintro ⟨ev, hev, htype, -⟩
    rcases List.mem_append.mp hev with hev | hev
    · obtain ⟨-, -, -, -, hinvocation⟩ := hemits.invocation ev hev
      rw [htype] at hinvocation
      rcases errorEventType_cases e with h | h <;> simp [h] at hinvocation
    · obtain ⟨-, -, -, hreport, -⟩ := hemits.failure ev hev
      exact hreport
  · intro hreport
    obtain ⟨ev, hev⟩ := List.exists_mem_of_ne_nil _ (hemits.reported e he hreport)
    obtain ⟨e', s, he', -, hevent⟩ := hemits.failure ev hev
    obtain rfl : e' = e := Option.some.inj (he'.symm.trans he)
    obtain ⟨htype, -, -, hname, hmessage⟩ := H.failureEvents_spec hevent
    exact ⟨ev, List.mem_append_right _ hev, htype, hname, hmessage⟩

/-- A run of the pipeline that succeeds tells of an invocation and of no failure. -/
theorem told_of_success (he : (execute (watched first last H.toHook) c w).1.error = none) :
    Told w.1 (execute (watched first last H.toHook) c w).2.1 .returned ∧
      ∀ e, ¬ Told w.1 (execute (watched first last H.toHook) c w).2.1 (.failed e) := by
  obtain ⟨-, haccepted⟩ := execute_watched H.observes first last c w
  obtain ⟨invocations, failures, hemitted, hemits⟩ := H.execute_emits first last c w
  simp only [told_iff hemitted]
  constructor
  · obtain ⟨seen, w', hcalled, hreport⟩ := haccepted he
    obtain ⟨ev, hev, htype, -⟩ := hemits.called seen ⟨w', hcalled⟩ hreport
    exact ⟨ev, List.mem_append_left _ hev, htype⟩
  · rintro e ⟨ev, hev, htype, -⟩
    rcases List.mem_append.mp hev with hev | hev
    · obtain ⟨-, -, -, -, hinvocation⟩ := hemits.invocation ev hev
      simp [htype] at hinvocation
    · obtain ⟨e', s, he', -⟩ := hemits.failure ev hev
      rw [he] at he'
      cases he'

end

/-- A call with an upstream result is told exactly when the audit hook is told how the response
ends. -/
theorem auditComplete_iff_of_answered (P : ProxyServer σ S C) {first last : List (LifecycleHook σ)}
    {req : Request} {w : AuditLog η × σ} {server tool : String} {config : Transport.ServerConfig}
    {r : CallToolResult C} {v : σ} {earlier : List (CallEvent S C)}
    (hroute : P.route req.name = .ok (server, tool, config))
    {pre : PipelineResult × (AuditLog η × σ)}
    (hpre : execute (watched first last H.toHook)
      (ProxyServer.initialContext req server tool config) w = pre)
    (hallow : pre.1.context.policyDecision ≠ .deny)
    (hrun : (P.observed (watched first last H.toHook)).callTool req w =
      ((P.observed (watched first last H.toHook)).finish pre.1.context r (pre.2.1, v)).after
        (.preRun pre.1 :: (earlier ++ [.upstreamResult r]))) :
    AuditComplete P.collaborators server w.1 pre
        ((P.observed (watched first last H.toHook)).callTool req w) ↔
      H.ResponseReported first last
        { pre.1.context with responsePayload := P.responsePayload r } (pre.2.1, v) P := by
  have hanswered : .upstreamResult r ∈
      ((P.observed (watched first last H.toHook)).callTool req w).events := by
    rw [hrun]
    simp
  have htoken : ∀ m a u, P.collaborators.getToken server pre.1.context.request pre.2.2 ≠
      (.error (.tokenExchange m a), u) := by
    intro m a u htoken
    rw [← hpre] at hallow htoken
    obtain ⟨result, hrefused⟩ :=
      P.callTool_observed_of_refused (watched first last H.toHook) req w hroute hallow htoken
    rw [hrefused] at hanswered
    simp at hanswered
  have hlast : ∀ post, .postRun post ∈ ((P.observed (watched first last H.toHook)).callTool
      req w).events → post = (execute (watched first last H.toHook)
        { pre.1.context with responsePayload := P.responsePayload r } (pre.2.1, v)).1 := by
    intro post hpost
    refine P.postRun_unique _ _ _ hpost ?_
    rw [hrun]
    simp [P.finish_observed_events]
  rw [hrun] at hlast ⊢
  unfold ResponseReported
  cases herror : (execute (watched first last H.toHook)
      { pre.1.context with responsePayload := P.responsePayload r } (pre.2.1, v)).1.error with
  | some e =>
    rw [P.finish_observed_of_error _ _ _ _ herror] at hlast ⊢
    rw [← H.told_blocked_iff _ _ _ _ herror]
    constructor
    · intro hcomplete
      exact hcomplete.blocked _ e (by simp) herror
    · intro htold
      exact {
        denied := fun hdeny => absurd hdeny hallow
        tokenRefused := fun m a u _ h => absurd h (htoken m a u)
        blocked := fun post e' hpost he' => by
          rw [hlast post hpost, herror] at he'
          cases he'
          exact htold
        failed := fun e' he' => nomatch he'
        returned := fun post content hpost he' _ => by
          rw [hlast post hpost, herror] at he'
          cases he' }
  | none =>
    obtain ⟨hreturned, hfailed⟩ := H.told_of_success _ _ _ _ herror
    rw [P.finish_observed_of_success _ _ _ _ herror] at hlast ⊢
    constructor
    · intro hcomplete
      cases hcontent : P.rebuildContent (execute (watched first last H.toHook)
        { pre.1.context with responsePayload := P.responsePayload r }
          (pre.2.1, v)).1.context.responsePayload with
      | ok content => exact ⟨content, rfl⟩
      | error e => exact absurd (hcomplete.failed e hcontent) (hfailed e)
    · rintro ⟨content, hcontent⟩
      exact {
        denied := fun hdeny => absurd hdeny hallow
        tokenRefused := fun m a u _ h => absurd h (htoken m a u)
        blocked := fun post e' hpost he' => by
          rw [hlast post hpost, herror] at he'
          cases he'
        failed := fun e' he' => by
          rw [CallRun.after_result, hcontent] at he'
          cases he'
        returned := fun _ _ _ _ _ => hreturned }

end AuditHook

def plainProxy : ProxyServer Unit Unit String := ProxyServer.textProxy []

/-- A proxy whose token exchange fails. -/
def tokenlessProxy : ProxyServer Unit Unit String :=
  { plainProxy with
    collaborators :=
      { Collaborators.answering () with
        getToken := fun _ _ s => (.error (.tokenExchange "invalid_grant" "db"), s) } }

def emptyLog : AuditLog Unit × Unit := ({ handlers := () }, ())

def queryConfig : Transport.ServerConfig := { name := .str "db", transport := .http }

/-- The context of the call of the tool query. -/
def querySent : HookContext :=
  ProxyServer.initialContext ProxyServer.queryRequest "db" "query" queryConfig

end McpZero.Audit
