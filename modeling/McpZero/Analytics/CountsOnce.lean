import McpZero.Analytics.Hook
import McpZero.Proxy.Observed

/-! How often a call is counted. The pipeline runs before and after the upstream call, and the
hook records a call and its masking events in each of the two runs that gets to it. -/
namespace McpZero.Analytics
open Python Pipeline Proxy

variable {σ S C : Type}

def AnalyticsEvent.isCall (e : AnalyticsEvent) : Bool := e.eventType == .toolCall

/-- The record of a masking event of the request. -/
def AnalyticsEvent.isInputMasking (e : AnalyticsEvent) : Bool :=
  e.eventType == .redaction || (e.eventType == .maskingFailure && e.direction == "input")

/-- What a record tells of a masking event. -/
def outcome (e : MaskingEvent) : Option (String × ℤ) :=
  if e.status = "failed" then none else some (e.entityType, e.count)

namespace AnalyticsHook

/-- The context that the hook is given in a run of the pipeline, if the run gets to it and both
payloads are JSON. -/
def given (first last : List (LifecycleHook σ)) (h : AnalyticsHook σ) (c : HookContext)
    (w : AnalyticsCollector × σ) : Option HookContext :=
  match calledWith (first.map (·.beside)) (watched first last h.toHook) c w with
  | some (seen, _) => if Measured seen then some seen else none
  | none => none

/-- One call is recorded of a call that the upstream has answered, and of any call each masking
event that the pre-call run left is recorded once. -/
def CountsOnce (c : AnalyticsCollector) (run : CallRun (AnalyticsCollector × σ) S C) : Prop :=
  ∃ new, run.state.1.recorded = c.recorded ++ new ∧
    (∀ r, .upstreamResult r ∈ run.events → new.countP AnalyticsEvent.isCall = 1) ∧
    ∀ pre, .preRun pre ∈ run.events → new.filter AnalyticsEvent.isInputMasking =
      pre.context.maskingEvents.map (maskingRecord pre.context)

/-- Two contexts with masking events of the same outcomes, for the same tool. -/
structure SameMasking (seen pre : HookContext) : Prop where
  outcomes : seen.maskingEvents.map outcome = pre.maskingEvents.map outcome
  tool : pre.maskingEvents ≠ [] → seen.serverName = pre.serverName ∧ seen.toolName = pre.toolName

/-- The hook is given the masking events that the pre-call run left, unless there are none. -/
def GivenIfMasked (pre : HookContext) : Option HookContext → Prop
  | some seen => SameMasking seen pre
  | none => pre.maskingEvents = []

/-- The hook is given a context in one of the two runs but not in the other, with the masking
events that the pre-call run left. -/
def GivenInOne (pre : HookContext) : Option HookContext → Option HookContext → Prop
  | some seen, none => SameMasking seen pre
  | none, some seen => SameMasking seen pre
  | _, _ => False

theorem maskingRecord_inj {seen pre : HookContext} {e e' : MaskingEvent} :
    maskingRecord seen e = maskingRecord pre e' ↔
      (seen.serverName = pre.serverName ∧ seen.toolName = pre.toolName) ∧
        outcome e = outcome e' := by
  unfold maskingRecord outcome
  split_ifs <;> simp [and_assoc]

theorem map_maskingRecord_inj {seen pre : HookContext} {events events' : List MaskingEvent} :
    events.map (maskingRecord seen) = events'.map (maskingRecord pre) ↔
      events.map outcome = events'.map outcome ∧ (events' ≠ [] →
        seen.serverName = pre.serverName ∧ seen.toolName = pre.toolName) := by
  induction events generalizing events' with
  | nil => cases events' <;> simp
  | cons e events ih =>
    cases events' with
    | nil => simp
    | cons e' events' =>
      simp only [List.map_cons, List.cons.injEq, maskingRecord_inj, ih, ne_eq, reduceCtorEq,
        not_false_eq_true, true_implies]
      tauto

theorem sameMasking_iff {seen pre : HookContext} : SameMasking seen pre ↔
    seen.maskingEvents.map (maskingRecord seen) = pre.maskingEvents.map (maskingRecord pre) := by
  rw [map_maskingRecord_inj]
  exact ⟨fun h => ⟨h.outcomes, h.tool⟩, fun h => ⟨h.1, h.2⟩⟩

/-- What a run records of calls and of masking events of the request. -/
def Records (new : List AnalyticsEvent) (seen : Option HookContext) : Prop :=
  new.countP AnalyticsEvent.isCall = seen.elim 0 (fun _ => 1) ∧
    new.filter AnalyticsEvent.isInputMasking =
      seen.elim [] fun seen => seen.maskingEvents.map (maskingRecord seen)

theorem countP_maskingRecord (ctx : HookContext) (events : List MaskingEvent) :
    (events.map (maskingRecord ctx)).countP AnalyticsEvent.isCall = 0 := by
  rw [List.countP_eq_zero]
  intro e he
  obtain ⟨event, -, rfl⟩ := List.mem_map.mp he
  unfold maskingRecord
  split <;> exact Bool.false_ne_true

theorem filter_maskingRecord (ctx : HookContext) (events : List MaskingEvent) :
    (events.map (maskingRecord ctx)).filter AnalyticsEvent.isInputMasking =
      events.map (maskingRecord ctx) := by
  rw [List.filter_eq_self]
  intro e he
  obtain ⟨event, -, rfl⟩ := List.mem_map.mp he
  unfold maskingRecord
  split <;> rfl

theorem outputRecords_others (ctx : HookContext) :
    (outputRecords ctx).countP AnalyticsEvent.isCall = 0 ∧
      (outputRecords ctx).filter AnalyticsEvent.isInputMasking = [] := by
  unfold outputRecords
  split
  · exact ⟨rfl, rfl⟩
  · exact ⟨rfl, rfl⟩

/-- A context with sizes is recorded as one call with its masking events. -/
theorem note_recorded (h : AnalyticsHook σ) {ctx : HookContext} (hmeasured : Measured ctx) (s : σ)
    (c : AnalyticsCollector) :
    ∃ new, (h.note ctx s c).recorded = c.recorded ++ new ∧ Records new (some ctx) := by
  obtain ⟨hcall, hinput⟩ := outputRecords_others ctx
  obtain ⟨n, m, hn, hm⟩ := measured_iff.mp hmeasured
  rw [note, hn, hm]
  refine ⟨_, recordCall_recorded _ _ _ _ _, ?_⟩
  unfold Records
  rw [List.countP_append, List.countP_cons, List.filter_append, List.filter_cons, hcall, hinput,
    countP_maskingRecord, filter_maskingRecord]
  exact ⟨rfl, List.append_nil _⟩

theorem note_of_not_measured (h : AnalyticsHook σ) {ctx : HookContext} (hmeasured : ¬ Measured ctx)
    (s : σ) (c : AnalyticsCollector) : h.note ctx s c = c := by
  unfold note
  cases hn : measureSize ctx.requestPayload with
  | error e => rfl
  | ok n =>
    cases hm : measureSize ctx.responsePayload with
    | error e => rfl
    | ok m => exact absurd (measured_iff.mpr ⟨n, m, hn, hm⟩) hmeasured

/-- A run of the pipeline records what its hook counts, and a failure besides. -/
theorem execute_records (h : AnalyticsHook σ) (first last : List (LifecycleHook σ))
    (c : HookContext) (w : AnalyticsCollector × σ) :
    ∃ new, (execute (watched first last h.toHook) c w).2.1.recorded = w.1.recorded ++ new ∧
      Records new (given first last h c w) := by
  obtain ⟨⟨v, hown⟩, -⟩ := execute_watched h.observes first last c w
  have hnoted : ∃ new, (noted h.note w.1 (calledWith (first.map (·.beside))
      (watched first last h.toHook) c w)).recorded = w.1.recorded ++ new ∧
        Records new (given first last h c w) := by
    unfold given
    cases calledWith (first.map (·.beside)) (watched first last h.toHook) c w with
    | none => exact ⟨[], (List.append_nil _).symm, rfl, rfl⟩
    | some call =>
      obtain ⟨seen, w'⟩ := call
      dsimp only [noted]
      by_cases hmeasured : Measured seen
      · rw [if_pos hmeasured]
        exact note_recorded h hmeasured w'.2 w.1
      · rw [if_neg hmeasured, note_of_not_measured h hmeasured]
        exact ⟨[], (List.append_nil _).symm, rfl, rfl⟩
  obtain ⟨new, hnew, hcall, hinput⟩ := hnoted
  cases herror : (execute (watched first last h.toHook) c w).1.error with
  | none =>
    rw [herror] at hown
    exact ⟨new, by rw [hown, hnew], hcall, hinput⟩
  | some e =>
    rw [herror] at hown
    dsimp only at hown
    by_cases hcategory : h.Categorized (execute (watched first last h.toHook) c w).1.context e
    · obtain ⟨failure, htype, -, hfailure⟩ := h.recordFailure_of_categorized hcategory
        (noted h.note w.1 (calledWith (first.map (·.beside)) (watched first last h.toHook) c w))
      have hothers : failure.isCall = false ∧ failure.isInputMasking = false := by
        unfold AnalyticsEvent.isCall AnalyticsEvent.isInputMasking
        rw [htype]
        split <;> exact ⟨rfl, rfl⟩
      refine ⟨new ++ [failure], by rw [hown, hfailure, hnew, List.append_assoc], ?_, ?_⟩
      · rw [List.countP_append, hcall, List.countP_singleton, if_neg (by simp [hothers.1])]
        rfl
      · rw [List.filter_append, hinput, List.filter_singleton, hothers.2, Bool.cond_false,
          List.append_nil]
    · have hsilent := h.recordFailure_of_not_categorized hcategory
        (noted h.note w.1 (calledWith (first.map (·.beside)) (watched first last h.toHook) c w))
      exact ⟨new, by rw [hown, hsilent, hnew], hcall, hinput⟩

/-- What a run of the pipeline records is one record for each masking event exactly when the
hook is given these. -/
theorem givenIfMasked_iff {pre : HookContext} {new : List AnalyticsEvent}
    {seen : Option HookContext} (hnew : Records new seen) :
    new.filter AnalyticsEvent.isInputMasking = pre.maskingEvents.map (maskingRecord pre) ↔
      GivenIfMasked pre seen := by
  rw [hnew.2]
  cases seen with
  | none =>
    rw [Option.elim_none, eq_comm, List.map_eq_nil_iff]
    rfl
  | some seen => exact sameMasking_iff.symm

/-- What two runs record is one call with its masking events exactly when the hook is given them in
one of the two. -/
theorem givenInOne_iff {pre : HookContext} {new new' : List AnalyticsEvent}
    {seen seen' : Option HookContext} (hnew : Records new seen) (hnew' : Records new' seen') :
    ((new ++ new').countP AnalyticsEvent.isCall = 1 ∧
      (new ++ new').filter AnalyticsEvent.isInputMasking =
        pre.maskingEvents.map (maskingRecord pre)) ↔ GivenInOne pre seen seen' := by
  rw [List.countP_append, List.filter_append, hnew.1, hnew'.1, hnew.2, hnew'.2]
  cases seen with
  | none => cases seen' <;> simp [GivenInOne, sameMasking_iff]
  | some seen => cases seen' <;> simp [GivenInOne, sameMasking_iff]

/-- The property of a run of which the new records and the pre-call run are known. -/
theorem countsOnce_iff_of_recorded {c : AnalyticsCollector} {pre : PipelineResult}
    {run : CallRun (AnalyticsCollector × σ) S C} {new : List AnalyticsEvent}
    (hnew : run.state.1.recorded = c.recorded ++ new)
    (hpre : ∀ pre', .preRun pre' ∈ run.events ↔ pre' = pre) :
    CountsOnce c run ↔
      (∀ r, .upstreamResult r ∈ run.events → new.countP AnalyticsEvent.isCall = 1) ∧
        new.filter AnalyticsEvent.isInputMasking =
          pre.context.maskingEvents.map (maskingRecord pre.context) := by
  unfold CountsOnce
  simp only [hpre, forall_eq]
  constructor
  · intro h
    obtain ⟨new', hnew', hcall, hinput⟩ := h
    obtain rfl : new = new' := List.append_cancel_left (hnew.symm.trans hnew')
    exact ⟨hcall, hinput⟩
  · intro h
    exact ⟨new, hnew, h⟩

section
variable (P : ProxyServer σ S C) (h : AnalyticsHook σ) (first last : List (LifecycleHook σ))
  (req : Request) (w : AnalyticsCollector × σ) {server tool : String}
  {config : Transport.ServerConfig}

theorem countsOnce_iff_of_answered (hroute : P.route req.name = .ok (server, tool, config))
    {pre : PipelineResult × (AnalyticsCollector × σ)}
    (hpre : execute (watched first last h.toHook)
      (ProxyServer.initialContext req server tool config) w = pre) {r : CallToolResult C} {v : σ}
    (hanswered : P.AnsweredIn (watched first last h.toHook) req w r
      (ProxyServer.initialContext req server tool config) v) :
    CountsOnce w.1 ((P.observed (watched first last h.toHook)).callTool req w) ↔
      GivenInOne pre.1.context
        (given first last h (ProxyServer.initialContext req server tool config) w)
        (given first last h { pre.1.context with responsePayload := P.responsePayload r }
          (pre.2.1, v)) := by
  obtain ⟨new, hfirst, hnew⟩ := execute_records h first last
    (ProxyServer.initialContext req server tool config) w
  obtain ⟨new', hpost, hnew'⟩ := execute_records h first last
    { pre.1.context with responsePayload := P.responsePayload r } (pre.2.1, v)
  have hpreRun := P.preRun_mem_iff (watched first last h.toHook) req w hroute
  have hresult := hanswered.upstreamResult_mem
  obtain ⟨-, -, -, earlier, -, -, hrun⟩ := hanswered
  rw [hpre] at hfirst hpreRun hrun
  have hstate := (congrArg CallRun.state hrun).trans (P.finish_observed_state _ _ _ r)
  have hall : ((P.observed (watched first last h.toHook)).callTool req w).state.1.recorded =
      w.1.recorded ++ (new ++ new') := by
    rw [hstate, hpost, hfirst, List.append_assoc]
  rw [countsOnce_iff_of_recorded hall hpreRun, ← givenInOne_iff hnew hnew']
  exact and_congr_left fun _ => ⟨fun hcall => hcall r hresult, fun hcall _ _ => hcall⟩

theorem countsOnce_iff_of_unanswered (hroute : P.route req.name = .ok (server, tool, config))
    (hnone : ∀ r, .upstreamResult r ∉
      ((P.observed (watched first last h.toHook)).callTool req w).events) :
    CountsOnce w.1 ((P.observed (watched first last h.toHook)).callTool req w) ↔
      GivenIfMasked (execute (watched first last h.toHook)
          (ProxyServer.initialContext req server tool config) w).1.context
        (given first last h (ProxyServer.initialContext req server tool config) w) := by
  obtain ⟨new, hpre, hnew⟩ := execute_records h first last
    (ProxyServer.initialContext req server tool config) w
  have hpreRun := P.preRun_mem_iff (watched first last h.toHook) req w hroute
  rw [← P.own_of_unanswered (watched first last h.toHook) req w hroute hnone] at hpre
  rw [countsOnce_iff_of_recorded hpre hpreRun, givenIfMasked_iff hnew]
  exact ⟨fun hgiven => hgiven.2, fun hgiven => ⟨fun r hr => absurd hr (hnone r), hgiven⟩⟩

end

end AnalyticsHook

open AnalyticsHook

def plainHook : AnalyticsHook Unit where
  unicode := .ascii
  monotonic _ := 0

def plainProxy : ProxyServer Unit Unit String := ProxyServer.textProxy []

/-- The proxy with the analytics hook alone. -/
def countedProxy : ProxyServer (AnalyticsCollector × Unit) Unit String :=
  plainProxy.observed (watched [] [] plainHook.toHook)

def emptyCollector : AnalyticsCollector × Unit := ({ queueSize := 0 }, ())

def isAnswer : CallEvent Unit String → Bool
  | .upstreamResult _ => true
  | _ => false

theorem countedProxy_answered : ∃ r, .upstreamResult r ∈
    (countedProxy.callTool ProxyServer.queryRequest emptyCollector).events := by
  have hany : (countedProxy.callTool ProxyServer.queryRequest emptyCollector).events.any
      isAnswer = true := by
    decide +kernel
  obtain ⟨e, hmem, he⟩ := List.any_eq_true.mp hany
  cases e with
  | upstreamResult r => exact ⟨r, hmem⟩
  | _ => cases he

theorem plainProxy_routes : plainProxy.route ProxyServer.queryRequest.name =
    .ok ("db", "query", { name := .str "db", transport := .http }) := rfl

end McpZero.Analytics
