import McpZero.Audit.Completeness
import McpZero.Lib.StableSort
import McpZero.Pipeline.Registration
import McpZero.Proxy.Simulation
import McpZero.Python.JsonRoundTrip

/-! Calls with and without the observers. On contexts whose payloads are JSON the observers
return what they are given, and the other hooks and the collaborators do not see what the
observers do. -/
namespace McpZero.Audit
open Python Json Lib Pipeline Proxy Analytics

variable {η σ S C : Type}

/-- The size of a payload is an integer that can be logged. -/
def ShortSize (payload : Dict) : Prop := ∀ n, payloadSize payload = .ok n → ShortInt n

/-- The payloads are JSON values, and the other values that the audit hook logs can be written. -/
structure JsonContext (read : List Char → Python.Float) (ctx : HookContext) : Prop where
  request : IsJson read (.dict ctx.requestPayload)
  response : IsJson read (.dict ctx.responsePayload)
  requestSize : ShortSize ctx.requestPayload
  responseSize : ShortSize ctx.responsePayload
  ruleId : Writable (defaultStr ctx.policyRuleId)
  reason : Writable (defaultStr ctx.shortCircuitReason)
  counts (e : MaskingEvent) : e ∈ ctx.maskingEvents → ShortInt e.count

theorem exists_payloadSize {read : List Char → Python.Float} {payload : Dict}
    (h : IsJson read (.dict payload)) : ∃ n, payloadSize payload = .ok n := by
  unfold payloadSize
  split
  · exact ⟨0, rfl⟩
  · obtain ⟨cs, hcs⟩ := writable_of_isJson _ h
    exact ⟨cs.length, by rw [hcs]; rfl⟩

variable {read : List Char → Python.Float} {ctx : HookContext}

theorem JsonContext.measured (h : JsonContext read ctx) : AnalyticsHook.Measured ctx := by
  obtain ⟨n, hn⟩ := exists_payloadSize h.request
  obtain ⟨m, hm⟩ := exists_payloadSize h.response
  exact AnalyticsHook.measured_iff.mpr ⟨n, m, hn, hm⟩

theorem JsonContext.reportable (h : JsonContext read ctx) (H : AuditHook η σ) :
    H.Reportable ctx := by
  obtain ⟨n, hn⟩ := exists_payloadSize h.request
  obtain ⟨m, hm⟩ := exists_payloadSize h.response
  refine ⟨n, m, hn, hm, (H.writes_iff _).mpr ⟨fun _ => h.ruleId, fun _ => h.reason,
    fun _ => ?_, fun _ => ?_, fun _ => ?_⟩⟩
  · exact (writable_int_iff n).mpr (h.requestSize n hn)
  · exact (writable_int_iff m).mpr (h.responseSize m hm)
  · intro summary hsummary
    obtain ⟨e, he, rfl⟩ := List.mem_map.mp hsummary
    exact (writable_int_iff e.count).mpr (h.counts e he)

/-- The hook at a place, where it is not an observer. -/
def Member.hook? : Member σ → Option (LifecycleHook σ)
  | hook h => some h
  | _ => none

/-- The world without what the observers keep. -/
def Unobserved (w : ObservedWorld η σ) (s : σ) : Prop := w.2.2 = s

namespace Observers

variable (o : Observers η σ)

theorem watches_analytics : Watches (JsonContext read) Unobserved (o.hookAt .analytics) where
  result p ctx w hctx := by
    by_cases hp : p = .preAudit
    · rw [hp]
      exact o.analytics.observes.accepted ctx w (hctx hp).measured
    · exact congrArg Prod.fst (o.analytics.observes.idle p ctx w hp)
  world p ctx w s hw := by
    by_cases hp : p = .preAudit
    · rw [hp]
      have hown : (o.analytics.toHook.onPreAudit ctx w).2.2.2 = w.2.2 := by
        rw [o.analytics.observes.preAudit]
      exact hown.trans hw
    · have hidle := o.analytics.observes.idle p ctx w hp
      rw [hookAt, hidle]
      exact hw
  onError ctx e w s hw := by
    have hown : (o.analytics.toHook.onError ctx e w).2.2.2 = w.2.2 := by
      rw [o.analytics.observes.onError]
    exact hown.trans hw

theorem watches_audit : Watches (JsonContext read) Unobserved (o.hookAt .audit) where
  result p ctx w hctx := by
    rw [hookAt, LifecycleHook.beside_method]
    by_cases hp : p = .preAudit
    · rw [hp]
      exact o.audit.observes.accepted ctx w.2 ((hctx hp).reportable o.audit)
    · exact congrArg Prod.fst (o.audit.observes.idle p ctx w.2 hp)
  world p ctx w s hw := by
    rw [hookAt, LifecycleHook.beside_method]
    by_cases hp : p = .preAudit
    · rw [hp]
      have hown : (o.audit.toHook.onPreAudit ctx w.2).2.2 = w.2.2 := by
        rw [o.audit.observes.preAudit]
      exact hown.trans hw
    · have hidle := o.audit.observes.idle p ctx w.2 hp
      rw [Pipeline.beside, hidle]
      exact hw
  onError ctx e w s hw := by
    have hown : (o.audit.toHook.onError ctx e w.2).2.2 = w.2.2 := by
      rw [o.audit.observes.onError]
    exact hown.trans hw

theorem follows_hook (h : LifecycleHook σ) : Follows Unobserved (o.hookAt (.hook h)) h where
  name := rfl
  result p ctx w s hw := by
    rw [← hw, hookAt, LifecycleHook.beside_method, Pipeline.beside, LifecycleHook.beside_method]
    rfl
  world p ctx w s hw := by
    rw [← hw, hookAt, LifecycleHook.beside_method, Pipeline.beside, LifecycleHook.beside_method]
    rfl
  onError ctx e w s hw := by
    rw [← hw]
    rfl

/-- The hooks with the observers are the other hooks with watchers in between. -/
theorem extends_hooks (members : List (Member σ)) :
    Extends (JsonContext read) Unobserved (o.hooks members) (members.filterMap Member.hook?) := by
  induction members with
  | nil => exact .nil
  | cons m members ih =>
    cases m with
    | analytics => exact .watcher o.watches_analytics ih
    | audit => exact .watcher o.watches_audit ih
    | hook h => exact .hook (o.follows_hook h) ih

/-- What is registered at the places. -/
def registered (places : List (ℤ × Member σ)) : List (ℤ × LifecycleHook (ObservedWorld η σ)) :=
  places.map fun place => (place.1, o.hookAt place.2)

end Observers

/-- The place of another hook. -/
def others (registrations : List (ℤ × LifecycleHook σ)) : List (ℤ × Member σ) :=
  registrations.map fun r => (r.1, .hook r.2)

/-- The observers are registered with their priorities among the other hooks. -/
def placesAmong (first second third : List (ℤ × LifecycleHook σ)) : List (ℤ × Member σ) :=
  others first ++ (145, .analytics) :: others second ++ (150, .audit) :: others third

/-- The registration at a place, where it is not an observer. -/
def registrationAt? (place : ℤ × Member σ) : Option (ℤ × LifecycleHook σ) :=
  place.2.hook?.map fun h => (place.1, h)

theorem filterMap_others (registrations : List (ℤ × LifecycleHook σ)) :
    (others registrations).filterMap registrationAt? = registrations := by
  unfold others
  rw [List.filterMap_map]
  exact List.filterMap_some

theorem filterMap_placesAmong (first second third : List (ℤ × LifecycleHook σ)) :
    (placesAmong first second third).filterMap registrationAt? = first ++ second ++ third := by
  have hanalytics : registrationAt? ((145, .analytics) : ℤ × Member σ) = none := rfl
  have haudit : registrationAt? ((150, .audit) : ℤ × Member σ) = none := rfl
  unfold placesAmong
  rw [List.filterMap_append, List.filterMap_append, List.filterMap_cons_none hanalytics,
    List.filterMap_cons_none haudit, filterMap_others, filterMap_others, filterMap_others]

/-- The observers do not change the order of the other hooks. -/
theorem builtFrom_registered (o : Observers η σ) (places : List (ℤ × Member σ)) :
    ∃ members, builtFrom (o.registered places) = .ok (o.hooks members) ∧
      builtFrom (places.filterMap registrationAt?) = .ok (members.filterMap Member.hook?) := by
  refine ⟨(places.mergeSort runsBefore).map (·.2), ?_, ?_⟩
  · rw [builtFrom_eq, Observers.registered, Observers.hooks, List.map_map]
    have hsort := List.map_mergeSort (l := places) (r := runsBefore) (s := runsBefore)
      (f := fun place => (place.1, o.hookAt place.2)) fun _ _ _ _ => rfl
    rw [← hsort, List.map_map]
    rfl
  · have hkeys : ∀ a a' b b', registrationAt? (σ := σ) a = some b → registrationAt? a' = some b' →
        runsBefore a a' = runsBefore b b' := by
      intro a a' b b' hb hb'
      obtain ⟨h, -, rfl⟩ := Option.map_eq_some_iff.mp hb
      obtain ⟨h', -, rfl⟩ := Option.map_eq_some_iff.mp hb'
      rfl
    rw [builtFrom_eq, ← mergeSort_filterMap runsBefore_trans runsBefore_total runsBefore_trans
      runsBefore_total hkeys, List.map_filterMap, List.filterMap_map]
    have hhook : (fun place : ℤ × Member σ => (registrationAt? place).map (·.2)) =
        Member.hook? ∘ fun place => place.2 := by
      funext place
      simp [registrationAt?, Function.comp_def]
    rw [hhook]

/-- In the call every context that goes from one hook to the next before the audit has payloads
that are JSON values. -/
structure JsonCall (read : List Char → Python.Float) (P : ProxyServer σ S C)
    (hooks : List (LifecycleHook σ)) (req : Request) (s : σ) : Prop where
  pre (server tool : String) (config : Transport.ServerConfig) :
    P.route req.name = .ok (server, tool, config) →
      ∀ ctx, HandedIn hooks (ProxyServer.initialContext req server tool config) s ctx →
        JsonContext read ctx
  post (server tool : String) (config : Transport.ServerConfig) :
    P.route req.name = .ok (server, tool, config) →
      let pre := execute hooks (ProxyServer.initialContext req server tool config) s
      ∀ r t, (P.withPipeline hooks).EndsWith pre.1.context ((P.withPipeline hooks).forward
          pre.1.context server tool config req.arguments pre.2) r t →
        ∀ ctx, HandedIn hooks { pre.1.context with responsePayload := P.responsePayload r } t ctx →
          JsonContext read ctx

/-- The collaborators in the world with the observers. -/
def observedBy (η : Type) (K : Collaborators σ S C) : Collaborators (ObservedWorld η σ) S C :=
  K.beside.beside

theorem sameCollaborators (K : Collaborators σ S C) :
    SameCollaborators Unobserved (observedBy η K) K where
  getToken server ctx w s hw := by
    rw [← hw]
    exact ⟨rfl, rfl⟩
  getSession server ctx token w s hw := by
    rw [← hw]
    exact ⟨rfl, rfl⟩
  callTool session tool arguments w s hw := by
    rw [← hw]
    exact ⟨rfl, rfl⟩
  disconnect server w s hw := by
    rw [← hw]
    exact ⟨rfl, rfl⟩
  sleep seconds w s hw := by
    rw [← hw]
    exact ⟨rfl, rfl⟩

/-- A call through a pipeline with the observers ends like the call without them, whatever the
other hooks, the collaborators, the queue and the event handlers do. -/
theorem callTool_sameOutcome (P : ProxyServer σ S C) (o : Observers η σ)
    (first second third : List (ℤ × LifecycleHook σ)) (req : Request) (w : ObservedWorld η σ)
    {hooks : List (LifecycleHook σ)} (hbuilt : builtFrom (first ++ second ++ third) = .ok hooks)
    (hjson : JsonCall read P hooks req w.2.2) :
    ∃ observed, builtFrom (o.registered (placesAmong first second third)) = .ok observed ∧
      SameRun Unobserved ((P.inWorld observed (observedBy η P.collaborators)).callTool req w)
        ((P.withPipeline hooks).callTool req w.2.2) := by
  obtain ⟨members, hobserved, hothers⟩ := builtFrom_registered o (placesAmong first second third)
  rw [filterMap_placesAmong, hbuilt] at hothers
  obtain rfl : hooks = members.filterMap Member.hook? := Except.ok.inj hothers
  refine ⟨o.hooks members, hobserved, P.callTool_same (sameCollaborators _) ?_ rfl⟩
  constructor
  · intro server tool config hroute
    exact samePipelines_of_extends (o.extends_hooks members) (hjson.pre server tool config hroute)
  · intro server tool config hroute pre r t hends
    exact samePipelines_of_extends (o.extends_hooks members)
      (hjson.post server tool config hroute r t hends)

/-- Where the other hooks return the contexts as they are, only the context that a run of the
pipeline starts with is handed on. -/
theorem eq_of_handedIn {hooks : List (LifecycleHook σ)} {c ctx : HookContext} {s : σ}
    (hsame : ∀ hook ∈ hooks, ∀ p a s b t, hook.method p a s = (.ok b, t) → b = a)
    (h : HandedIn hooks c s ctx) : ctx = c := by
  obtain ⟨d, t, hall, first, last, u, rfl, hfirst⟩ := h
  have hd : d = c := by
    refine hall.invariant (P := fun a => a = c) ?_ rfl
    intro hook hmem p a s b t ha hstep
    exact (hsame hook hmem p a s b t hstep).trans ha
  refine hfirst.invariant (P := fun a => a = c) ?_ hd
  intro f hf a s b t ha hstep
  obtain ⟨hook, hmem, rfl⟩ := List.mem_map.mp hf
  exact (hsame hook (List.mem_append_left _ hmem) .preAudit a s b t hstep).trans ha

/-- A hook that does nothing. -/
def idleHook : LifecycleHook Unit where
  name := "idle"

theorem idleHook_same : ∀ hook ∈ [idleHook], ∀ p a s b t,
    hook.method p a s = (.ok b, t) → b = a := by
  intro hook hmem p a s b t hstep
  rw [List.mem_singleton.mp hmem] at hstep
  cases p <;> cases hstep <;> rfl

/-- A world with a full queue, and a handler that raises. -/
def fullWorld : ObservedWorld Unit Unit :=
  ({ queueSize := 1, queue := [{ eventType := .error, server := "", tool := "" }] },
    { handlers := () }, ())

def failingHandler : Events.EventHandler Unit where
  name := "failing"
  handleEvent _ s := (.error (.other "RuntimeError" "handler failed"), s)

def loudObservers : Observers Unit Unit where
  analytics := { unicode := .ascii, monotonic := fun _ => 0 }
  audit :=
    { eventBus := some { handlers := [failingHandler] }, monotonic := fun _ => 0,
      now := fun _ => "", reprFloat := fun _ => "0.0" }

theorem queryRequest_jsonContext (server tool : String) (config : Transport.ServerConfig) :
    JsonContext (fun _ => ⟨.nan, "nan"⟩)
      (ProxyServer.initialContext ProxyServer.queryRequest server tool config) where
  request := ⟨List.nodup_singleton _, ⟨_, rfl⟩,
    ⟨List.nodup_singleton _, ⟨_, rfl⟩, trivial, trivial⟩, trivial⟩
  response := ⟨List.nodup_nil, trivial⟩
  requestSize n hn := by
    have hsize : payloadSize (ProxyServer.initialContext ProxyServer.queryRequest server tool
        config).requestPayload = .ok 34 := rfl
    rw [hsize] at hn
    cases hn
    unfold ShortInt
    decide
  responseSize n hn := by
    cases hn
    unfold ShortInt
    decide
  ruleId := ⟨_, rfl⟩
  reason := ⟨_, rfl⟩
  counts _ := nofun

/-- The server only answers with an empty result. -/
theorem plainProxy_answer {hooks : List (LifecycleHook Unit)} {pre : HookContext}
    {server tool : String} {config : Transport.ServerConfig} {arguments : Option Dict} {s t : Unit}
    {r : CallToolResult String}
    (h : (plainProxy.withPipeline hooks).EndsWith pre ((plainProxy.withPipeline hooks).forward
      pre server tool config arguments s) r t) : r = { content := [] } := by
  obtain ⟨earlier, hrun⟩ := h
  have hmem : .upstreamResult r ∈ ((plainProxy.withPipeline hooks).forward pre server tool config
      arguments s).events := by
    rw [hrun]
    simp
  have hattempt : (plainProxy.withPipeline hooks).EndsWith pre ((plainProxy.withPipeline
      hooks).attempt pre server tool arguments none s) { content := [] } s := ⟨[_, _], rfl⟩
  have hattempts := ProxyServer.attempts_of_endsWith (plainProxy.withPipeline hooks) pre server
    tool config arguments none config.maxRetries 0 none hattempt
  have hforward : (plainProxy.withPipeline hooks).forward pre server tool config arguments s =
      ((plainProxy.withPipeline hooks).finish pre { content := [] } s).after
        ([.getToken server pre.request, .getSession server pre.request none,
          .callTool () tool arguments] ++ [.upstreamResult { content := [] }]) := by
    change ((plainProxy.withPipeline hooks).attempts pre server tool config arguments none
      (config.maxRetries + 1) 0 none s).after [.getToken server pre.request] = _
    rw [hattempts]
    rfl
  rw [hforward] at hmem
  exact eq_of_upstreamResult_mem (by simp [Silent, CallEvent.carriesResult])
    ((plainProxy.withPipeline hooks).finish_events pre _ s) hmem

theorem plainProxy_jsonCall :
    JsonCall (fun _ => ⟨.nan, "nan"⟩) plainProxy [idleHook] ProxyServer.queryRequest () where
  pre server tool config _ ctx hctx := by
    rw [eq_of_handedIn idleHook_same hctx]
    exact queryRequest_jsonContext server tool config
  post server tool config _ r t hends ctx hctx := by
    have hpre : (execute [idleHook]
        (ProxyServer.initialContext ProxyServer.queryRequest server tool config) ()).1.context =
        ProxyServer.initialContext ProxyServer.queryRequest server tool config := rfl
    have hquery := queryRequest_jsonContext server tool config
    rw [eq_of_handedIn idleHook_same hctx, plainProxy_answer hends, hpre]
    refine ⟨hquery.request, ?_, hquery.requestSize, ?_, hquery.ruleId, hquery.reason,
      hquery.counts⟩
    · refine ⟨?_, ⟨_, rfl⟩, trivial, ⟨_, rfl⟩, trivial, trivial⟩
      change [Scalar.str "content", Scalar.str "is_error"].Nodup
      decide
    · intro n hn
      have hsize : payloadSize (plainProxy.responsePayload { content := [] }) = .ok 34 := rfl
      rw [hsize] at hn
      cases hn
      unfold ShortInt
      decide

/-- A call with a full queue and a failing handler ends like the call without observers. -/
theorem plainProxy_sameOutcome :
    ∃ observed, builtFrom (loudObservers.registered (placesAmong [(50, idleHook)] [] [])) =
        .ok observed ∧
      SameRun Unobserved ((plainProxy.inWorld observed (observedBy Unit
        plainProxy.collaborators)).callTool ProxyServer.queryRequest fullWorld)
          ((plainProxy.withPipeline [idleHook]).callTool ProxyServer.queryRequest ()) := by
  have hbuilt : builtFrom [((50 : ℤ), idleHook)] = .ok [idleHook] := by
    rw [builtFrom_eq]
    simp
  exact callTool_sameOutcome plainProxy loudObservers [(50, idleHook)] [] []
    ProxyServer.queryRequest fullWorld hbuilt plainProxy_jsonCall

/-- A hook that reports a masking event with a count of 4301 digits. -/
def longCountHook : LifecycleHook Unit where
  name := "long-count"
  onPreValidation ctx s :=
    (.ok { ctx with maskingEvents := [⟨"PERSON", 10 ^ 4300, "success"⟩] }, s)

/-- A hook that sets a rule id with a date for a key. -/
def datedRuleHook : LifecycleHook Unit where
  name := "dated-rule"
  onPreValidation ctx s :=
    (.ok { ctx with policyRuleId := .dict [(.other "date" "2024-01-01", .str "rule")] }, s)

theorem built_among (o : Observers η σ) (h : LifecycleHook σ) :
    builtFrom (o.registered (placesAmong [(50, h)] [] [])) =
        .ok (o.hooks [.hook h, .analytics, .audit]) ∧ builtFrom [((50 : ℤ), h)] = .ok [h] := by
  have hsorted : (o.registered (placesAmong [((50 : ℤ), h)] [] [])).Pairwise fun a b =>
      runsBefore a b = true := by
    simp [Observers.registered, placesAmong, others, runsBefore]
  rw [builtFrom_eq, builtFrom_eq, List.mergeSort_of_pairwise hsorted, List.mergeSort_singleton]
  exact ⟨rfl, rfl⟩

/-- The response to a query is blocked with the observers beside the hook, and is returned with
the hook alone. -/
def BlockedByObservers (h : LifecycleHook Unit) : Prop :=
  ∃ observed hooks,
    builtFrom (plainObservers.registered (placesAmong [(50, h)] [] [])) = .ok observed ∧
    builtFrom [((50 : ℤ), h)] = .ok hooks ∧
    ((plainProxy.inWorld observed (observedBy Unit plainProxy.collaborators)).callTool
        ProxyServer.queryRequest quietWorld).result.toOption =
      some ["Response blocked: output processing failed (correlation_id=c1)"] ∧
    ((plainProxy.withPipeline hooks).callTool ProxyServer.queryRequest ()).result.toOption =
      some []

/-- An object of a plugin that is a handler of events and a hook: it refuses requests once it has
been told of an event. -/
def toldHandler : Events.EventHandler Bool where
  name := "told"
  handleEvent _ _ := (.ok (), true)

def toldHook : LifecycleHook (ObservedWorld Bool Unit) where
  name := "told"
  onPreValidation ctx w :=
    if w.2.1.handlers then (.error (.shortCircuit (.str "Told of an event") true), w)
    else (.ok ctx, w)

def telling : Observers Bool Unit where
  analytics := { unicode := .ascii, monotonic := fun _ => 0 }
  audit :=
    { eventBus := some { handlers := [toldHandler] }, monotonic := fun _ => 0, now := fun _ => "",
      reprFloat := fun _ => "0.0" }

/-- The answer to a query through the hooks, from a world in which nothing has happened. -/
def answerThrough (hooks : List (LifecycleHook (ObservedWorld Bool Unit))) : Option (List String) :=
  ((plainProxy.inWorld hooks (observedBy Bool plainProxy.collaborators)).callTool
    ProxyServer.queryRequest ({ queueSize := 1 }, { handlers := false }, ())).result.toOption

/-- The payloads are JSON and the masking events are what they are said to be, and yet the audit
hook cannot write the count or the rule id, or tells a hook of its events through an object that
is a handler, too. -/
theorem observers_block : BlockedByObservers longCountHook ∧ BlockedByObservers datedRuleHook ∧
    answerThrough [toldHook, telling.hookAt .analytics, telling.hookAt .audit] =
      some ["Response blocked: output processing failed (correlation_id=c1)"] ∧
    answerThrough [toldHook] = some [] := by
  refine ⟨?_, ?_, by decide +kernel, by decide +kernel⟩
  · obtain ⟨hobserved, hhooks⟩ := built_among plainObservers longCountHook
    exact ⟨_, _, hobserved, hhooks, by decide +kernel, by decide +kernel⟩
  · obtain ⟨hobserved, hhooks⟩ := built_among plainObservers datedRuleHook
    exact ⟨_, _, hobserved, hhooks, by decide +kernel, by decide +kernel⟩

end McpZero.Audit
