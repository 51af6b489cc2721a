import McpZero.Proxy.CallTool
import McpZero.Masking.Hook

/-! The arguments that reach the upstream server. The pre-call pipeline returns a context with
a payload of its own; the retry loop is given the arguments of the request. -/
namespace McpZero.Proxy
open Python Pipeline Transport Masking Lib

variable {σ S C : Type}

/-- After a successful pre-call run every call sends the arguments of the payload that the run
returned. -/
def SendsPayload (events : List (CallEvent S C)) : Prop :=
  ∀ r, .preRun r ∈ events → r.success = true →
    ∀ session tool sent, .callTool session tool sent ∈ events →
      Dict.get? r.context.requestPayload "arguments" = sent.map Value.dict

/-- After a successful pre-call run every call sends the given arguments with each string leaf
replaced by the masked text of the engine. -/
def SendsMasked (h : MaskingHook) (args : Dict) (events : List (CallEvent S C)) : Prop :=
  ∀ r, .preRun r ∈ events → r.success = true →
    ∀ session tool sent, .callTool session tool sent ∈ events →
      ∃ masked, Value.mapEntries (h.maskedText "request") args = .ok masked ∧ sent = some masked

/-- A hook that hands the request payload on as it is. -/
def KeepsRequestPayload (hook : LifecycleHook σ) : Prop :=
  ∀ point ctx s ctx' s', hook.method point ctx s = (.ok ctx', s') →
    ctx'.requestPayload = ctx.requestPayload

theorem completes_requestPayload {hooks : List (LifecycleHook σ)} {p : HookPoint}
    {c d : HookContext} {s t : σ}
    (hkeep : ∀ hook ∈ hooks, ∀ ctx s ctx' s', hook.method p ctx s = (.ok ctx', s') →
      ctx'.requestPayload = ctx.requestPayload)
    (h : Completes (stagesAt hooks p) c s d t) : d.requestPayload = c.requestPayload := by
  refine h.invariant (P := fun ctx => ctx.requestPayload = c.requestPayload) ?_ rfl
  intro f hf a s' b t' ha hab
  obtain ⟨hook, hmem, rfl⟩ := List.mem_map.mp hf
  have hstep := hkeep hook hmem a s' b t' hab
  rw [hstep, ha]

theorem maskingHook_keeps (h : MaskingHook) {p : HookPoint} (hp : p ≠ .preMasking)
    {ctx ctx' : HookContext} {s s' : σ} (hrun : h.toHook.method p ctx s = (.ok ctx', s')) :
    ctx'.requestPayload = ctx.requestPayload := by
  cases p with
  | preMasking => exact absurd rfl hp
  | preValidation => cases hrun; rfl
  | postValidation => cases hrun; rfl
  | postMasking =>
    have hpost : h.onPostMasking ctx = .ok ctx' := congrArg Prod.fst hrun
    exact h.onPostMasking_requestPayload hpost
  | preAudit => cases hrun; rfl

/-- One hook among hooks that keep the payload: the payload changes only where it does. -/
theorem completes_around {hook : LifecycleHook σ} {before after : List (LifecycleHook σ)}
    (hkeep : ∀ k ∈ before ++ after, KeepsRequestPayload k) {p : HookPoint}
    {c d : HookContext} {s t : σ}
    (h : Completes (stagesAt (before ++ hook :: after) p) c s d t) :
    ∃ (c' d' : HookContext) (s' t' : σ), c'.requestPayload = c.requestPayload ∧
      hook.method p c' s' = (.ok d', t') ∧ d.requestPayload = d'.requestPayload := by
  rw [stagesAt, List.map_append, List.map_cons, completes_append] at h
  obtain ⟨c', s', hbefore, hrest⟩ := h
  obtain ⟨d', t', hhook, hafter⟩ := completes_cons.mp hrest
  have hin : c'.requestPayload = c.requestPayload :=
    completes_requestPayload (fun k hm => hkeep k (List.mem_append_left _ hm) p) hbefore
  have hout : d.requestPayload = d'.requestPayload :=
    completes_requestPayload (fun k hm => hkeep k (List.mem_append_right _ hm) p) hafter
  exact ⟨c', d', s', t', hin, hhook, hout⟩

/-- One masking hook among hooks that keep the payload: the run maps the engine over it. -/
theorem allReturn_masked {h : MaskingHook} (he : h.config.enabled = true)
    {before after : List (LifecycleHook σ)}
    (hkeep : ∀ hook ∈ before ++ after, KeepsRequestPayload hook)
    {c d : HookContext} {s t : σ}
    (hall : AllReturn (before ++ h.toHook :: after) hookSequence c s d t) :
    Value.mapEntries (h.maskedText "request") c.requestPayload = .ok d.requestPayload := by
  have hother : ∀ {p} {c d : HookContext} {s t : σ}, p ≠ .preMasking →
      Completes (stagesAt (before ++ h.toHook :: after) p) c s d t →
      d.requestPayload = c.requestPayload := by
    intro p c d s t hp hc
    obtain ⟨c', d', s', t', hin, hrun, hout⟩ := completes_around hkeep hc
    rw [hout, maskingHook_keeps h hp hrun, hin]
  simp only [hookSequence, allReturn_cons, allReturn_nil] at hall
  obtain ⟨_, _, h₁, _, _, h₂, _, _, h₃, _, _, h₄, _, _, h₅, rfl, rfl⟩ := hall
  obtain ⟨c', d', s', t', hin, hmask, hout⟩ := completes_around hkeep h₃
  have hengine := h.onPreMasking_requestPayload he (congrArg Prod.fst hmask)
  rw [hin, hother (by decide) h₂, hother (by decide) h₁] at hengine
  rw [hother (by decide) h₅, hother (by decide) h₄, hout]
  exact hengine

namespace ProxyServer

variable (P : ProxyServer σ S C)

/-- The pre-call run of a routable request completes with the context `pre`, and the policy
decision lets the call through. -/
def Admits (hooks : List (LifecycleHook σ)) (req : Request) (s : σ) (pre : HookContext) : Prop :=
  ∃ server tool config t, P.route req.name = .ok (server, tool, config) ∧
    AllReturn hooks hookSequence (initialContext req server tool config) s pre t ∧
      pre.policyDecision ≠ .deny

/-- What every call sends is what the condition on the pre-call run says of the arguments. -/
private theorem sends_iff (hooks : List (LifecycleHook σ)) (req : Request) (s : σ) (session : S)
    (Q : HookContext → Option Dict → Prop) :
    (∀ K : Collaborators σ S C, ∀ r,
      .preRun r ∈ (((P.deployed K).withPipeline hooks).callTool req s).events → r.success = true →
        ∀ session tool sent,
          .callTool session tool sent ∈
            (((P.deployed K).withPipeline hooks).callTool req s).events →
          Q r.context sent) ↔
      ∀ pre, P.Admits hooks req s pre → Q pre req.arguments := by
  constructor
  · rintro h pre ⟨server, tool, config, t, hroute, hall, hdecision⟩
    let K : Collaborators σ S C := .answering session
    obtain ⟨ex, hcall⟩ := (P.deployed K).callTool_of_allReturn hroute hall
    have hmem := (P.withPipeline hooks).callTool_mem_forward_answering pre server tool config
      req.arguments session t
    have hK := h K ⟨pre, true, none, ex⟩
    rw [hcall] at hK
    dsimp only at hK
    rw [if_neg hdecision] at hK
    exact hK List.mem_cons_self rfl session tool req.arguments (List.mem_cons_of_mem _ hmem)
  · intro h K r hr hsuccess session' tool' sent hsent
    cases hroute : P.route req.name with
    | error e =>
      rw [(P.deployed K).callTool_of_not_routed hooks hroute] at hr
      cases hr
    | ok target =>
      obtain ⟨server, tool, config⟩ := target
      rcases allReturn_or_firstRaise hooks hookSequence (initialContext req server tool config) s
        with ⟨pre, t, hall⟩ | ⟨entered, e, hraise⟩
      · obtain ⟨ex, hcall⟩ := (P.deployed K).callTool_of_allReturn hroute hall
        rw [hcall] at hr hsent
        dsimp only at hr hsent
        split_ifs at hr hsent with hdecision
        · rcases List.mem_singleton.mp hsent with ⟨⟩
        · have hctx : r.context = pre := by
            rcases List.mem_cons.mp hr with hr | hr
            · cases hr
              rfl
            · exact absurd hr (ProxyServer.preRun_notMem_forward _ _ _ _ _ _ _ _)
          have harguments : sent = req.arguments := by
            rcases List.mem_cons.mp hsent with hsent | hsent
            · cases hsent
            · rcases ProxyServer.forward_events _ _ _ _ _ _ _ _ hsent with hev | ⟨_, hev⟩
              · cases hev
              · cases hev
                rfl
          rw [hctx, harguments]
          exact h pre ⟨server, tool, config, t, hroute, hall, hdecision⟩
      · obtain ⟨r', t, hfailed, -, hcall⟩ := (P.deployed K).callTool_of_firstRaise hroute hraise
        rw [hcall] at hr
        have hr' : r = r' := by
          split_ifs at hr
          · rcases List.mem_singleton.mp hr with ⟨⟩
            rfl
          · rcases List.mem_cons.mp hr with hr | hr
            · cases hr
              rfl
            · exact absurd hr (ProxyServer.preRun_notMem_forward _ _ _ _ _ _ _ _)
        rw [hr', hfailed] at hsuccess
        cases hsuccess

/-- The masked arguments are in the payload that the pre-call run returns. -/
theorem admits_masked {h : MaskingHook} (he : h.config.enabled = true)
    {before after : List (LifecycleHook σ)}
    (hkeep : ∀ hook ∈ before ++ after, KeepsRequestPayload hook) {req : Request} {args : Dict}
    {s : σ} {pre : HookContext}
    (hadmits : P.Admits (before ++ h.toHook :: after) (req.withArguments args) s pre) :
    ∃ masked, Value.mapEntries (h.maskedText "request") args = .ok masked ∧
      Dict.get? pre.requestPayload "arguments" = some (.dict masked) := by
  obtain ⟨server, tool, config, t, -, hall, -⟩ := hadmits
  have hmap := allReturn_masked he hkeep hall
  simp only [initialContext, Request.withArguments, Option.getD_some, Value.mapEntries,
    Value.mapStrings, bind_eq_ok, pure_eq_ok, Except.ok.injEq] at hmap
  obtain ⟨_, ⟨masked, hmasked, rfl⟩, _, rfl, hpayload⟩ := hmap
  refine ⟨masked, hmasked, ?_⟩
  rw [← hpayload]
  rfl

/-- Input masking reaches the server exactly when there is nothing to mask: the payload that
the pre-call run returns still holds the arguments of the request. With a masking hook among
hooks that keep the payload, the run puts the masked arguments there, and they are what is sent
exactly when the engine leaves every string leaf as it is. -/
theorem callTool_inputMasking_iff (hooks : List (LifecycleHook σ)) (req : Request) (args : Dict)
    (s : σ) (session : S) :
    ((∀ K : Collaborators σ S C, SendsPayload
        (((P.deployed K).withPipeline hooks).callTool (req.withArguments args) s).events) ↔
      ∀ pre, P.Admits hooks (req.withArguments args) s pre →
        Dict.get? pre.requestPayload "arguments" = some (.dict args)) ∧
    ∀ h before after, hooks = before ++ h.toHook :: after → h.config.enabled = true →
      (∀ hook ∈ before ++ after, KeepsRequestPayload hook) →
      (∀ pre, P.Admits hooks (req.withArguments args) s pre →
        ∃ masked, Value.mapEntries (h.maskedText "request") args = .ok masked ∧
          Dict.get? pre.requestPayload "arguments" = some (.dict masked)) ∧
      ((∀ K : Collaborators σ S C, SendsMasked h args
          (((P.deployed K).withPipeline hooks).callTool (req.withArguments args) s).events) ↔
        ((∃ pre, P.Admits hooks (req.withArguments args) s pre) →
          ∀ text ∈ Value.stringsEntries args, h.maskedText "request" text = .ok text)) := by
  constructor
  · exact P.sends_iff hooks (req.withArguments args) s session
      (fun pre sent => Dict.get? pre.requestPayload "arguments" = sent.map Value.dict)
  · intro h before after hhooks he hkeep
    constructor
    · intro pre hadmits
      rw [hhooks] at hadmits
      exact P.admits_masked he hkeep hadmits
    · have hsends := P.sends_iff hooks (req.withArguments args) s session
        (fun _ sent => ∃ masked,
          Value.mapEntries (h.maskedText "request") args = .ok masked ∧ sent = some masked)
      have hfixed : (∃ masked, Value.mapEntries (h.maskedText "request") args = .ok masked ∧
          some args = some masked) ↔
          ∀ text ∈ Value.stringsEntries args, h.maskedText "request" text = .ok text := by
        rw [← Value.mapEntries_eq_self_iff]
        simp
      have hpayload : (∀ pre, P.Admits hooks (req.withArguments args) s pre →
          ∀ text ∈ Value.stringsEntries args, h.maskedText "request" text = .ok text) ↔
          ((∃ pre, P.Admits hooks (req.withArguments args) s pre) →
            ∀ text ∈ Value.stringsEntries args, h.maskedText "request" text = .ok text) :=
        exists_imp.symm
      rw [← hpayload, ← hfixed]
      exact hsends

/-- An engine that takes every text for one entity. -/
def redactingEngine : MaskingEngine := fun _ _ _ =>
  .ok { maskedText := "***", events := [⟨"SECRET", 1, "masked"⟩], hasMasked := true }

def redactingHook : MaskingHook := { engine := redactingEngine, config := { enabled := true } }

def redactingProxy : ProxyServer Unit Unit String := textProxy [redactingHook.toHook]

theorem redactingProxy_inputMasking :
    (∀ K : Collaborators Unit Unit String, SendsMasked redactingHook [(.str "sql", .str "?")]
        (((redactingProxy.deployed K).withPipeline [redactingHook.toHook]).callTool
          (queryRequest.withArguments [(.str "sql", .str "?")]) ()).events) ↔
      ((∃ pre, redactingProxy.Admits [redactingHook.toHook]
          (queryRequest.withArguments [(.str "sql", .str "?")]) () pre) →
        ∀ text ∈ ["?"], redactingHook.maskedText "request" text = .ok text) :=
  ((redactingProxy.callTool_inputMasking_iff [redactingHook.toHook] queryRequest
    [(.str "sql", .str "?")] () ()).2 redactingHook [] [] rfl rfl (by simp)).2

/-- The pre-call run masks the query, and the server gets it unmasked. -/
theorem redacting_not_sendsPayload :
    ¬ SendsPayload (redactingProxy.callTool queryRequest ()).events ∧
      ¬ SendsMasked redactingHook [(.str "sql", .str "select 1")]
        (redactingProxy.callTool queryRequest ()).events := by
  obtain ⟨r, rest, hevents, hsuccess, hpayload⟩ : ∃ r rest,
      (redactingProxy.callTool queryRequest ()).events =
        [.preRun r, .getToken "db" r.context.request, .getSession "db" r.context.request none,
          .callTool () "query" queryRequest.arguments] ++ rest ∧ r.success = true ∧
        Dict.get? r.context.requestPayload "arguments" =
          some (.dict [(.str "sql", .str "***")]) :=
    ⟨_, _, rfl, rfl, rfl⟩
  constructor
  · intro h
    have hsent := h r (by simp [hevents]) hsuccess () "query" queryRequest.arguments
      (by simp [hevents])
    rw [hpayload] at hsent
    simp [queryRequest] at hsent
  · intro h
    obtain ⟨masked, hmasked, hsent⟩ := h r (by simp [hevents]) hsuccess () "query"
      queryRequest.arguments (by simp [hevents])
    rw [← Option.some.inj hsent] at hmasked
    injection hmasked with hmasked
    simp at hmasked

end ProxyServer

end McpZero.Proxy
