import McpZero.Pipeline.Watchers
import McpZero.Proxy.Exits

/-! One proxy in two related worlds. Where the collaborators and the pipelines of the two answer
alike, the calls end alike. -/
namespace McpZero.Proxy
open Python Pipeline Transport

variable {σ' σ S C : Type}

/-- The result without the names of the hooks that were executed. -/
def withoutNames (r : PipelineResult) : PipelineResult := { r with hooksExecuted := [] }

theorem eq_of_withoutNames {r' r : PipelineResult} (h : withoutNames r' = withoutNames r) :
    r'.context = r.context ∧ r'.success = r.success ∧ r'.error = r.error := by
  cases r'
  cases r
  simpa [withoutNames] using h

def CallEvent.withoutNames : CallEvent S C → CallEvent S C
  | .preRun r => .preRun (Proxy.withoutNames r)
  | .postRun r => .postRun (Proxy.withoutNames r)
  | e => e

/-- The two runs give the same result and await the same, and end in related worlds. -/
structure SameRun (R : σ' → σ → Prop) (run' : CallRun σ' S C) (run : CallRun σ S C) : Prop where
  result : run'.result = run.result
  events : run'.events.map CallEvent.withoutNames = run.events.map CallEvent.withoutNames
  world : R run'.state run.state

theorem SameRun.after {R : σ' → σ → Prop} {run' : CallRun σ' S C} {run : CallRun σ S C}
    (h : SameRun R run' run) {events' events : List (CallEvent S C)}
    (hevents : events'.map CallEvent.withoutNames = events.map CallEvent.withoutNames) :
    SameRun R (run'.after events') (run.after events) where
  result := h.result
  events := by
    rw [CallRun.after_events, CallRun.after_events, List.map_append, List.map_append, hevents,
      h.events]
  world := h.world

/-- Two actions answer alike in related worlds, and leave related worlds. -/
def SameAction {α : Type} (R : σ' → σ → Prop) (act' : Action σ' α) (act : Action σ α) : Prop :=
  ∀ s' s, R s' s → (act' s').1 = (act s).1 ∧ R (act' s').2 (act s).2

structure SameCollaborators (R : σ' → σ → Prop) (K' : Collaborators σ' S C)
    (K : Collaborators σ S C) : Prop where
  getToken (server : String) (ctx : RequestContext) :
    SameAction R (K'.getToken server ctx) (K.getToken server ctx)
  getSession (server : String) (ctx : RequestContext) (token : Option String) :
    SameAction R (K'.getSession server ctx token) (K.getSession server ctx token)
  callTool (session : S) (tool : String) (arguments : Option Dict) :
    SameAction R (K'.callTool session tool arguments) (K.callTool session tool arguments)
  disconnect (server : String) : SameAction R (K'.disconnect server) (K.disconnect server)
  sleep (seconds : ℚ) : SameAction R (K'.sleep seconds) (K.sleep seconds)

/-- Started with the context in related worlds, the two pipelines end alike. -/
def SamePipelines (R : σ' → σ → Prop) (hooks' : List (LifecycleHook σ'))
    (hooks : List (LifecycleHook σ)) (c : HookContext) (s : σ) : Prop :=
  ∀ s', R s' s → withoutNames (execute hooks' c s').1 = withoutNames (execute hooks c s).1 ∧
    R (execute hooks' c s').2 (execute hooks c s).2

/-- A pipeline with watchers ends like the one without. -/
theorem samePipelines_of_extends {I : HookContext → Prop} {R : σ' → σ → Prop}
    {hooks' : List (LifecycleHook σ')} {hooks : List (LifecycleHook σ)}
    (h : Extends I R hooks' hooks) {c : HookContext} {s : σ}
    (hI : ∀ ctx, HandedIn hooks c s ctx → I ctx) : SamePipelines R hooks' hooks c s := by
  intro s' hR
  obtain ⟨hcontext, hsuccess, herror, hworld⟩ := execute_extends h hI hR
  refine ⟨?_, hworld⟩
  unfold withoutNames
  rw [hcontext, hsuccess, herror]

namespace ProxyServer

/-- The proxy with other hooks and collaborators, in their world. -/
def inWorld (P : ProxyServer σ S C) (hooks : List (LifecycleHook σ'))
    (K : Collaborators σ' S C) : ProxyServer σ' S C where
  configs := P.configs
  pipeline := some hooks
  models := P.models
  collaborators := K

/-- The run ends with what becomes of the upstream result `r`, which arrives in the world `t`. -/
def EndsWith (P : ProxyServer σ S C) (pre : HookContext) (run : CallRun σ S C)
    (r : CallToolResult C) (t : σ) : Prop :=
  ∃ earlier, run = (P.finish pre r t).after (earlier ++ [.upstreamResult r])

theorem EndsWith.after {P : ProxyServer σ S C} {pre : HookContext} {run : CallRun σ S C}
    {r : CallToolResult C} {t : σ} (h : P.EndsWith pre run r t) (events : List (CallEvent S C)) :
    P.EndsWith pre (run.after events) r t := by
  obtain ⟨earlier, rfl⟩ := h
  exact ⟨events ++ earlier, by simp [CallRun.after]⟩

variable (P : ProxyServer σ S C) {R : σ' → σ → Prop}
  {hooks' : List (LifecycleHook σ')} {hooks : List (LifecycleHook σ)}
  {K' : Collaborators σ' S C} {K : Collaborators σ S C}

/-- What `finish` makes of a run of the pipeline. -/
def ended (pre : HookContext) (post : PipelineResult × σ) : CallRun σ S C :=
  if post.1.success then
    ⟨P.rebuildContent post.1.context.responsePayload, [.postRun post.1], post.2⟩
  else ⟨.ok (P.responseBlocked pre.request.correlationId), [.postRun post.1], post.2⟩

theorem finish_inWorld (pre : HookContext) (r : CallToolResult C) (s : σ') :
    (P.inWorld hooks' K').finish pre r s = (P.inWorld hooks' K').ended pre
      (execute hooks' { pre with responsePayload := P.responsePayload r } s) := rfl

theorem ended_same (pre : HookContext) {post' : PipelineResult × σ'} {post : PipelineResult × σ}
    (hresult : withoutNames post'.1 = withoutNames post.1) (hworld : R post'.2 post.2) :
    SameRun R ((P.inWorld hooks' K').ended pre post') ((P.inWorld hooks K).ended pre post) := by
  obtain ⟨hcontext, hsuccess, -⟩ := eq_of_withoutNames hresult
  have hevents : ([.postRun post'.1] : List (CallEvent S C)).map CallEvent.withoutNames =
      [CallEvent.postRun post.1].map CallEvent.withoutNames :=
    congrArg (fun r => [CallEvent.postRun r]) hresult
  unfold ended
  rw [hsuccess, hcontext]
  split
  · exact ⟨rfl, hevents, hworld⟩
  · exact ⟨rfl, hevents, hworld⟩

theorem finish_same {pre : HookContext} {r : CallToolResult C} {s' : σ'} {s : σ}
    (hpost : SamePipelines R hooks' hooks { pre with responsePayload := P.responsePayload r } s)
    (hR : R s' s) :
    SameRun R ((P.inWorld hooks' K').finish pre r s') ((P.inWorld hooks K).finish pre r s) := by
  obtain ⟨hresult, hworld⟩ := hpost s' hR
  rw [finish_inWorld, finish_inWorld]
  exact P.ended_same pre hresult hworld

/-- After every result that the run can end with the two pipelines end alike. -/
def SameAfter (R : σ' → σ → Prop) (hooks' : List (LifecycleHook σ'))
    (hooks : List (LifecycleHook σ)) (pre : HookContext) (run : CallRun σ S C) : Prop :=
  ∀ r t, (P.withPipeline hooks).EndsWith pre run r t →
    SamePipelines R hooks' hooks { pre with responsePayload := P.responsePayload r } t

section
variable (hK : SameCollaborators R K' P.collaborators) (pre : HookContext)
  (server tool : String) (config : ServerConfig) (arguments : Option Dict)
  (token : Option String)

/-- The loop does not go on after a result. -/
theorem attempts_of_endsWith (remaining index : ℕ) (lastError : Option Exc)
    {r : CallToolResult C} {s t : σ}
    (h : P.EndsWith pre (P.attempt pre server tool arguments token s) r t) :
    P.attempts pre server tool config arguments token (remaining + 1) index lastError s =
      P.attempt pre server tool arguments token s := by
  apply attempts_of_final
  intro e he
  obtain ⟨earlier, hrun⟩ := h
  rw [hrun] at he
  exact finish_error he

include hK in
theorem attempt_same {s' : σ'} {s : σ} (hR : R s' s)
    (hafter : P.SameAfter R hooks' hooks pre
      ((P.withPipeline hooks).attempt pre server tool arguments token s)) :
    SameRun R ((P.inWorld hooks' K').attempt pre server tool arguments token s')
      ((P.withPipeline hooks).attempt pre server tool arguments token s) := by
  obtain ⟨hsession, ht⟩ := hK.getSession server pre.request token s' s hR
  unfold attempt at hafter ⊢
  simp only [inWorld, withPipeline] at hafter ⊢
  rcases h' : K'.getSession server pre.request token s' with ⟨r', t'⟩
  rcases h : P.collaborators.getSession server pre.request token s with ⟨r, t⟩
  rw [h', h] at hsession ht
  rw [h] at hafter
  dsimp only at hsession ht hafter
  subst hsession
  cases r' with
  | error e => exact ⟨rfl, rfl, ht⟩
  | ok session =>
    obtain ⟨hcall, hu⟩ := hK.callTool session tool arguments t' t ht
    dsimp only at hafter ⊢
    rcases h' : K'.callTool session tool arguments t' with ⟨r', u'⟩
    rcases h : P.collaborators.callTool session tool arguments t with ⟨r, u⟩
    rw [h', h] at hcall hu
    rw [h] at hafter
    dsimp only at hcall hu hafter
    subst hcall
    cases r' with
    | error e => exact ⟨rfl, rfl, hu⟩
    | ok result => exact (P.finish_same (hafter result u ⟨_, rfl⟩) hu).after rfl

include hK in
variable (hooks' hooks) in
theorem recover_same (correlationId : String) (e : Exc) {s' : σ'} {s : σ} (hR : R s' s) :
    ((P.inWorld hooks' K').recover server config correlationId e s').1 =
        ((P.withPipeline hooks).recover server config correlationId e s).1 ∧
      ((P.inWorld hooks' K').recover server config correlationId e s').2.1 =
        ((P.withPipeline hooks).recover server config correlationId e s).2.1 ∧
      R ((P.inWorld hooks' K').recover server config correlationId e s').2.2
        ((P.withPipeline hooks).recover server config correlationId e s).2.2 := by
  obtain ⟨hdisconnect, ht⟩ := hK.disconnect server s' s hR
  unfold recover
  simp only [inWorld, withPipeline]
  rcases h' : K'.disconnect server s' with ⟨r', t'⟩
  rcases h : P.collaborators.disconnect server s with ⟨r, t⟩
  rw [h', h] at hdisconnect ht
  dsimp only at hdisconnect ht
  subst hdisconnect
  cases e with
  | transportConnection m => cases r' <;> exact ⟨rfl, rfl, ht⟩
  | transportTimeout m => cases r' <;> exact ⟨rfl, rfl, ht⟩
  | _ => exact ⟨rfl, rfl, hR⟩

include hK in
variable (hooks' hooks) in
theorem backOff_same (index : ℕ) {s' : σ'} {s : σ} (hR : R s' s) :
    ((P.inWorld hooks' K').backOff config index s').1 =
        ((P.withPipeline hooks).backOff config index s).1 ∧
      ((P.inWorld hooks' K').backOff config index s').2.1 =
        ((P.withPipeline hooks).backOff config index s).2.1 ∧
      R ((P.inWorld hooks' K').backOff config index s').2.2
        ((P.withPipeline hooks).backOff config index s).2.2 := by
  unfold backOff
  split_ifs
  · cases retryDelay config index with
    | error e => exact ⟨rfl, rfl, hR⟩
    | ok delay =>
      obtain ⟨hslept, ht⟩ := hK.sleep delay s' s hR
      exact ⟨hslept, rfl, ht⟩
  · exact ⟨rfl, rfl, hR⟩

include hK in
/-- The retry loop, by induction on the attempts that remain. -/
theorem attempts_same (remaining index : ℕ) (lastError : Option Exc) {s' : σ'} {s : σ}
    (hR : R s' s)
    (hafter : P.SameAfter R hooks' hooks pre ((P.withPipeline hooks).attempts pre server tool config
      arguments token remaining index lastError s)) :
    SameRun R
      ((P.inWorld hooks' K').attempts pre server tool config arguments token remaining index
        lastError s')
      ((P.withPipeline hooks).attempts pre server tool config arguments token remaining index
        lastError s) := by
  induction remaining generalizing index lastError s' s with
  | zero => exact ⟨rfl, rfl, hR⟩
  | succ remaining ih =>
    have hattempt : SameRun R ((P.inWorld hooks' K').attempt pre server tool arguments token s')
        ((P.withPipeline hooks).attempt pre server tool arguments token s) := by
      refine P.attempt_same hK pre server tool arguments token hR fun r t h => hafter r t ?_
      rw [attempts_of_endsWith _ pre server tool config arguments token remaining index lastError h]
      exact h
    rw [attempts] at hafter
    rw [attempts, attempts]
    rcases hrun' : (P.inWorld hooks' K').attempt pre server tool arguments token s' with
      ⟨result', events', t'⟩
    rcases hrun : (P.withPipeline hooks).attempt pre server tool arguments token s with
      ⟨result, events, t⟩
    rw [hrun', hrun] at hattempt
    rw [hrun] at hafter
    have hresult : result' = result := hattempt.result
    have hevents : events'.map CallEvent.withoutNames = events.map CallEvent.withoutNames :=
      hattempt.events
    have ht : R t' t := hattempt.world
    subst hresult
    dsimp only at hafter ⊢
    cases result' with
    | ok content => exact hattempt
    | error e =>
      obtain ⟨hnext, hmade, hu⟩ := P.recover_same hooks' hooks hK server config
        pre.request.correlationId e ht
      dsimp only at hafter ⊢
      rcases hrec' : (P.inWorld hooks' K').recover server config pre.request.correlationId e t'
        with ⟨next', made', u'⟩
      rcases hrec : (P.withPipeline hooks).recover server config pre.request.correlationId e t
        with ⟨next, made, u⟩
      rw [hrec', hrec] at hnext hmade hu
      rw [hrec] at hafter
      dsimp only at hnext hmade hu
      subst hnext hmade
      have hbefore : (events' ++ made').map CallEvent.withoutNames =
          (events ++ made').map CallEvent.withoutNames := by
        rw [List.map_append, List.map_append, hevents]
      cases next' with
      | error e => exact ⟨rfl, hbefore, hu⟩
      | ok lastError =>
        dsimp only at hafter ⊢
        obtain ⟨hwoken, hwaits, hv⟩ := P.backOff_same hooks' hooks hK config index hu
        rcases hback' : (P.inWorld hooks' K').backOff config index u' with ⟨r', waits', v'⟩
        rcases hback : (P.withPipeline hooks).backOff config index u with ⟨r, waits, v⟩
        rw [hback', hback] at hwoken hwaits hv
        rw [hback] at hafter
        dsimp only at hwoken hwaits hv
        subst hwoken hwaits
        have hslept : (events' ++ made' ++ waits').map CallEvent.withoutNames =
            (events ++ made' ++ waits').map CallEvent.withoutNames := by
          rw [@List.map_append _ _ _ (events' ++ made'), hbefore, ← List.map_append]
        cases r' with
        | error e => exact ⟨rfl, hslept, hv⟩
        | ok _ =>
          refine (ih (index + 1) (some lastError) hv fun r t h => ?_).after hslept
          exact hafter r t (h.after _)

include hK in
theorem forward_same {s' : σ'} {s : σ} (hR : R s' s)
    (hafter : P.SameAfter R hooks' hooks pre
      ((P.withPipeline hooks).forward pre server tool config arguments s)) :
    SameRun R ((P.inWorld hooks' K').forward pre server tool config arguments s')
      ((P.withPipeline hooks).forward pre server tool config arguments s) := by
  obtain ⟨htoken, ht⟩ := hK.getToken server pre.request s' s hR
  unfold forward at hafter ⊢
  have hget : (P.withPipeline hooks).collaborators.getToken = P.collaborators.getToken := rfl
  have hget' : (P.inWorld hooks' K').collaborators.getToken = K'.getToken := rfl
  rw [hget] at hafter
  rw [hget, hget']
  rcases h' : K'.getToken server pre.request s' with ⟨r', t'⟩
  rcases h : P.collaborators.getToken server pre.request s with ⟨r, t⟩
  rw [h', h] at htoken ht
  rw [h] at hafter
  dsimp only at htoken ht
  subst htoken
  cases r' with
  | ok token =>
    refine (P.attempts_same hK pre server tool config arguments token _ _ _ ht
      fun r t h => ?_).after rfl
    exact hafter r t (h.after _)
  | error e =>
    cases e with
    | tokenExchange m a => exact ⟨rfl, rfl, ht⟩
    | _ => exact ⟨rfl, rfl, ht⟩

end

/-- The two pipelines end alike wherever the call of a proxy with the second one runs it. -/
structure SameInCall (R : σ' → σ → Prop) (hooks' : List (LifecycleHook σ'))
    (hooks : List (LifecycleHook σ)) (req : Request) (s : σ) : Prop where
  pre (server tool : String) (config : ServerConfig) :
    P.route req.name = .ok (server, tool, config) →
      SamePipelines R hooks' hooks (initialContext req server tool config) s
  post (server tool : String) (config : ServerConfig) :
    P.route req.name = .ok (server, tool, config) →
      let pre := execute hooks (initialContext req server tool config) s
      P.SameAfter R hooks' hooks pre.1.context
        ((P.withPipeline hooks).forward pre.1.context server tool config req.arguments pre.2)

/-- A call ends alike in the two worlds. -/
theorem callTool_same (hK : SameCollaborators R K' P.collaborators) {req : Request} {s' : σ'} {s : σ}
    (hsame : P.SameInCall R hooks' hooks req s) (hR : R s' s) :
    SameRun R ((P.inWorld hooks' K').callTool req s') ((P.withPipeline hooks).callTool req s) := by
  have hroute' : (P.inWorld hooks' K').route req.name = P.route req.name := rfl
  have hroute : (P.withPipeline hooks).route req.name = P.route req.name := rfl
  unfold callTool
  rw [hroute', hroute]
  rcases hserver : P.route req.name with e | ⟨server, tool, config⟩
  · exact ⟨rfl, rfl, hR⟩
  · have hpost := hsame.post server tool config hserver
    obtain ⟨hresult, ht⟩ := hsame.pre server tool config hserver s' hR
    have hpipeline : (P.withPipeline hooks).pipeline = some hooks := rfl
    have hpipeline' : (P.inWorld hooks' K').pipeline = some hooks' := rfl
    dsimp only
    rw [hpipeline, hpipeline']
    dsimp only
    rcases hrun' : execute hooks' (initialContext req server tool config) s' with ⟨pre', t'⟩
    rcases hrun : execute hooks (initialContext req server tool config) s with ⟨pre, t⟩
    rw [hrun', hrun] at hresult ht
    rw [hrun] at hpost
    dsimp only at hresult
    obtain ⟨hcontext, -, -⟩ := eq_of_withoutNames hresult
    have hevents : ([.preRun pre'] : List (CallEvent S C)).map CallEvent.withoutNames =
        [CallEvent.preRun pre].map CallEvent.withoutNames :=
      congrArg (fun r => [CallEvent.preRun r]) hresult
    dsimp only at ht hpost ⊢
    rw [hcontext]
    by_cases hdeny : pre.context.policyDecision = .deny
    · rw [if_pos hdeny, if_pos hdeny]
      exact ⟨rfl, hevents, ht⟩
    · rw [if_neg hdeny, if_neg hdeny]
      exact (P.forward_same hK pre.context server tool config req.arguments ht hpost).after hevents

end ProxyServer

end McpZero.Proxy
