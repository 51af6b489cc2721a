import McpZero.Pipeline.Observer
import McpZero.Proxy.Exits

/-! Calls through a pipeline of which one hook has a part of the world for itself. The
collaborators do not touch that part. -/
namespace McpZero.Proxy
open Python Pipeline Transport

variable {σ τ S C : Type}

/-- Collaborators beside a part of the world that they do not touch. -/
def Collaborators.beside (K : Collaborators σ S C) : Collaborators (τ × σ) S C where
  getToken server ctx := Pipeline.beside (K.getToken server ctx)
  getSession server ctx token := Pipeline.beside (K.getSession server ctx token)
  callTool session tool arguments := Pipeline.beside (K.callTool session tool arguments)
  disconnect server := Pipeline.beside (K.disconnect server)
  sleep seconds := Pipeline.beside (K.sleep seconds)

theorem Collaborators.beside_keep (K : Collaborators σ S C) (own : τ) :
    (K.beside : Collaborators (τ × σ) S C).Keep fun w => w.1 = own where
  getToken _ _ _ h := h
  getSession _ _ _ _ h := h
  callTool _ _ _ _ h := h
  disconnect _ _ h := h
  sleep _ _ h := h

namespace ProxyServer

/-- The proxy with hooks that work on more of the world. -/
def observed (P : ProxyServer σ S C) (hooks : List (LifecycleHook (τ × σ))) :
    ProxyServer (τ × σ) S C where
  configs := P.configs
  pipeline := some hooks
  models := P.models
  collaborators := P.collaborators.beside

variable (P : ProxyServer σ S C) (hooks : List (LifecycleHook (τ × σ))) (req : Request)
  (w : τ × σ)

/-- How a routed call ends after a pre-call run that left the world `(own, s)`. What is the
hook's own stays as it is until the post-call run. -/
inductive CallExit (pre : PipelineResult) (server : String) (own : τ) (s : σ)
    (run : CallRun (τ × σ) S C) : Prop
  | denied (v : σ) : pre.context.policyDecision = .deny →
      run = ⟨.ok (P.accessDenied pre.context.request.correlationId), [.preRun pre], own, v⟩ →
      CallExit pre server own s run
  | tokenFailed (v : σ) (message audience : String) : pre.context.policyDecision ≠ .deny →
      P.collaborators.getToken server pre.context.request s =
        (.error (.tokenExchange message audience), v) →
      run = ⟨.ok (P.accessDenied pre.context.request.correlationId),
        [.preRun pre, .getToken server pre.context.request], own, v⟩ →
      CallExit pre server own s run
  | raised (e : Exc) (events : List (CallEvent S C)) (v : σ) :
      pre.context.policyDecision ≠ .deny → Silent events →
      run = ⟨.error e, .preRun pre :: events, own, v⟩ → CallExit pre server own s run
  | answered (earlier : List (CallEvent S C)) (r : CallToolResult C) (v : σ) :
      pre.context.policyDecision ≠ .deny → Silent earlier →
      run = ((P.observed hooks).finish pre.context r (own, v)).after
        (.preRun pre :: (earlier ++ [.upstreamResult r])) → CallExit pre server own s run

/-- The world after the post-call run. -/
theorem finish_observed_state (pre : HookContext) (r : CallToolResult C) :
    ((P.observed hooks).finish pre r w).state =
      (execute hooks { pre with responsePayload := P.responsePayload r } w).2 := by
  change (if (execute hooks { pre with responsePayload := P.responsePayload r } w).1.success = true
    then _ else _ : CallRun (τ × σ) S C).state = _
  split_ifs <;> rfl

/-- A failed post-call run blocks the response. -/
theorem finish_observed_of_error (pre : HookContext) (r : CallToolResult C) {e : Exc}
    (h : (execute hooks { pre with responsePayload := P.responsePayload r } w).1.error = some e) :
    (P.observed hooks).finish pre r w = ⟨.ok (P.responseBlocked pre.request.correlationId),
      [.postRun (execute hooks { pre with responsePayload := P.responsePayload r } w).1],
      (execute hooks { pre with responsePayload := P.responsePayload r } w).2⟩ := by
  have hfailed := (execute_success_iff_error hooks _ w).not.mpr (by rw [h]; nofun)
  exact if_neg hfailed

/-- After a successful one the content is rebuilt. -/
theorem finish_observed_of_success (pre : HookContext) (r : CallToolResult C)
    (h : (execute hooks { pre with responsePayload := P.responsePayload r } w).1.error = none) :
    (P.observed hooks).finish pre r w = ⟨P.rebuildContent
        (execute hooks { pre with responsePayload := P.responsePayload r } w).1.context.responsePayload,
      [.postRun (execute hooks { pre with responsePayload := P.responsePayload r } w).1],
      (execute hooks { pre with responsePayload := P.responsePayload r } w).2⟩ :=
  if_pos ((execute_success_iff_error hooks _ w).mpr h)

theorem finish_observed_events (pre : HookContext) (r : CallToolResult C) :
    ((P.observed hooks).finish pre r w).events =
      [.postRun (execute hooks { pre with responsePayload := P.responsePayload r } w).1] := by
  cases herror : (execute hooks { pre with responsePayload := P.responsePayload r } w).1.error with
  | some e => rw [P.finish_observed_of_error hooks w pre r herror]
  | none => rw [P.finish_observed_of_success hooks w pre r herror]

/-- A call that is not routed has no trace. -/
theorem callTool_observed_of_not_routed {e : Exc} (hroute : P.route req.name = .error e) :
    (P.observed hooks).callTool req w = ⟨.error e, [], w⟩ := by
  have hroute' : (P.observed hooks).route req.name = .error e := hroute
  unfold callTool
  rw [hroute']

/-- A call that gets no token is denied. -/
theorem callTool_observed_of_refused {server tool : String} {config : ServerConfig}
    (hroute : P.route req.name = .ok (server, tool, config))
    (hallow : (execute hooks (initialContext req server tool config) w).1.context.policyDecision ≠
      .deny) {message audience : String} {v : σ}
    (htoken : P.collaborators.getToken server
      (execute hooks (initialContext req server tool config) w).1.context.request
      (execute hooks (initialContext req server tool config) w).2.2 =
        (.error (.tokenExchange message audience), v)) :
    ∃ result, (P.observed hooks).callTool req w =
      ⟨result, [.preRun (execute hooks (initialContext req server tool config) w).1,
        .getToken server (execute hooks (initialContext req server tool config) w).1.context.request],
        (execute hooks (initialContext req server tool config) w).2.1, v⟩ := by
  have hroute' : (P.observed hooks).route req.name = .ok (server, tool, config) := hroute
  unfold callTool
  rw [hroute']
  rcases hpre : execute hooks (initialContext req server tool config) w with ⟨pre, own, s⟩
  rw [hpre] at hallow htoken
  simp only [observed, hpre, if_neg hallow, forward, Collaborators.beside, Pipeline.beside, htoken]
  exact ⟨_, rfl⟩

/-- Every routed call ends in one of these ways. -/
theorem callTool_exit {server tool : String} {config : ServerConfig}
    (hroute : P.route req.name = .ok (server, tool, config)) :
    CallExit P hooks (execute hooks (initialContext req server tool config) w).1 server
      (execute hooks (initialContext req server tool config) w).2.1
      (execute hooks (initialContext req server tool config) w).2.2
      ((P.observed hooks).callTool req w) := by
  have hroute' : (P.observed hooks).route req.name = .ok (server, tool, config) := hroute
  unfold callTool
  rw [hroute']
  rcases hpre : execute hooks (initialContext req server tool config) w with ⟨pre, own, s⟩
  simp only [observed, hpre]
  by_cases hdeny : pre.context.policyDecision = .deny
  · rw [if_pos hdeny]
    exact .denied s hdeny rfl
  · rw [if_neg hdeny]
    have hexit := (P.observed hooks).forward_exit pre.context server tool config req.arguments
      (P.collaborators.beside_keep own) (s := (own, s)) rfl
    rcases hexit with ⟨m, a, ⟨own', v⟩, htoken, hown, hrun⟩ | ⟨⟨e, hresult⟩, hsilent, hown⟩ |
      ⟨earlier, r, ⟨own', v⟩, hsilent, hown, hrun⟩
    · obtain rfl : own' = own := hown
      have hanswer : P.collaborators.getToken server pre.context.request s =
          (.error (.tokenExchange m a), v) := by
        have hpair := Prod.mk.inj htoken
        exact Prod.ext hpair.1 (Prod.mk.inj hpair.2).2
      refine .tokenFailed v m a hdeny hanswer ?_
      rw [observed] at hrun
      rw [hrun]
      rfl
    · rcases hrun : (P.observed hooks).forward pre.context server tool config req.arguments
        (own, s) with ⟨result, events, own', v⟩
      rw [hrun] at hresult hsilent hown
      dsimp only at hresult hsilent hown
      subst hresult hown
      refine .raised e events v hdeny hsilent ?_
      rw [observed] at hrun
      rw [hrun]
      rfl
    · obtain rfl : own' = own := hown
      refine .answered earlier r v hdeny hsilent ?_
      rw [observed] at hrun
      rw [hrun]
      rfl

/-- A call makes one post-call run at most. -/
theorem postRun_unique {post post' : PipelineResult}
    (h : .postRun post ∈ ((P.observed hooks).callTool req w).events)
    (h' : .postRun post' ∈ ((P.observed hooks).callTool req w).events) : post = post' := by
  cases hroute : P.route req.name with
  | error e =>
    rw [P.callTool_observed_of_not_routed hooks req w hroute] at h
    cases h
  | ok routed =>
    obtain ⟨server, tool, config⟩ := routed
    have hlast {events : List (CallEvent S C)} (hsilent : Silent events) (post : PipelineResult) :
        .postRun post ∉ events := by
      intro hmem
      have hcarries := hsilent _ hmem
      cases hcarries
    cases P.callTool_exit hooks req w hroute with
    | denied v hdeny hrun =>
      rw [hrun] at h
      simp at h
    | tokenFailed v m a hdeny htoken hrun =>
      rw [hrun] at h
      simp at h
    | raised e events v hdeny hsilent hrun =>
      rw [hrun] at h
      simp [hlast hsilent] at h
    | answered earlier r v hdeny hsilent hrun =>
      rw [hrun] at h h'
      simp only [CallRun.after_events, List.cons_append, List.mem_cons, reduceCtorEq, false_or,
        List.append_assoc, List.mem_append, hlast hsilent, List.not_mem_nil] at h h'
      rw [P.finish_observed_events, List.mem_singleton] at h h'
      exact (CallEvent.postRun.inj h).trans (CallEvent.postRun.inj h').symm

/-- The call enters the pre-call run with the context `ctx`, and ends with what `finish` makes of
the upstream result `r` in a world where the other hooks find `v`. -/
def AnsweredIn (r : CallToolResult C) (ctx : HookContext) (v : σ) : Prop :=
  ∃ server tool config earlier, P.route req.name = .ok (server, tool, config) ∧
    ctx = initialContext req server tool config ∧
    (P.observed hooks).callTool req w =
      ((P.observed hooks).finish (execute hooks ctx w).1.context r ((execute hooks ctx w).2.1, v)).after
        (.preRun (execute hooks ctx w).1 :: (earlier ++ [.upstreamResult r]))

variable {P hooks req w} in
theorem AnsweredIn.upstreamResult_mem {r : CallToolResult C} {ctx : HookContext} {v : σ}
    (h : P.AnsweredIn hooks req w r ctx v) :
    .upstreamResult r ∈ ((P.observed hooks).callTool req w).events := by
  obtain ⟨-, -, -, earlier, -, -, hrun⟩ := h
  rw [hrun]
  simp

variable {P hooks req w} in
theorem answeredIn_context {server tool : String} {config : ServerConfig}
    (hroute : P.route req.name = .ok (server, tool, config)) {r : CallToolResult C}
    {ctx : HookContext} {v : σ} (h : P.AnsweredIn hooks req w r ctx v) :
    ctx = initialContext req server tool config := by
  obtain ⟨_, _, _, _, hrouted, hctx, -⟩ := h
  rw [hroute] at hrouted
  cases hrouted
  exact hctx

/-- A routed call has one pre-call run. -/
theorem preRun_mem_iff {server tool : String} {config : ServerConfig}
    (hroute : P.route req.name = .ok (server, tool, config)) (pre : PipelineResult) :
    .preRun pre ∈ ((P.observed hooks).callTool req w).events ↔
      pre = (execute hooks (initialContext req server tool config) w).1 := by
  have hroute' : (P.observed hooks).route req.name = .ok (server, tool, config) := hroute
  unfold callTool
  rw [hroute']
  simp only [observed]
  split_ifs
  · simp
  · have hforward := (P.observed hooks).preRun_notMem_forward
      (execute hooks (initialContext req server tool config) w).1.context server tool config
      req.arguments pre (execute hooks (initialContext req server tool config) w).2
    simp only [CallRun.after_events, List.mem_append, List.mem_singleton, CallEvent.preRun.injEq]
    exact ⟨fun h => h.resolve_right hforward, .inl⟩

/-- A call without an upstream result leaves what is the hook's own as it was after the pre-call
run. -/
theorem own_of_unanswered {server tool : String} {config : ServerConfig}
    (hroute : P.route req.name = .ok (server, tool, config))
    (hnone : ∀ r, .upstreamResult r ∉ ((P.observed hooks).callTool req w).events) :
    ((P.observed hooks).callTool req w).state.1 =
      (execute hooks (initialContext req server tool config) w).2.1 := by
  cases P.callTool_exit hooks req w hroute with
  | denied v hdeny hrun => rw [hrun]
  | tokenFailed v m a hdeny htoken hrun => rw [hrun]
  | raised e events v hdeny hsilent hrun => rw [hrun]
  | answered earlier r v hdeny hsilent hrun =>
    refine absurd ?_ (hnone r)
    rw [hrun]
    simp

/-- A call with an upstream result ends so. -/
theorem exists_answeredIn {r : CallToolResult C}
    (hanswer : .upstreamResult r ∈ ((P.observed hooks).callTool req w).events) :
    ∃ ctx v, P.AnsweredIn hooks req w r ctx v := by
  cases hroute : P.route req.name with
  | error e =>
    rw [P.callTool_observed_of_not_routed hooks req w hroute] at hanswer
    cases hanswer
  | ok routed =>
    obtain ⟨server, tool, config⟩ := routed
    refine ⟨initialContext req server tool config, ?_⟩
    cases P.callTool_exit hooks req w hroute with
    | denied v hdeny hrun =>
      rw [hrun] at hanswer
      simp at hanswer
    | tokenFailed v m a hdeny htoken hrun =>
      rw [hrun] at hanswer
      simp at hanswer
    | raised e events v hdeny hsilent hrun =>
      rw [hrun] at hanswer
      rcases List.mem_cons.mp hanswer with h | h
      · cases h
      · have hcarries := hsilent _ h
        cases hcarries
    | answered earlier r' v hdeny hsilent hrun =>
      have hfinish := (P.observed hooks).finish_events
        (execute hooks (initialContext req server tool config) w).1.context r'
        ((execute hooks (initialContext req server tool config) w).2.1, v)
      have hbefore : Silent (.preRun (execute hooks (initialContext req server tool config) w).1 ::
          earlier : List (CallEvent S C)) := by
        simpa [Silent, CallEvent.carriesResult] using hsilent
      rw [hrun] at hanswer
      obtain rfl : r = r' := eq_of_upstreamResult_mem hbefore hfinish hanswer
      exact ⟨v, server, tool, config, earlier, hroute, rfl, hrun⟩

end ProxyServer

end McpZero.Proxy
