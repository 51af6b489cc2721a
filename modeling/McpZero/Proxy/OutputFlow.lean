import McpZero.Lib.Except
import McpZero.Proxy.CallTool

/-! What the client can see of an upstream result. A call that gets one ends with it: the
post-call pipeline decides what becomes of it, and the retry loop never comes back to it. -/
namespace McpZero.Proxy
open Python Pipeline Transport

variable {σ S C : Type}

/-- The events that come with an upstream result. -/
def CallEvent.carriesResult : CallEvent S C → Bool
  | .upstreamResult _ => true
  | .postRun _ => true
  | _ => false

/-- A trace in which no upstream result has arrived. -/
def Silent (events : List (CallEvent S C)) : Prop :=
  ∀ e ∈ events, e.carriesResult = false

theorem silent_append {xs ys : List (CallEvent S C)} (hxs : Silent xs) (hys : Silent ys) :
    Silent (xs ++ ys) := by
  intro e he
  rcases List.mem_append.mp he with h | h
  · exact hxs e h
  · exact hys e h

/-- Every post-call run of the trace is unsuccessful. -/
def PostRunsFail (events : List (CallEvent S C)) : Prop :=
  ∀ post, .postRun post ∈ events → post.success = false

/-- Two environments that differ only in what the upstream server answers. -/
structure DifferInResults (K K' : Collaborators σ S C) : Prop where
  getToken : K'.getToken = K.getToken
  getSession : K'.getSession = K.getSession
  disconnect : K'.disconnect = K.disconnect
  sleep : K'.sleep = K.sleep
  callTool : ∀ session tool arguments s,
    (∃ e t, K.callTool session tool arguments s = (.error e, t) ∧
      K'.callTool session tool arguments s = (.error e, t)) ∨
    ∃ r r' t, K.callTool session tool arguments s = (.ok r, t) ∧
      K'.callTool session tool arguments s = (.ok r', t)

theorem DifferInResults.refl (K : Collaborators σ S C) : DifferInResults K K where
  getToken := rfl
  getSession := rfl
  disconnect := rfl
  sleep := rfl
  callTool session tool arguments s := by
    rcases h : K.callTool session tool arguments s with ⟨_ | r, t⟩
    · exact .inl ⟨_, t, rfl, rfl⟩
    · exact .inr ⟨r, r, t, rfl, rfl⟩

namespace ProxyServer

variable (P : ProxyServer σ S C) (hooks : List (LifecycleHook σ))

/-- What the client gets for an upstream result once the post-call run is over. -/
def delivered (pre : HookContext) (post : PipelineResult) : Except Exc (List C) :=
  if post.success then P.rebuildContent post.context.responsePayload
  else .ok (P.responseBlocked pre.request.correlationId)

/-- The run ended with the first upstream result it got. -/
def Answered (pre : HookContext) (run : CallRun σ S C) : Prop :=
  ∃ earlier r s, Silent earlier ∧
    let post := (execute hooks { pre with responsePayload := P.responsePayload r } s).1
    run.events = earlier ++ [.upstreamResult r, .postRun post] ∧
      run.result = P.delivered pre post

/-- A run shows the client an upstream result only through a successful post-call run. -/
def OutputFlow (run : CallRun σ S C) : Prop :=
  (Silent run.events ∧
    ∀ content, run.result = .ok content → ∃ cid, content = P.accessDenied cid) ∨
  ∃ pre, .preRun pre ∈ run.events ∧ P.Answered hooks pre.context run

variable {P hooks}

theorem Answered.after {pre : HookContext} {run : CallRun σ S C} (h : P.Answered hooks pre run)
    {events : List (CallEvent S C)} (hsilent : Silent events) :
    P.Answered hooks pre (run.after events) := by
  obtain ⟨earlier, r, s, hearlier, hevents, hresult⟩ := h
  refine ⟨events ++ earlier, r, s, silent_append hsilent hearlier, ?_, hresult⟩
  rw [CallRun.after_events, hevents, List.append_assoc]

/-- Behind a failed post-call run only the correlation id is left. -/
theorem Answered.blocked {pre : HookContext} {run : CallRun σ S C} (h : P.Answered hooks pre run)
    (hfail : PostRunsFail run.events) :
    run.result = .ok (P.responseBlocked pre.request.correlationId) := by
  obtain ⟨earlier, r, s, -, hevents, hresult⟩ := h
  have hpost := hfail (execute hooks { pre with responsePayload := P.responsePayload r } s).1
    (by simp [hevents])
  rw [hresult, delivered, hpost]
  rfl

variable (P hooks)

theorem validated_error {r : Except String C} {e : Exc} (h : validated r = .error e) :
    ∃ message, e = .other "ValidationError" message := by
  cases r with
  | error m => cases h; exact ⟨m, rfl⟩
  | ok c => cases h

/-- What rebuilding raises is none of the exceptions that the retry loop catches. -/
theorem rebuildItem_error {item : Value} {e : Exc} (h : P.rebuildItem item = .error e) :
    ∃ t m, e = .other t m := by
  unfold rebuildItem at h
  cases hkey : item.getKey "type" with
  | error e' =>
    rw [hkey] at h
    cases h
    unfold Value.getKey at hkey
    split at hkey
    · cases hkey
    · cases hkey
      exact ⟨_, _, rfl⟩
  | ok kind =>
    rw [hkey] at h
    simp only [bind, Except.bind] at h
    split at h
    · obtain ⟨m, rfl⟩ := validated_error h
      exact ⟨_, _, rfl⟩
    · obtain ⟨m, rfl⟩ := validated_error h
      exact ⟨_, _, rfl⟩
    · obtain ⟨m, rfl⟩ := validated_error h
      exact ⟨_, _, rfl⟩
    · cases h

theorem rebuildContent_error {payload : Dict} {e : Exc} (h : P.rebuildContent payload = .error e) :
    ∃ t m, e = .other t m := by
  unfold rebuildContent at h
  cases hiter : (payload.getD "content" (.list [])).iter with
  | error e' =>
    rw [hiter] at h
    cases h
    unfold Value.iter at hiter
    split at hiter
    · cases hiter
    · cases hiter
    · cases hiter
    · cases hiter
    · cases hiter
    · cases hiter
      exact ⟨_, _, rfl⟩
  | ok items =>
    rw [hiter] at h
    obtain ⟨item, -, hitem⟩ := Lib.exists_of_mapM_eq_error h
    exact P.rebuildItem_error hitem

theorem delivered_error {pre : HookContext} {post : PipelineResult} {e : Exc}
    (h : P.delivered pre post = .error e) : ∃ t m, e = .other t m := by
  unfold delivered at h
  split_ifs at h
  exact P.rebuildContent_error h

/-- Two runs of the same code before and after an upstream result: they are one run, in which
no result arrived, or each has ended with its first result. -/
def Paired (pre : HookContext) (run run' : CallRun σ S C) : Prop :=
  (run = run' ∧ Silent run.events ∧
    ∀ content, run.result = .ok content → ∃ cid, content = P.accessDenied cid) ∨
  (P.Answered hooks pre run ∧ P.Answered hooks pre run')

variable {P hooks}

theorem Paired.after {pre : HookContext} {run run' : CallRun σ S C}
    (h : P.Paired hooks pre run run') {events : List (CallEvent S C)} (hsilent : Silent events) :
    P.Paired hooks pre (run.after events) (run'.after events) := by
  rcases h with ⟨rfl, hrun, hresult⟩ | ⟨hrun, hrun'⟩
  · exact .inl ⟨rfl, silent_append hsilent hrun, hresult⟩
  · exact .inr ⟨hrun.after hsilent, hrun'.after hsilent⟩

variable (P hooks)
variable (pre : HookContext) (server tool : String) (config : ServerConfig)
  (arguments : Option Dict) (token : Option String)
variable {K K' : Collaborators σ S C} (hK : DifferInResults K K')

/-- The proxy with the hooks in front of the collaborators. -/
abbrev behind (K : Collaborators σ S C) : ProxyServer σ S C := (P.deployed K).withPipeline hooks

theorem finish_behind (r : CallToolResult C) (s : σ) :
    (P.behind hooks K).finish pre r s =
      let run := execute hooks { pre with responsePayload := P.responsePayload r } s
      ⟨P.delivered pre run.1, [.postRun run.1], run.2⟩ := by
  show (if (execute hooks { pre with responsePayload := P.responsePayload r } s).1.success = true
    then _ else _) = _
  simp only [delivered]
  split_ifs <;> rfl

theorem finish_answered {earlier : List (CallEvent S C)} (hsilent : Silent earlier)
    (r : CallToolResult C) (s : σ) :
    P.Answered hooks pre
      (((P.behind hooks K).finish pre r s).after (earlier ++ [.upstreamResult r])) := by
  rw [finish_behind]
  refine ⟨earlier, r, s, hsilent, ?_, rfl⟩
  rw [CallRun.after_events, List.append_assoc]
  rfl

include hK

/-- One attempt: both runs fail alike before any result, or both get one. -/
theorem attempt_paired (s : σ) :
    let run := (P.behind hooks K).attempt pre server tool arguments token s
    let run' := (P.behind hooks K').attempt pre server tool arguments token s
    (run = run' ∧ Silent run.events ∧ ∃ e, run.result = .error e) ∨
      (P.Answered hooks pre run ∧ P.Answered hooks pre run') := by
  simp only [attempt, behind, withPipeline, deployed, hK.getSession]
  rcases hsession : K.getSession server pre.request token s with ⟨_ | session, t⟩
  · exact .inl ⟨rfl, by simp [Silent, CallEvent.carriesResult], _, rfl⟩
  · rcases hK.callTool session tool arguments t with ⟨e, u, h, h'⟩ | ⟨r, r', u, h, h'⟩
    · simp only [h, h']
      exact .inl ⟨trivial, by simp [Silent, CallEvent.carriesResult], e, rfl⟩
    · simp only [h, h']
      have hsent : Silent ([.getSession server pre.request token,
          .callTool session tool arguments] : List (CallEvent S C)) := by
        simp [Silent, CallEvent.carriesResult]
      exact .inr ⟨P.finish_answered hooks pre hsent r u,
        P.finish_answered hooks pre hsent r' u⟩

theorem recover_behind (correlationId : String) (e : Exc) (s : σ) :
    (P.behind hooks K').recover server config correlationId e s =
      (P.behind hooks K).recover server config correlationId e s := by
  simp only [recover, behind, withPipeline, deployed, hK.disconnect]

theorem backOff_behind (index : ℕ) (s : σ) :
    (P.behind hooks K').backOff config index s = (P.behind hooks K).backOff config index s := by
  simp only [backOff, behind, withPipeline, deployed, hK.sleep]

omit hK in
theorem backOff_silent (index : ℕ) (s : σ) : Silent (P.backOff config index s).2.1 := by
  intro ev hev
  obtain ⟨seconds, rfl⟩ := P.backOff_events config index s ev hev
  rfl

omit hK in
/-- The loop never comes back to a result. -/
theorem attempts_of_answered (remaining index : ℕ) (lastError : Option Exc) (s : σ)
    (h : P.Answered hooks pre ((P.behind hooks K).attempt pre server tool arguments token s)) :
    P.Answered hooks pre ((P.behind hooks K).attempts pre server tool config arguments token
      (remaining + 1) index lastError s) := by
  rw [attempts_of_final]
  · exact h
  · intro e he
    obtain ⟨earlier, r, t, hsilent, hevents, hresult⟩ := h
    exact P.delivered_error (hresult.symm.trans he)

/-- The whole loop, by induction on the attempts that remain. -/
theorem attempts_paired (remaining index : ℕ) (lastError : Option Exc) (s : σ) :
    P.Paired hooks pre
      ((P.behind hooks K).attempts pre server tool config arguments token remaining index lastError s)
      ((P.behind hooks K').attempts pre server tool config arguments token remaining index
        lastError s) := by
  induction remaining generalizing index lastError s with
  | zero => exact .inl ⟨rfl, by simp [attempts, Silent], by simp [attempts]⟩
  | succ remaining ih =>
    rcases P.attempt_paired hooks pre server tool arguments token hK s with
      ⟨hsame, hsilent, e, hresult⟩ | ⟨hrun, hrun'⟩
    · -- the attempt fails alike in both runs, and so does what follows it
      have hdisconnects : Silent
          ((P.behind hooks K).recover server config pre.request.correlationId e
            ((P.behind hooks K).attempt pre server tool arguments token s).state).2.1 := by
        intro ev hev
        rw [recover_events _ _ _ _ _ _ ev hev]
        rfl
      rw [attempts, attempts]
      rw [← hsame, hresult]
      dsimp only
      rw [P.recover_behind hooks server config hK]
      rcases hrec : (P.behind hooks K).recover server config pre.request.correlationId e
          ((P.behind hooks K).attempt pre server tool arguments token s).state with
        ⟨e' | lastError', events, t⟩
      · rw [hrec] at hdisconnects
        exact .inl ⟨rfl, silent_append hsilent hdisconnects, fun _ h => by cases h⟩
      · rw [hrec] at hdisconnects
        have hwaits := (P.behind hooks K).backOff_silent config index t
        dsimp only
        rw [P.backOff_behind hooks config hK]
        rcases hback : (P.behind hooks K).backOff config index t with ⟨_ | _, waits, u⟩
        all_goals
          rw [hback] at hwaits
          have hbefore := silent_append (silent_append hsilent hdisconnects) hwaits
        · exact .inl ⟨rfl, hbefore, fun _ h => by cases h⟩
        · exact (ih (index + 1) (some lastError') u).after hbefore
    · exact .inr
        ⟨P.attempts_of_answered hooks pre server tool config arguments token _ _ _ _ hrun,
          P.attempts_of_answered hooks pre server tool config arguments token _ _ _ _ hrun'⟩

theorem forward_paired (s : σ) :
    P.Paired hooks pre ((P.behind hooks K).forward pre server tool config arguments s)
      ((P.behind hooks K').forward pre server tool config arguments s) := by
  have hsilent : Silent ([.getToken server pre.request] : List (CallEvent S C)) := by
    simp [Silent, CallEvent.carriesResult]
  have htoken : (P.behind hooks K').collaborators.getToken =
      (P.behind hooks K).collaborators.getToken := hK.getToken
  unfold forward
  rw [htoken]
  split
  · exact .inl ⟨rfl, hsilent, fun content h => ⟨_, (Except.ok.inj h).symm⟩⟩
  · exact .inl ⟨rfl, hsilent, nofun⟩
  · exact (P.attempts_paired hooks pre server tool config arguments _ hK _ _ _ _).after hsilent

/-- Two whole calls: one run without a result, or two that each end with their first result
after the same pre-call run. -/
theorem callTool_paired (req : Request) (s : σ) :
    let run := (P.behind hooks K).callTool req s
    let run' := (P.behind hooks K').callTool req s
    (run = run' ∧ P.OutputFlow hooks run) ∨
      ∃ pre, .preRun pre ∈ run.events ∧ P.Answered hooks pre.context run ∧
        P.Answered hooks pre.context run' := by
  dsimp only
  unfold callTool
  simp only [withPipeline_route, deployed_route]
  rcases P.route req.name with e | ⟨server, tool, config⟩
  · exact .inl ⟨rfl, .inl ⟨by simp [Silent], nofun⟩⟩
  · rcases hexec : execute hooks (initialContext req server tool config) s with ⟨pre, t⟩
    have hsilent : Silent ([.preRun pre] : List (CallEvent S C)) := by
      simp [Silent, CallEvent.carriesResult]
    simp only [withPipeline, deployed, hexec]
    split_ifs
    · exact .inl ⟨rfl, .inl ⟨hsilent, fun content h => ⟨_, (Except.ok.inj h).symm⟩⟩⟩
    · rcases (P.forward_paired hooks pre.context server tool config req.arguments hK t).after
        hsilent with ⟨hsame, hevents, hresult⟩ | ⟨hrun, hrun'⟩
      · exact .inl ⟨hsame, .inl ⟨hevents, hresult⟩⟩
      · exact .inr ⟨pre, by simp, hrun, hrun'⟩

omit hK

/-- A run shows an upstream result only as the post-call run left it, and two environments
that answer differently cannot be told apart behind post-call runs that fail. -/
theorem callTool_outputFlow (req : Request) (s : σ) :
    (∀ K : Collaborators σ S C, P.OutputFlow hooks ((P.behind hooks K).callTool req s)) ∧
    ∀ K K' : Collaborators σ S C, DifferInResults K K' →
      PostRunsFail ((P.behind hooks K).callTool req s).events →
      PostRunsFail ((P.behind hooks K').callTool req s).events →
      ((P.behind hooks K).callTool req s).result = ((P.behind hooks K').callTool req s).result := by
  constructor
  · intro K
    rcases P.callTool_paired hooks (.refl K) req s with ⟨-, hflow⟩ | ⟨pre, hpre, hrun, -⟩
    · exact hflow
    · exact .inr ⟨pre, hpre, hrun⟩
  · intro K K' hK hfail hfail'
    rcases P.callTool_paired hooks hK req s with ⟨hsame, -⟩ | ⟨pre, -, hrun, hrun'⟩
    · rw [hsame]
    · rw [hrun.blocked hfail, hrun'.blocked hfail']

end ProxyServer

end McpZero.Proxy
