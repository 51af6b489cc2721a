import McpZero.Proxy.OutputFlow

/-! How a call ends: without an upstream result, or with what `finish` makes of the first one.
The collaborators may keep a part of the world that the hooks work on. -/
namespace McpZero.Proxy
open Python Pipeline Transport

variable {σ S C : Type}

/-- The result of a trace is the one that comes right after a silent part. -/
theorem eq_of_upstreamResult_mem {earlier : List (CallEvent S C)} {r r' : CallToolResult C}
    {run : CallRun σ S C} (hsilent : Silent earlier) (hrun : ∀ e ∈ run.events, ∃ post, e = .postRun post)
    (h : .upstreamResult r ∈ (run.after (earlier ++ [.upstreamResult r'])).events) : r = r' := by
  simp only [CallRun.after_events, List.append_assoc, List.mem_append, List.mem_singleton] at h
  rcases h with h | h | h
  · have hcarries := hsilent _ h
    cases hcarries
  · cases h
    rfl
  · obtain ⟨post, hpost⟩ := hrun _ h
    cases hpost

/-- The collaborators keep a property of the world. -/
structure Collaborators.Keep (K : Collaborators σ S C) (W : σ → Prop) : Prop where
  getToken (server : String) (ctx : RequestContext) (s : σ) : W s → W (K.getToken server ctx s).2
  getSession (server : String) (ctx : RequestContext) (token : Option String) (s : σ) :
    W s → W (K.getSession server ctx token s).2
  callTool (session : S) (tool : String) (arguments : Option Dict) (s : σ) :
    W s → W (K.callTool session tool arguments s).2
  disconnect (server : String) (s : σ) : W s → W (K.disconnect server s).2
  sleep (seconds : ℚ) (s : σ) : W s → W (K.sleep seconds s).2

theorem Collaborators.keep_true (K : Collaborators σ S C) : K.Keep fun _ => True := by
  constructor <;> simp

namespace ProxyServer

variable (P : ProxyServer σ S C) (W : σ → Prop)

/-- The run raises before an upstream result has arrived. -/
structure RaisesUnanswered (run : CallRun σ S C) : Prop where
  result : ∃ e, run.result = .error e
  events : Silent run.events
  state : W run.state

/-- The run ends with what becomes of its first upstream result, in a world in which `W`
holds. -/
def Finishes (pre : HookContext) (run : CallRun σ S C) : Prop :=
  ∃ earlier r s, Silent earlier ∧ W s ∧
    run = (P.finish pre r s).after (earlier ++ [.upstreamResult r])

variable {P W}

theorem RaisesUnanswered.after {run : CallRun σ S C} (h : RaisesUnanswered W run)
    {events : List (CallEvent S C)} (hsilent : Silent events) :
    RaisesUnanswered W (run.after events) where
  result := h.result
  events := silent_append hsilent h.events
  state := h.state

theorem Finishes.after {pre : HookContext} {run : CallRun σ S C} (h : P.Finishes W pre run)
    {events : List (CallEvent S C)} (hsilent : Silent events) :
    P.Finishes W pre (run.after events) := by
  obtain ⟨earlier, r, s, hearlier, hW, rfl⟩ := h
  refine ⟨events ++ earlier, r, s, silent_append hsilent hearlier, hW, ?_⟩
  simp [CallRun.after]

theorem finish_error {pre : HookContext} {r : CallToolResult C} {s : σ} {e : Exc}
    (h : (P.finish pre r s).result = .error e) : ∃ t m, e = .other t m := by
  unfold finish at h
  split at h
  · cases h
  · dsimp only at h
    split_ifs at h
    exact P.rebuildContent_error h

variable (P)
variable (pre : HookContext) (server tool : String) (config : ServerConfig)
  (arguments : Option Dict) (token : Option String)

section
variable (hK : P.collaborators.Keep W)
include hK

theorem attempt_exit {s : σ} (hs : W s) :
    RaisesUnanswered W (P.attempt pre server tool arguments token s) ∨
      P.Finishes W pre (P.attempt pre server tool arguments token s) := by
  have hsession := hK.getSession server pre.request token s hs
  unfold attempt
  rcases h : P.collaborators.getSession server pre.request token s with ⟨e | session, t⟩
  all_goals rw [h] at hsession
  · exact .inl ⟨⟨e, rfl⟩, by simp [Silent, CallEvent.carriesResult], hsession⟩
  · have hcall := hK.callTool session tool arguments t hsession
    dsimp only
    rcases h' : P.collaborators.callTool session tool arguments t with ⟨e | r, u⟩
    all_goals rw [h'] at hcall
    · exact .inl ⟨⟨e, rfl⟩, by simp [Silent, CallEvent.carriesResult], hcall⟩
    · exact .inr ⟨_, r, u, by simp [Silent, CallEvent.carriesResult], hcall, rfl⟩

theorem recover_keeps (correlationId : String) (e : Exc) {s : σ} (hs : W s) :
    W (P.recover server config correlationId e s).2.2 := by
  have hdisconnect := hK.disconnect server s hs
  unfold recover
  split
  · exact hs
  · split
    all_goals rename_i h
    all_goals simpa only [h] using hdisconnect
  · split
    all_goals rename_i h
    all_goals simpa only [h] using hdisconnect
  · exact hs

theorem backOff_keeps (index : ℕ) {s : σ} (hs : W s) : W (P.backOff config index s).2.2 := by
  unfold backOff
  split_ifs
  · split
    · exact hs
    · exact hK.sleep _ s hs
  · exact hs

omit hK in
theorem recover_silent (correlationId : String) (e : Exc) (s : σ) :
    Silent (P.recover server config correlationId e s).2.1 := by
  intro ev hev
  rw [P.recover_events server config correlationId e s ev hev]
  rfl

omit hK in
/-- The loop does not go on after a result. -/
theorem attempts_of_finishes (remaining index : ℕ) (lastError : Option Exc) {s : σ}
    (h : P.Finishes W pre (P.attempt pre server tool arguments token s)) :
    P.Finishes W pre
      (P.attempts pre server tool config arguments token (remaining + 1) index lastError s) := by
  rw [attempts_of_final]
  · exact h
  · intro e he
    obtain ⟨earlier, r, t, hearlier, hW, hrun⟩ := h
    rw [hrun] at he
    exact finish_error he

/-- The whole loop, by induction on the attempts that remain. -/
theorem attempts_exit (remaining index : ℕ) (lastError : Option Exc) {s : σ} (hs : W s) :
    RaisesUnanswered W
        (P.attempts pre server tool config arguments token remaining index lastError s) ∨
      P.Finishes W pre
        (P.attempts pre server tool config arguments token remaining index lastError s) := by
  induction remaining generalizing index lastError s with
  | zero => exact .inl ⟨⟨_, rfl⟩, by simp [attempts, Silent], hs⟩
  | succ remaining ih =>
    rcases P.attempt_exit pre server tool arguments token hK hs with
      ⟨⟨e, hresult⟩, hsilent, hstate⟩ | hfinishes
    · have hrecover := P.recover_keeps server config hK pre.request.correlationId e hstate
      have hbefore := silent_append hsilent (P.recover_silent server config
        pre.request.correlationId e (P.attempt pre server tool arguments token s).state)
      rw [attempts, hresult]
      dsimp only
      rcases h : P.recover server config pre.request.correlationId e
        (P.attempt pre server tool arguments token s).state with ⟨e' | lastError', events, t⟩
      all_goals rw [h] at hrecover hbefore
      · exact .inl ⟨⟨e', rfl⟩, hbefore, hrecover⟩
      · have hwoken := P.backOff_keeps config hK index hrecover
        have hwaits := silent_append hbefore (P.backOff_silent config index t)
        dsimp only at hwoken hwaits ⊢
        rcases h' : P.backOff config index t with ⟨e' | _, waits, u⟩
        all_goals rw [h'] at hwoken hwaits
        · exact .inl ⟨⟨e', rfl⟩, hwaits, hwoken⟩
        · exact (ih (index + 1) (some lastError') hwoken).imp (·.after hwaits) (·.after hwaits)
    · exact .inr (P.attempts_of_finishes pre server tool config arguments token _ _ _ hfinishes)

/-- A call that the gate let through is denied for want of a token, raises, or finishes. -/
theorem forward_exit {s : σ} (hs : W s) :
    (∃ m a t, P.collaborators.getToken server pre.request s = (.error (.tokenExchange m a), t) ∧
      W t ∧ P.forward pre server tool config arguments s =
        ⟨.ok (P.accessDenied pre.request.correlationId), [.getToken server pre.request], t⟩) ∨
    RaisesUnanswered W (P.forward pre server tool config arguments s) ∨
      P.Finishes W pre (P.forward pre server tool config arguments s) := by
  have hsilent : Silent ([.getToken server pre.request] : List (CallEvent S C)) := by
    simp [Silent, CallEvent.carriesResult]
  have htoken := hK.getToken server pre.request s hs
  unfold forward
  rcases h : P.collaborators.getToken server pre.request s with ⟨e | token, t⟩
  all_goals rw [h] at htoken
  · cases e with
    | tokenExchange m a => exact .inl ⟨m, a, t, rfl, htoken, rfl⟩
    | _ => exact .inr (.inl ⟨⟨_, rfl⟩, hsilent, htoken⟩)
  · exact .inr ((P.attempts_exit pre server tool config arguments token hK _ _ _ htoken).imp
      (·.after hsilent) (·.after hsilent))

end

end ProxyServer

end McpZero.Proxy
