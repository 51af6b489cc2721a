import McpZero.Proxy.CallTool
import McpZero.Masking.Hook

/-! The gate in front of the upstream server. The pipeline marks a failed run by `success`;
the gate looks at `policy_decision`, which only a denial sets. -/
namespace McpZero.Proxy
open Python Pipeline Transport

/-- The upstream side is contacted only after a successful pre-call run, and an unsuccessful
one ends the call without a contact. -/
def FailClosed {S C : Type} (events : List (CallEvent S C)) : Prop :=
  (∀ e ∈ events, e.contactsUpstream = true → ∃ r, .preRun r ∈ events ∧ r.success = true) ∧
    ∀ r, .preRun r ∈ events → r.success = false → ∀ e ∈ events, e.contactsUpstream = false

namespace ProxyServer

variable {σ S C : Type} (P : ProxyServer σ S C)

/-- The first hook to raise does not deny, and its hook point was entered with a context that
no earlier hook had marked as denied. -/
def FailsOpen (hooks : List (LifecycleHook σ)) (req : Request) (s : σ) : Prop :=
  ∃ server tool config, P.route req.name = .ok (server, tool, config) ∧
    ∃ entered e, FirstRaise hooks hookSequence (initialContext req server tool config) s entered e ∧
      e.denies = false ∧ entered.policyDecision ≠ .deny

/-- A run that stays before the gate contacts nothing. -/
private theorem failClosed_of_stopped (r : PipelineResult) :
    FailClosed ([.preRun r] : List (CallEvent S C)) := by
  constructor
  · intro e he hc
    rw [List.mem_singleton.mp he] at hc
    cases hc
  · intro r' _ _ e he
    rw [List.mem_singleton.mp he]
    rfl

private theorem failClosed_of_success (pre : PipelineResult) (hs : pre.success = true)
    (server tool : String) (config : ServerConfig) (arguments : Option Dict) (s : σ) :
    FailClosed (((P.forward pre.context server tool config arguments s).after
      [.preRun pre]).events) := by
  constructor
  · intro e _ _
    exact ⟨pre, by simp, hs⟩
  · intro r hr hf
    rcases List.mem_cons.mp hr with h | h
    · cases h
      rw [hs] at hf
      cases hf
    · exact absurd h (P.preRun_notMem_forward pre.context server tool config arguments r s)

private theorem not_failClosed_of_failure (pre : PipelineResult) (hs : pre.success = false)
    (server tool : String) (config : ServerConfig) (arguments : Option Dict) (s : σ) :
    ¬ FailClosed (((P.forward pre.context server tool config arguments s).after
      [.preRun pre]).events) := by
  intro h
  have hmem := P.getToken_mem_forward pre.context server tool config arguments s
  have hfree := h.2 pre (by simp) hs _ (List.mem_cons_of_mem _ hmem)
  cases hfree

private theorem not_failsOpen_of_not_routed {hooks : List (LifecycleHook σ)} {req : Request}
    {e : Exc} {s : σ} (hroute : P.route req.name = .error e) : ¬ P.FailsOpen hooks req s := by
  intro h
  obtain ⟨_, _, _, hroute', _⟩ := h
  rw [hroute] at hroute'
  cases hroute'

/-- For a routed request only the first raise counts. -/
private theorem failsOpen_iff_of_routed {hooks : List (LifecycleHook σ)} {req : Request}
    {server tool : String} {config : ServerConfig} {s : σ}
    (hroute : P.route req.name = .ok (server, tool, config)) :
    P.FailsOpen hooks req s ↔ ∃ entered e,
      FirstRaise hooks hookSequence (initialContext req server tool config) s entered e ∧
        e.denies = false ∧ entered.policyDecision ≠ .deny := by
  constructor
  · intro h
    obtain ⟨_, _, _, hroute', hraise⟩ := h
    rw [hroute] at hroute'
    cases hroute'
    exact hraise
  · intro h
    exact ⟨server, tool, config, hroute, h⟩

/-- The call keeps the gate closed exactly when it does not fail open. -/
theorem callTool_failClosed_iff (hooks : List (LifecycleHook σ)) (req : Request) (s : σ) :
    FailClosed ((P.withPipeline hooks).callTool req s).events ↔ ¬ P.FailsOpen hooks req s := by
  cases hroute : P.route req.name with
  | error e =>
    have hnot : ¬ P.FailsOpen hooks req s := P.not_failsOpen_of_not_routed hroute
    rw [P.callTool_of_not_routed hooks hroute]
    simp [FailClosed, hnot]
  | ok target =>
    obtain ⟨server, tool, config⟩ := target
    rw [P.failsOpen_iff_of_routed hroute]
    rcases allReturn_or_firstRaise hooks hookSequence (initialContext req server tool config) s with
      ⟨pre, t, hall⟩ | ⟨entered, e, hraise⟩
    · -- every hook returns: the run is a success whatever the decision
      have hnot : ∀ entered e,
          ¬ FirstRaise hooks hookSequence (initialContext req server tool config) s entered e :=
        fun _ _ => hall.not_firstRaise
      obtain ⟨ex, hcall⟩ := P.callTool_of_allReturn hroute hall
      have hclosed : FailClosed ((P.withPipeline hooks).callTool req s).events := by
        rw [hcall]
        dsimp only
        split_ifs
        · exact failClosed_of_stopped _
        · exact failClosed_of_success _ _ rfl server tool config req.arguments t
      simp [hclosed, hnot]
    · obtain ⟨r, t, hfailed, hdeny, hcall⟩ := P.callTool_of_firstRaise hroute hraise
      rw [hcall]
      by_cases hd : r.context.policyDecision = .deny
      · rw [if_pos hd]
        have hclosed := failClosed_of_stopped (S := S) (C := C) r
        simp only [hclosed, true_iff, not_exists, not_and]
        intro entered' e' hraise' hnodeny hundecided
        obtain ⟨rfl, rfl⟩ := hraise.functional hraise'
        rcases hdeny.mp hd with h | h
        · rw [hnodeny] at h
          cases h
        · exact hundecided h
      · rw [if_neg hd]
        have hopen := not_failClosed_of_failure (P.withPipeline hooks) r hfailed server tool config
          req.arguments t
        simp only [hopen, false_iff, not_not]
        rw [hdeny, not_or] at hd
        exact ⟨entered, e, hraise, by simpa using hd.1, hd.2⟩

/-- An engine whose analyzer raises an exception of its own, as it does for a text or an
entity it cannot handle. -/
def brokenEngine : Masking.MaskingEngine := fun _ _ _ => .error (.other "ValueError" "bad entity")

def brokenMaskingProxy : ProxyServer Unit Unit String :=
  textProxy [(Masking.MaskingHook.mk brokenEngine { enabled := true }).toHook]

/-- The masking failure is no denial, and the call goes on to the server. -/
theorem brokenMasking_not_failClosed :
    ¬ FailClosed (brokenMaskingProxy.callTool queryRequest ()).events := by
  obtain ⟨r, rest, hevents, hfailed⟩ : ∃ r rest,
      (brokenMaskingProxy.callTool queryRequest ()).events =
        .preRun r :: .getToken "db" { correlationId := "c1" } :: rest ∧ r.success = false :=
    ⟨_, _, rfl, rfl⟩
  rw [hevents]
  intro h
  have hcontact := h.2 r List.mem_cons_self hfailed (.getToken "db" { correlationId := "c1" })
    (List.mem_cons_of_mem _ List.mem_cons_self)
  cases hcontact

end ProxyServer

end McpZero.Proxy
