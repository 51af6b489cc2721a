import McpZero.Audit.Attribution
import McpZero.Governance.DenyOverrides
import McpZero.Main.SecureStart
import McpZero.Proxy.ListingAgreement

/-! Which calls of a started gateway reach an upstream server. -/
namespace McpZero.Proxy.ProxyServer
open Python Lib Pipeline Transport Governance Identity Main

variable {σ S C : Type} (P : ProxyServer σ S C) {c : CoreHooks σ}

theorem stops_preValidation {ctx : HookContext} {s u : σ} {e : Exc} :
    Stops (stagesAt c.ordered .preValidation) ctx s e u ↔
      ∃ h, c.identity = some h ∧ h.onPreValidation ctx s = (.error e, u) := by
  unfold CoreHooks.ordered stagesAt
  rcases c.identity with _ | i <;> rcases c.policy with _ | p <;> rcases c.analytics with _ | a <;>
    simp [stops_cons, LifecycleHook.method, Observer.toHook, GovernanceHook.toHook,
      IdentityHook.toHook]

theorem stops_postValidation {ctx : HookContext} {s u : σ} {e : Exc} :
    Stops (stagesAt c.ordered .postValidation) ctx s e u ↔
      ∃ p, c.policy = some p ∧ (c.governance p).onPostValidation ctx = .error e ∧ s = u := by
  unfold CoreHooks.ordered stagesAt
  rcases c.identity with _ | i <;> rcases c.policy with _ | p <;> rcases c.analytics with _ | a <;>
    simp [stops_cons, LifecycleHook.method, Observer.toHook, GovernanceHook.toHook,
      IdentityHook.toHook, and_comm]

/-- What the engine is asked about a call of a caller. -/
def callInput (caller : String × List String) (server tool : String) : PolicyInput where
  userId := caller.1
  groups := caller.2
  mcpServer := server
  tool := tool

/-- The caller has been identified, where there is an identity provider, and the policy, where
there is one, allows the call. -/
def AdmitsCaller (c : CoreHooks σ) (authorization server tool : String) (s : σ) : Prop :=
  ∃ i, identityOf c authorization s = some i ∧ (c.identity.isSome = true → i.isSome = true) ∧
    ∀ p, c.policy = some p →
      (PolicyEngine.evaluate p (callInput (GovernanceHook.caller i) server tool)).effect = .allow

/-- The validation of the token ends with an exception that denies nothing. -/
def Escapes (c : CoreHooks σ) (authorization : String) (s : σ) : Prop :=
  ∃ h token e, c.identity = some h ∧
    IdentityHook.bearerToken (listContext "" authorization) = .ok token ∧
      (h.validateToken token s).1 = .error e ∧ (IdentityHook.authenticationFailed e).denies = false

/-- A denial of the governance hook is a short circuit that denies. -/
theorem governance_denies {h : GovernanceHook} {ctx : HookContext} {e : Exc}
    (he : h.onPostValidation ctx = .error e) : e.denies = true := by
  unfold GovernanceHook.onPostValidation at he
  dsimp only at he
  split_ifs at he
  · rw [← Except.error.inj he]
    rfl
  · rw [← Except.error.inj he]
    rfl

/-- The missing and the malformed header deny, so that only the validator can escape. -/
theorem escapes_of_stops {ctx : HookContext} {authorization : String} {s u : σ} {e : Exc}
    (hctx : ctx.extras = [(.str "authorization", .str authorization)])
    (hstops : Stops (stagesAt c.ordered .preValidation) ctx s e u) (hdenies : e.denies = false) :
    Escapes c authorization s := by
  obtain ⟨h, hc, hraise⟩ := stops_preValidation.mp hstops
  have hbearer : IdentityHook.bearerToken ctx =
      IdentityHook.bearerToken (listContext "" authorization) := by
    unfold IdentityHook.bearerToken
    rw [hctx]
    rfl
  unfold IdentityHook.onPreValidation at hraise
  rw [hbearer] at hraise
  cases htoken : IdentityHook.bearerToken (listContext "" authorization) with
  | error e' =>
    rw [htoken] at hraise
    obtain ⟨rfl, -⟩ : e' = e ∧ s = u := by simpa using hraise
    have hdeny : e'.denies = true := by
      unfold IdentityHook.bearerToken at htoken
      simp only [listContext, Dict.getD, Dict.get?, List.lookup_cons, BEq.rfl,
        Option.getD_some] at htoken
      split_ifs at htoken
      · rw [← Except.error.inj htoken]
        rfl
      · cases hparse : parseBearer authorization with
        | none =>
          rw [hparse] at htoken
          rw [← Except.error.inj htoken]
          rfl
        | some token =>
          rw [hparse] at htoken
          cases htoken
    rw [hdeny] at hdenies
    cases hdenies
  | ok token =>
    rw [htoken] at hraise
    dsimp only at hraise
    rcases hvalid : h.validateToken token s with ⟨_ | claims, t⟩
    · rename_i e'
      rw [hvalid] at hraise
      obtain ⟨rfl, -⟩ : IdentityHook.authenticationFailed e' = e ∧ t = u := by simpa using hraise
      exact ⟨h, token, e', hc, htoken, by rw [hvalid], hdenies⟩
    · rw [hvalid] at hraise
      cases hraise

/-- A call that passes both validation points is admitted. -/
theorem admits_of_completes {ctx d d' : HookContext} {authorization : String} {s t t' : σ}
    (hctx : ctx.extras = [(.str "authorization", .str authorization)])
    (hanonymous : ctx.request.identity = none)
    (hpre : Completes (stagesAt c.ordered .preValidation) ctx s d t)
    (hpost : Completes (stagesAt c.ordered .postValidation) d t d' t') :
    AdmitsCaller c authorization ctx.serverName ctx.toolName s := by
  obtain ⟨hok, herror⟩ := preValidation_spec c ctx hctx hanonymous s
  cases hi : identityOf c authorization s with
  | none =>
    obtain ⟨e, u, hstops⟩ := herror hi
    exact absurd hstops hpre.not_stops
  | some i =>
    obtain ⟨e, u, hsame, hidentity, hsome, hserver, htool⟩ := hok i hi
    obtain ⟨rfl, rfl⟩ := hsame.functional hpre
    refine ⟨i, hi, hsome, fun p hp => ?_⟩
    rw [completes_postValidation, hp] at hpost
    have hallow := ((GovernanceHook.onPostValidation_isOk_iff (c.governance p) e).mp
      ⟨d', hpost.1⟩).2
    have hinput : GovernanceHook.policyInput e =
        callInput (GovernanceHook.caller i) ctx.serverName ctx.toolName := by
      unfold GovernanceHook.policyInput callInput
      rw [hidentity, hserver, htool]
    rwa [hinput] at hallow

/-- A call behind the core hooks reaches an upstream server only if it is admitted, or if the
validation of its token escapes. -/
theorem admits_of_contact (hpipeline : P.pipeline = some c.ordered) {req : Request} {s : σ}
    {e : CallEvent S C} (he : e ∈ (P.callTool req s).events) (hcontact : e.contactsUpstream = true) :
    ∃ server tool config, P.route req.name = .ok (server, tool, config) ∧
      (AdmitsCaller c req.authorization server tool s ∨ Escapes c req.authorization s) := by
  have hP : P.withPipeline c.ordered = P := by
    unfold withPipeline
    rw [← hpipeline]
  cases hroute : P.route req.name with
  | error e' =>
    have hcall := P.callTool_of_not_routed c.ordered hroute s
    rw [hP] at hcall
    rw [hcall] at he
    cases he
  | ok target =>
    obtain ⟨server, tool, config⟩ := target
    refine ⟨server, tool, config, rfl, ?_⟩
    have hextras : (initialContext req server tool config).extras =
        [(.str "authorization", .str req.authorization)] := rfl
    rcases allReturn_or_firstRaise c.ordered hookSequence (initialContext req server tool config) s
      with ⟨d, t, hall⟩ | ⟨entered, e', hraise⟩
    · obtain ⟨d₁, t₁, hpre, hrest⟩ := allReturn_cons.mp hall
      obtain ⟨d₂, t₂, hpost, -⟩ := allReturn_cons.mp hrest
      exact .inl (admits_of_completes hextras rfl hpre hpost)
    · obtain ⟨r, t, -, hdeny, hcall⟩ := P.callTool_of_firstRaise hroute hraise
      rw [hP] at hcall
      -- a denied run ends with its own event
      have hundenied : ¬ (e'.denies = true ∨ entered.policyDecision = .deny) := by
        intro h
        rw [hcall, if_pos (hdeny.mpr h)] at he
        rw [List.mem_singleton.mp he] at hcontact
        cases hcontact
      have hdenies : e'.denies = false := by
        simpa using fun h => hundenied (.inl h)
      cases hraise with
      | here hstops => exact .inr (escapes_of_stops hextras hstops hdenies)
      | later hpre hraise =>
        cases hraise with
        | here hstops =>
          obtain ⟨p, -, hgovernance, -⟩ := stops_postValidation.mp hstops
          rw [governance_denies hgovernance] at hdenies
          cases hdenies
        | later hpost _ => exact .inl (admits_of_completes hextras rfl hpre hpost)

end McpZero.Proxy.ProxyServer

namespace McpZero.Main
open Python Lib Pipeline Governance Identity Plugins Analytics Audit Events Transport Proxy

variable {η σ S C : Type} {parts : Parts η σ} {env : Environment} {r : Running η σ}

/-- Why a call reaches an upstream server: its caller has been authenticated and the policy allows
it, a rule allows it to everyone behind a policy that denies by default, or the validation of the
token has ended with an exception of its own. -/
inductive Admission (parts : Parts η σ) (r : Running η σ) (authorization server tool : String)
    (w : ObservedWorld η σ) : Prop
  | user (config : IdentityArguments) (token : String) (claims : TokenClaims) :
      r.identityRequired = true →
      IdentityHook.bearerToken (ProxyServer.listContext "" authorization) = .ok token →
      ((parts.identityHook config).validateToken token w).1 = .ok claims →
      (∀ p, r.policy = some p → (PolicyEngine.evaluate p
        (ProxyServer.callInput (claims.userId, claims.groups) server tool)).effect = .allow) →
      Admission parts r authorization server tool w
  | anonymous (p : PolicyConfig) (rule : PolicyRule) :
      r.identityRequired = false → r.policy = some p → p.default = .deny → rule ∈ p.policies →
      rule.effect = .allow →
      PolicyEngine.ruleMatches rule (ProxyServer.callInput ("anonymous", []) server tool) =
        .ok true →
      Admission parts r authorization server tool w
  | escaped (config : IdentityArguments) (token : String) (e : Exc) :
      r.identityRequired = true →
      IdentityHook.bearerToken (ProxyServer.listContext "" authorization) = .ok token →
      ((parts.identityHook config).validateToken token w).1 = .error e →
      (IdentityHook.authenticationFailed e).denies = false →
      Admission parts r authorization server tool w

/-- The pipeline of a started gateway is the one of a startup with its policy, and with an identity
hook exactly where identity is required. -/
theorem exists_startup (h : run parts env = .ok r) :
    ∃ identity : Option IdentityArguments, identity.isSome = r.identityRequired ∧
      (startup parts identity r.policy r.analytics).buildPipeline = .ok r.pipeline := by
  obtain ⟨loaded, hbuilt, -⟩ := run_eq_ok.mp h
  have hpipeline := hbuilt.pipeline
  unfold buildPipeline at hpipeline
  rw [bind_eq_ok] at hpipeline
  obtain ⟨config, hconfig, hpipeline⟩ := hpipeline
  rw [bind_eq_ok] at hpipeline
  obtain ⟨built, hbuild, hpipeline⟩ := hpipeline
  rw [bind_eq_ok] at hpipeline
  obtain ⟨_, -, hpipeline⟩ := hpipeline
  rw [pure_eq_ok.mp hpipeline] at hbuild
  refine ⟨config, ?_, ?_⟩
  · rw [pipelineIdentity_isSome hconfig, hbuilt.identityRequired]
  · rw [hbuilt.policy]
    exact hbuild

/-- A policy that denies by default allows a call by a rule. -/
theorem exists_allowRule {p : PolicyConfig} {i : PolicyInput} (hdefault : p.default = .deny)
    (hallow : (PolicyEngine.evaluate p i).effect = .allow) :
    ∃ rule ∈ p.policies, rule.effect = .allow ∧ PolicyEngine.ruleMatches rule i = .ok true := by
  by_cases hraises : ∃ rule ∈ p.policies, ∃ e, PolicyEngine.ruleMatches rule i = .error e
  · rw [PolicyEngine.effect_of_raises hraises] at hallow
    cases hallow
  · obtain ⟨m, hm⟩ := PolicyEngine.exists_matching hraises
    rw [PolicyEngine.effect_eq hm, hdefault] at hallow
    split_ifs at hallow with hdeny hrule
    obtain ⟨rule, hmem, hmatches, heffect⟩ := hrule
    exact ⟨rule, hmem, heffect, by rw [hm rule hmem, hmatches]⟩

def aliceRequest : Request where
  name := "db__query"
  arguments := none
  correlationId := "c1"
  authorization := "Bearer t"

/-- The provider of the variables. -/
def providerArguments : IdentityArguments where
  issuer := .str "https://issuer"
  audience := .str "gateway"

def providerHooks : List (LifecycleHook (ObservedWorld Unit Unit)) :=
  (startup oneUserParts (some providerArguments) none none).coreHooks.ordered

theorem providerHooks_contact :
    ((ProxyServer.textProxy providerHooks).callTool aliceRequest quietWorld).events.any
      CallEvent.contactsUpstream = true := by
  decide +kernel

end McpZero.Main
