import McpZero.Main
import McpZero.Proxy.Routing

/-! The listing shows a tool exactly when the governance hook admits a call of it. The listing
rebuilds the caller and the policy input on its own, for servers with clean names with the
same result. -/
namespace McpZero.Proxy
open Python Lib Pipeline Transport Governance Identity Main

variable {σ S C T : Type}

/-- The hooks at the two validation points of the core pipeline, of which only the identity
hook and the governance hook do anything. -/
theorem completes_preValidation (c : CoreHooks σ) (ctx d : HookContext) (s t : σ) :
    Completes (stagesAt c.ordered .preValidation) ctx s d t ↔
      match c.identity with
      | none => d = ctx ∧ t = s
      | some h => h.onPreValidation ctx s = (.ok d, t) := by
  unfold CoreHooks.ordered stagesAt
  rcases c.identity with _ | i <;> rcases c.policy with _ | p <;> rcases c.analytics with _ | a <;>
    simp [completes_cons, LifecycleHook.method, Observer.toHook, GovernanceHook.toHook,
      IdentityHook.toHook, eq_comm]

theorem completes_postValidation (c : CoreHooks σ) (ctx d : HookContext) (s t : σ) :
    Completes (stagesAt c.ordered .postValidation) ctx s d t ↔
      match c.policy with
      | none => d = ctx ∧ t = s
      | some p => (c.governance p).onPostValidation ctx = .ok d ∧ t = s := by
  unfold CoreHooks.ordered stagesAt
  rcases c.identity with _ | i <;> rcases c.policy with _ | p <;> rcases c.analytics with _ | a <;>
    simp [completes_cons, LifecycleHook.method, Observer.toHook, GovernanceHook.toHook,
      IdentityHook.toHook, eq_comm, and_comm]

namespace ProxyServer

variable (P : ProxyServer σ S C) (L : Listing σ T)

/-- The hooks up to the governance hook, which are those that act at the validation points,
let the call of a routable request pass. -/
def PassesGovernance (req : Request) (s : σ) : Prop :=
  ∃ server tool config, P.route req.name = .ok (server, tool, config) ∧
    ∀ hooks, P.pipeline = some hooks → ∃ d t,
      AllReturn hooks [.preValidation, .postValidation]
        (initialContext req server tool config) s d t

/-- The identity that the identity hook finds for a bearer header, if there is one. -/
def identityOf (c : CoreHooks σ) (authorization : String) (s : σ) : Option (Option UserIdentity) :=
  match c.identity with
  | none => some none
  | some h =>
    match IdentityHook.bearerToken (listContext "" authorization) with
    | .error _ => none
    | .ok token =>
      match (h.validateToken token s).1 with
      | .error _ => none
      | .ok claims => some (some ⟨claims.userId, claims.email, claims.groups⟩)

/-- The identity hook reads nothing of a context but its authorization. -/
theorem onPreValidation_spec {c : CoreHooks σ} {h : IdentityHook σ} (hc : c.identity = some h)
    {ctx : HookContext} {authorization : String}
    (hctx : ctx.extras = [(.str "authorization", .str authorization)]) (s : σ) :
    (∀ i, identityOf c authorization s = some i → ∃ d t, h.onPreValidation ctx s = (.ok d, t) ∧
      d.request.identity = i ∧ i.isSome = true ∧ d.serverName = ctx.serverName ∧
        d.toolName = ctx.toolName) ∧
    (identityOf c authorization s = none → ∃ e t, h.onPreValidation ctx s = (.error e, t)) := by
  have hbearer : IdentityHook.bearerToken ctx =
      IdentityHook.bearerToken (listContext "" authorization) := by
    unfold IdentityHook.bearerToken
    rw [hctx]
    rfl
  unfold identityOf IdentityHook.onPreValidation
  rw [hc, hbearer]
  dsimp only
  cases htoken : IdentityHook.bearerToken (listContext "" authorization) with
  | error e => simp
  | ok token =>
    rcases hvalid : h.validateToken token s with ⟨_ | claims, t⟩
    · simp [hvalid]
    · simp [hvalid, IdentityHook.enrich]

/-- What the first validation point does to a context without identity. -/
theorem preValidation_spec (c : CoreHooks σ) (ctx : HookContext) {authorization : String}
    (hctx : ctx.extras = [(.str "authorization", .str authorization)])
    (hanonymous : ctx.request.identity = none) (s : σ) :
    (∀ i, identityOf c authorization s = some i →
      ∃ d t, Completes (stagesAt c.ordered .preValidation) ctx s d t ∧
        d.request.identity = i ∧ (c.identity.isSome = true → i.isSome = true) ∧
        d.serverName = ctx.serverName ∧ d.toolName = ctx.toolName) ∧
    (identityOf c authorization s = none →
      ∃ e t, Stops (stagesAt c.ordered .preValidation) ctx s e t) := by
  cases hc : c.identity with
  | none =>
    have hsome : identityOf c authorization s = some none := by
      unfold identityOf
      rw [hc]
    constructor
    · intro i hi
      rw [hsome] at hi
      cases hi
      refine ⟨ctx, s, ?_, hanonymous, by simp, rfl, rfl⟩
      rw [completes_preValidation, hc]
      exact ⟨rfl, rfl⟩
    · intro hi
      rw [hsome] at hi
      cases hi
  | some h =>
    obtain ⟨hok, herror⟩ := onPreValidation_spec hc hctx s
    constructor
    · intro i hi
      obtain ⟨d, t, hrun, hidentity, hsome, hserver, htool⟩ := hok i hi
      refine ⟨d, t, ?_, hidentity, fun _ => hsome, hserver, htool⟩
      rw [completes_preValidation, hc]
      exact hrun
    · intro hi
      obtain ⟨e, t, hrun⟩ := herror hi
      have hnot : ∀ d u, ¬ Completes (stagesAt c.ordered .preValidation) ctx s d u := by
        intro d u hcompletes
        rw [completes_preValidation, hc] at hcompletes
        dsimp only at hcompletes
        rw [hrun] at hcompletes
        cases hcompletes
      rcases completes_or_stops (stagesAt c.ordered .preValidation) ctx s with
        ⟨d, u, hcompletes⟩ | hstops
      · exact absurd hcompletes (hnot d u)
      · exact hstops

/-- The listing authenticates the caller as the identity hook does. -/
theorem authenticate_eq {c : CoreHooks σ} (hpipeline : c.buildPipeline = .ok P.pipeline)
    (correlationId authorization : String) (s : σ) :
    (P.authenticate correlationId authorization s).1 = identityOf c authorization s := by
  rw [CoreHooks.buildPipeline_eq] at hpipeline
  have hp := Except.ok.inj hpipeline
  unfold authenticate
  rw [← hp]
  split_ifs with hnone
  · have hidentity : c.identity = none := by simpa using (Bool.and_eq_true_iff.mp hnone).1
    unfold identityOf
    rw [hidentity]
  · obtain ⟨hok, herror⟩ := preValidation_spec c (listContext correlationId authorization)
      rfl rfl s
    dsimp only
    cases hi : identityOf c authorization s with
    | some i =>
      obtain ⟨d, t, hcompletes, hidentity, -⟩ := hok i hi
      obtain ⟨ex, hrun⟩ := executeHookPoint_of_completes hcompletes []
      rw [hrun]
      exact congrArg some hidentity
    | none =>
      obtain ⟨e, t, hstops⟩ := herror hi
      obtain ⟨_, _, _, hrun⟩ := executeHookPoint_of_stops hstops []
      rw [hrun]

/-- A routable call passes the governance hook exactly when the policy, if there is one,
allows it to the authenticated caller. -/
theorem passesGovernance_iff {c : CoreHooks σ} (hpipeline : c.buildPipeline = .ok P.pipeline)
    {req : Request} {server tool : String} {config : ServerConfig} {s : σ}
    {i : Option UserIdentity} (hroute : P.route req.name = .ok (server, tool, config))
    (hidentity : identityOf c req.authorization s = some i) :
    P.PassesGovernance req s ↔ ∀ p, c.policy = some p →
      (PolicyEngine.evaluate p { userId := (GovernanceHook.caller i).1
                                 groups := (GovernanceHook.caller i).2
                                 mcpServer := server
                                 tool := tool }).effect = .allow := by
  have hroutes : P.PassesGovernance req s ↔ ∀ hooks, P.pipeline = some hooks → ∃ d t,
      AllReturn hooks [.preValidation, .postValidation]
        (initialContext req server tool config) s d t := by
    unfold PassesGovernance
    rw [hroute]
    constructor
    · intro h
      obtain ⟨_, _, _, heq, hpass⟩ := h
      cases heq
      exact hpass
    · intro hpass
      exact ⟨server, tool, config, rfl, hpass⟩
  rw [hroutes]
  rw [CoreHooks.buildPipeline_eq] at hpipeline
  rw [← Except.ok.inj hpipeline]
  split_ifs with hnone
  · have hpolicy : c.policy = none := by simpa using (Bool.and_eq_true_iff.mp hnone).2
    simp [hpolicy]
  · obtain ⟨d, t, hpre, hd, hsome, hserver, htool⟩ :=
      (preValidation_spec c (initialContext req server tool config) rfl rfl s).1 i hidentity
    have hpost : (∃ d' t', AllReturn c.ordered [.preValidation, .postValidation]
        (initialContext req server tool config) s d' t') ↔
        ∃ d' t', Completes (stagesAt c.ordered .postValidation) d t d' t' := by
      simp only [allReturn_cons, allReturn_nil]
      constructor
      · intro h
        obtain ⟨d', t', e, u, hpre', f, v, hpost, rfl, rfl⟩ := h
        obtain ⟨rfl, rfl⟩ := hpre.functional hpre'
        exact ⟨_, _, hpost⟩
      · intro h
        obtain ⟨d', t', hpost⟩ := h
        exact ⟨d', t', d, t, hpre, d', t', hpost, rfl, rfl⟩
    simp only [Option.some.injEq, forall_eq', hpost, completes_postValidation]
    cases hpolicy : c.policy with
    | none => simp
    | some p =>
      have hinput : GovernanceHook.policyInput d =
          { userId := (GovernanceHook.caller i).1, groups := (GovernanceHook.caller i).2,
            mcpServer := server, tool := tool } := by
        unfold GovernanceHook.policyInput
        rw [hd, hserver, htool]
        rfl
      have hrequired : d.request.identity = none → (c.governance p).identityRequired = false := by
        intro hnoidentity
        rw [hd] at hnoidentity
        cases hc : c.identity.isSome with
        | false => exact hc
        | true =>
          have habsurd := hsome hc
          rw [hnoidentity] at habsurd
          cases habsurd
      have hgovernance := GovernanceHook.onPostValidation_isOk_iff (c.governance p) d
      rw [hinput] at hgovernance
      simp only [exists_and_left, Option.some.injEq, forall_eq']
      constructor
      · intro h
        exact (hgovernance.mp (by simpa using h)).2
      · intro h
        simpa using hgovernance.mpr ⟨hrequired, h⟩

/-- A fetched tool is listed exactly when a call of its namespaced name by the same caller
passes the governance hook. The caller is the same when the validator judges every token
alike at the listing and at the call. -/
theorem mem_listTools_iff (c : CoreHooks σ) (hpipeline : c.buildPipeline = .ok P.pipeline)
    (hengine : L.policyEngine = c.policy)
    (hclean : ∀ config ∈ P.configs,
      ∃ name, config.name = .str name ∧ name ≠ "" ∧ CleanName name)
    (correlationId : String) (req : Request) (s s' : σ)
    (hsame : ∀ h, c.identity = some h →
      ∀ token, (h.validateToken token s').1 = (h.validateToken token s).1)
    (hauth : (P.authenticate correlationId req.authorization s).1 ≠ none)
    (server : Scalar) (hserver : server ∈ P.configs.map (·.name)) (tool : Tool T)
    (htool : tool.name ≠ "") (hname : req.name = namespaceTool server tool.name)
    (hfetched : { tool with name := req.name } ∈
      (fetchAllTools L P.serverNames (P.authenticate correlationId req.authorization s).2).1) :
    { tool with name := req.name } ∈ (P.listTools L correlationId req.authorization s).1 ↔
      P.PassesGovernance req s' := by
  obtain ⟨c₀, hc₀, rfl⟩ := List.mem_map.mp hserver
  obtain ⟨name, hstr, hnonempty, hcleanName⟩ := hclean c₀ hc₀
  have hparse : parseTool req.name = .ok (name, tool.name) := by
    rw [hname, hstr]
    exact (parseTool_namespaceTool_iff name tool.name hnonempty htool).mpr hcleanName
  have hmem : .str name ∈ P.configs.map (·.name) := hstr ▸ hserver
  obtain ⟨config, -, -, hconfig⟩ := exists_getConfig P hmem
  have hroute : P.route req.name = .ok (name, tool.name, config) := by
    unfold route
    rw [hparse]
    simp only [bind, Except.bind, hconfig]
    rfl
  have hidentity := P.authenticate_eq hpipeline correlationId req.authorization s
  have hidentity' : identityOf c req.authorization s' = identityOf c req.authorization s := by
    unfold identityOf
    cases hc : c.identity with
    | none => rfl
    | some h =>
      dsimp only
      simp only [hsame h hc]
  rcases hrun : P.authenticate correlationId req.authorization s with ⟨_ | i, t⟩
  · rw [hrun] at hauth
    exact absurd rfl hauth
  · rw [hrun] at hidentity hfetched
    rw [P.passesGovernance_iff hpipeline hroute (hidentity'.trans hidentity.symm)]
    unfold listTools
    rw [hrun]
    dsimp only at hfetched ⊢
    rw [hengine]
    cases c.policy with
    | none => simpa using hfetched
    | some p =>
      have hinput := listedInput_of_parseTool (GovernanceHook.caller i) hparse
      have hvisible : visible p (GovernanceHook.caller i) { tool with name := req.name } = true ↔
          (PolicyEngine.evaluate p { userId := (GovernanceHook.caller i).1
                                     groups := (GovernanceHook.caller i).2
                                     mcpServer := name
                                     tool := tool.name }).effect = .allow := by
        unfold visible
        rw [hinput]
        simp
      dsimp only
      rw [List.mem_filter, hvisible]
      simp [hfetched]

def noDrops : PolicyRule where
  id := .str "no-drops"
  description := .str "Interns drop nothing"
  effect := .deny
  subjects := { groups := .list [.str "interns"] }
  mcpServers := [{ name := .str "db", tools := .list [.str "drop_*"] }]

def internPolicy : PolicyConfig where
  version := .int 1
  default := .allow
  identity := none
  servers := []
  policies := [noDrops]
  logging := {}
  masking := {}
  analytics := none
  cors := none
  plugins := []

/-- A validator that knows one token. -/
def internIdentity : IdentityHook Unit where
  validateToken token s :=
    (if token == "t1" then .ok { userId := "ada", groups := ["interns"] }
      else .error (.identity "TokenValidationError" "unknown token"), s)

def internHooks : CoreHooks Unit where
  identity := some internIdentity
  policy := some internPolicy
  analytics := none
  audit := { name := "AuditHook", onPreAudit := fun ctx s => (.ok ctx, s),
             onError := fun _ _ s => (.ok (), s) }

def internProxy : ProxyServer Unit Unit String := textProxy internHooks.ordered

/-- One server with two tools. -/
def internListing : Listing Unit Unit where
  listUpstream _ s :=
    (.ok [{ name := "query", details := () }, { name := "drop_table", details := () }], s)
  policyEngine := some internPolicy

/-- A call by the intern. -/
def internRequest (name : String) : Request where
  name := name
  arguments := none
  correlationId := "c1"
  authorization := "Bearer t1"

/-- The intern sees one of the two tools, and may call it. -/
theorem internProxy_lists :
    ((internProxy.listTools internListing "c0" "Bearer t1" ()).1.map (·.name) = ["db__query"]) ∧
    ({ name := "db__query", details := () } ∈
        (internProxy.listTools internListing "c0" "Bearer t1" ()).1 ↔
      internProxy.PassesGovernance (internRequest "db__query") ()) ∧
    ({ name := "db__drop_table", details := () } ∈
        (internProxy.listTools internListing "c0" "Bearer t1" ()).1 ↔
      internProxy.PassesGovernance (internRequest "db__drop_table") ()) := by
  have hclean : ∀ config ∈ internProxy.configs,
      ∃ name, config.name = .str name ∧ name ≠ "" ∧ CleanName name := by
    intro config hconfig
    rw [List.mem_singleton.mp hconfig]
    exact ⟨"db", rfl, by decide, by decide⟩
  refine ⟨rfl, ?_, ?_⟩
  · exact internProxy.mem_listTools_iff internListing internHooks internHooks.buildPipeline_eq rfl
      hclean "c0" (internRequest "db__query") () () (fun _ _ _ => rfl) nofun (.str "db") (.head _)
      { name := "query", details := () } (by decide) rfl (.head _)
  · exact internProxy.mem_listTools_iff internListing internHooks internHooks.buildPipeline_eq rfl
      hclean "c0" (internRequest "db__drop_table") () () (fun _ _ _ => rfl) nofun (.str "db")
      (.head _) { name := "drop_table", details := () } (by decide) rfl (.tail _ (.head _))

end ProxyServer

end McpZero.Proxy
