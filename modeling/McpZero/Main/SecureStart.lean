import McpZero.Gateway.Machine
import McpZero.Lib.Except
import McpZero.Main.MaskingSection
import McpZero.Main.Run

/-! Which gateways are started. The guards change nothing of what is started: they let through
exactly what is safe in the environment. -/
namespace McpZero.Main
open Python Lib Pipeline Governance Identity Plugins Analytics Audit Events Transport

section Outcomes

variable {α : Type}

theorem unguarded_eq_ok {r : Except Exc α} {a : α} : unguarded r = .ok a ↔ r = .ok a :=
  map_error_eq_ok

theorem refusing_eq_ok {r : Except LoadError α} {a : α} : refusing r = .ok a ↔ r = .ok a :=
  map_error_eq_ok

theorem require_eq_ok {ok : Bool} {r : Refusal} {u : Unit} : require ok r = .ok u ↔ ok = true := by
  unfold require
  cases ok <;> simp

end Outcomes

variable {η σ : Type} {parts : Parts η σ} {env : Environment}

/-- The gateway is safe to start in this environment. -/
structure Running.Secure (env : Environment) (r : Running η σ) : Prop where
  enforcing : isStrictSecurity env = true → r.identityRequired = true ∧ r.policy ≠ none
  controlled : relaxStartupChecks env = false → r.identityRequired = true ∨ r.policy ≠ none
  complete : relaxStartupChecks env = false → ∀ p, r.policy = some p → p.identity = none →
    issuerSet env = true → audienceSet env = true
  closed : relaxStartupChecks env = false → ∀ p, r.policy = some p → p.default = .allow →
    r.identityRequired = true
  authenticated : relaxStartupChecks env = false → ∀ c ∈ r.configs,
    c.tokenExchange.truthy = true → r.identityRequired = true


theorem pipelineIdentity_isSome {identity config : Option IdentityArguments}
    (h : pipelineIdentity env identity = .ok config) :
    config.isSome = identityEnabled env identity := by
  unfold pipelineIdentity at h
  unfold identityEnabled
  cases identity with
  | some c =>
    rw [← Except.ok.inj h]
    rfl
  | none =>
    dsimp only at h
    split_ifs at h with hset
    · simp only [bind_eq_ok, pure_eq_ok] at h
      obtain ⟨c, -, rfl⟩ := h
      simp [hset]
    · obtain rfl := Except.ok.inj h
      simpa using hset

/-- There is a pipeline exactly where there is an identity provider or a policy. -/
theorem Startup.buildPipeline_isSome {s : Startup η σ}
    {pipeline : Option (List (LifecycleHook (ObservedWorld η σ)))}
    (h : s.buildPipeline = .ok pipeline) :
    pipeline.isSome = (s.identity.isSome || s.policy.isSome) := by
  unfold Startup.buildPipeline at h
  rw [bind_eq_ok] at h
  obtain ⟨r, -, h⟩ := h
  split_ifs at h with hnone
  · obtain rfl := pure_eq_ok.mp h
    cases hi : s.identity <;> cases hp : s.policy <;> simp_all
  · rw [bind_eq_ok] at h
    obtain ⟨hooks, -, h⟩ := h
    obtain rfl := pure_eq_ok.mp h
    cases hi : s.identity <;> cases hp : s.policy <;> simp_all

theorem buildPipeline_isSome {identity : Option IdentityArguments} {policy : Option PolicyConfig}
    {analytics : Option AnalyticsConfig}
    {pipeline : Option (List (LifecycleHook (ObservedWorld η σ)))}
    (h : buildPipeline parts env identity policy analytics = .ok pipeline) :
    pipeline.isSome = (identityEnabled env identity || policy.isSome) := by
  unfold buildPipeline at h
  rw [bind_eq_ok] at h
  obtain ⟨config, hconfig, h⟩ := h
  rw [bind_eq_ok] at h
  obtain ⟨built, hbuild, h⟩ := h
  rw [bind_eq_ok] at h
  obtain ⟨_, -, h⟩ := h
  obtain rfl := pure_eq_ok.mp h
  rw [Startup.buildPipeline_isSome hbuild, ← pipelineIdentity_isSome hconfig]
  simp [startup]

/-- What goes into a gateway, when every part of it is built. -/
structure Built (parts : Parts η σ) (env : Environment) (loaded : Loaded) (r : Running η σ) :
    Prop where
  level : setLevel (.str (env.getD "LOG_LEVEL" "INFO")) = .ok ()
  loads : loadPolicyAndConfigs parts.parsers parts.disk env = .ok loaded
  policyLevel : (loaded.policy.elim (.ok ()) fun p => setLevel p.logging.level) = .ok ()
  analytics : buildAnalyticsConfig env loaded.policy = .ok r.analytics
  pipeline : buildPipeline parts env loaded.identity loaded.policy r.analytics = .ok r.pipeline
  exchange : exchangeProvider env loaded.configs = .ok r.exchange
  cors : buildCorsConfig env loaded.policy = .ok r.cors
  middleware : r.cors.elim (.ok ()) parts.corsMiddleware = .ok ()
  port : Value.toInt (.str (env.getD "MCP_PORT" "8080")) = .ok r.port
  configs : r.configs = loaded.configs
  policy : r.policy = loaded.policy
  identityRequired : r.identityRequired = identityEnabled env loaded.identity
  sseEnabled : r.sseEnabled = env.envBool "MCP_SSE_ENABLED" (.bool true)
  host : r.host = env.getD "MCP_HOST" "0.0.0.0"

/-- The guards of `run`, in its order. -/
structure Passes (env : Environment) (loaded : Loaded) (pipeline : Bool) : Prop where
  unprotected : (pipeline || relaxStartupChecks env) = true
  audience : (!(loaded.policy.isSome && loaded.identity.isNone && issuerSet env &&
    !audienceSet env && !relaxStartupChecks env)) = true
  strict : (!isStrictSecurity env ||
    (identityEnabled env loaded.identity && loaded.policy.isSome)) = true
  anonymous : (!(loaded.policy.any (·.default == .allow) && !identityEnabled env loaded.identity &&
    !relaxStartupChecks env)) = true
  exchange : ((oboServers loaded.configs).isEmpty || identityEnabled env loaded.identity ||
    relaxStartupChecks env) = true

theorem assemble_eq_ok {r : Running η σ} :
    assemble parts env = .ok r ↔ ∃ loaded, Built parts env loaded r := by
  unfold assemble
  simp only [bind_eq_ok, Loader.escaping_eq_ok, pure_eq_ok]
  constructor
  · intro h
    obtain ⟨_, hlevel, loaded, hloads, _, hpolicy, analytics, hanalytics, pipeline, hpipeline,
      exchange, hexchange, cors, hcors, _, hmiddleware, port, hport, rfl⟩ := h
    exact ⟨loaded, hlevel, hloads, hpolicy, hanalytics, hpipeline, hexchange, hcors, hmiddleware,
      hport, rfl, rfl, rfl, rfl, rfl⟩
  · intro h
    obtain ⟨loaded, h⟩ := h
    refine ⟨(), h.level, loaded, h.loads, (), h.policyLevel, _, h.analytics, _, h.pipeline, _,
      h.exchange, _, h.cors, (), h.middleware, _, h.port, ?_⟩
    rw [← h.configs, ← h.policy, ← h.identityRequired, ← h.sseEnabled, ← h.host]

theorem run_eq_ok {r : Running η σ} : run parts env = .ok r ↔
    ∃ loaded, Built parts env loaded r ∧ Passes env loaded r.pipeline.isSome := by
  unfold run buildOboProvider
  simp only [bind_eq_ok, unguarded_eq_ok, refusing_eq_ok, require_eq_ok, pure_eq_ok]
  constructor
  · intro h
    obtain ⟨_, hlevel, loaded, hloads, _, hpolicy, analytics, hanalytics, pipeline, hpipeline,
      _, hunprotected, _, haudience, _, hstrict, _, hanonymous, exchange, ⟨_, hservers, hexchange⟩,
      cors, hcors, _, hmiddleware, port, hport, rfl⟩ := h
    exact ⟨loaded, ⟨hlevel, hloads, hpolicy, hanalytics, hpipeline, hexchange, hcors, hmiddleware,
      hport, rfl, rfl, rfl, rfl, rfl⟩, hunprotected, haudience, hstrict, hanonymous, hservers⟩
  · intro h
    obtain ⟨loaded, h, hpass⟩ := h
    refine ⟨(), h.level, loaded, h.loads, (), h.policyLevel, _, h.analytics, _, h.pipeline,
      (), hpass.unprotected, (), hpass.audience, (), hpass.strict, (), hpass.anonymous, _,
      ⟨(), hpass.exchange, h.exchange⟩, _, h.cors, (), h.middleware, _, h.port, ?_⟩
    rw [← h.configs, ← h.policy, ← h.identityRequired, ← h.sseEnabled, ← h.host]

/-- The identity provider of the loaded configuration is the one of its policy. -/
theorem loadPolicyAndConfigs_identity {parsers : Parsers} {disk : String → FileContent}
    {loaded : Loaded} (h : loadPolicyAndConfigs parsers disk env = .ok loaded) :
    loaded.identity.isNone = true ↔ ∀ p, loaded.policy = some p → p.identity = none := by
  unfold loadPolicyAndConfigs at h
  dsimp only at h
  split_ifs at h
  · simp only [bind_eq_ok, pure_eq_ok] at h
    obtain ⟨configs, -, rfl⟩ := h
    simp
  · simp only [bind_eq_ok, pure_eq_ok, Loader.escaping_eq_ok] at h
    obtain ⟨policy, -, configs, -, identity, hidentity, rfl⟩ := h
    unfold convertToIdentityConfig at hidentity
    cases hp : policy.identity with
    | none =>
      rw [hp] at hidentity
      obtain rfl := Except.ok.inj hidentity
      simp [hp]
    | some provider =>
      rw [hp] at hidentity
      simp only [bind_eq_ok, pure_eq_ok] at hidentity
      obtain ⟨_, -, _, -, _, -, config, -, rfl⟩ := hidentity
      simp [hp]

/-- The guards let a gateway through exactly when it is safe in its environment. -/
theorem Built.passes_iff {loaded : Loaded} {r : Running η σ} (h : Built parts env loaded r) :
    Passes env loaded r.pipeline.isSome ↔ r.Secure env := by
  have hpipeline : r.pipeline.isSome = (r.identityRequired || r.policy.isSome) := by
    rw [buildPipeline_isSome h.pipeline, h.identityRequired, h.policy]
  have hidentity : loaded.identity.isNone = true ↔ ∀ p, r.policy = some p → p.identity = none := by
    rw [h.policy]
    exact loadPolicyAndConfigs_identity h.loads
  have hservers : (oboServers loaded.configs).isEmpty = true ↔
      ∀ c ∈ r.configs, c.tokenExchange.truthy = false := by
    rw [h.configs, List.isEmpty_iff, oboServers, List.filter_eq_nil_iff]
    simp
  constructor
  · intro hpass
    obtain ⟨hunprotected, haudience, hstrict, hanonymous, hexchange⟩ := hpass
    rw [hpipeline] at hunprotected
    rw [← h.identityRequired, ← h.policy] at hstrict hanonymous
    rw [← h.identityRequired] at hexchange
    rw [← h.policy] at haudience
    refine ⟨fun hs => ?_, fun hr => ?_, fun hr p hp hnone hissuer => ?_, fun hr p hp hallow => ?_,
      fun hr c hc htoken => ?_⟩
    · rw [hs] at hstrict
      simpa [Option.isSome_iff_ne_none] using hstrict
    · rw [hr] at hunprotected
      simpa [Option.isSome_iff_ne_none] using hunprotected
    · have hnoidentity : loaded.identity.isNone = true := by
        refine hidentity.mpr fun q hq => ?_
        rw [hp] at hq
        rwa [← Option.some.inj hq]
      rw [hr, hp, hnoidentity, hissuer] at haudience
      simpa using haudience
    · rw [hr, hp] at hanonymous
      simpa [hallow] using hanonymous
    · have hsome : (oboServers loaded.configs).isEmpty = false := by
        rw [← Bool.not_eq_true, hservers]
        intro hall
        rw [hall c hc] at htoken
        cases htoken
      rw [hr, hsome] at hexchange
      simpa using hexchange
  · intro hsecure
    constructor
    · rw [hpipeline]
      cases hr : relaxStartupChecks env with
      | true => simp
      | false => simpa [Option.isSome_iff_ne_none] using hsecure.controlled hr
    · cases hr : relaxStartupChecks env with
      | true => simp
      | false =>
        by_cases hpartial : loaded.identity.isNone = true ∧ issuerSet env = true
        · cases hp : loaded.policy with
          | none => simp
          | some p =>
            have hpolicy : r.policy = some p := h.policy.trans hp
            have haudience := hsecure.complete hr p hpolicy
              (hidentity.mp hpartial.1 p hpolicy) hpartial.2
            simp [haudience]
        · rcases not_and_or.mp hpartial with hnot | hnot
          · simp [Bool.not_eq_true _ ▸ hnot]
          · simp [Bool.not_eq_true _ ▸ hnot]
    · rw [← h.identityRequired, ← h.policy]
      cases hs : isStrictSecurity env with
      | false => simp
      | true => simpa [Option.isSome_iff_ne_none] using hsecure.enforcing hs
    · rw [← h.identityRequired, ← h.policy]
      cases hr : relaxStartupChecks env with
      | true => simp
      | false =>
        cases hp : r.policy with
        | none => simp
        | some p =>
          by_cases hallow : p.default = .allow
          · simp [hsecure.closed hr p hp hallow]
          · simp [hallow]
    · rw [← h.identityRequired]
      cases hr : relaxStartupChecks env with
      | true => simp
      | false =>
        cases hi : r.identityRequired with
        | true => simp
        | false =>
          have hnone : ∀ c ∈ r.configs, c.tokenExchange.truthy = false := by
            intro c hc
            by_contra htoken
            have hrequired := hsecure.authenticated hr c hc (by simpa using htoken)
            rw [hi] at hrequired
            cases hrequired
          simp [hservers.mpr hnone]

/-- `run` starts a gateway exactly when all of its parts are built and it is safe in its
environment; the guards change nothing of it. -/
theorem run_starts_iff {r : Running η σ} :
    run parts env = .ok r ↔ assemble parts env = .ok r ∧ r.Secure env := by
  rw [run_eq_ok, assemble_eq_ok]
  constructor
  · intro h
    obtain ⟨loaded, hbuilt, hpass⟩ := h
    exact ⟨⟨loaded, hbuilt⟩, hbuilt.passes_iff.mp hpass⟩
  · intro h
    obtain ⟨⟨loaded, hbuilt⟩, hsecure⟩ := h
    exact ⟨loaded, hbuilt, hbuilt.passes_iff.mpr hsecure⟩

/-- What holds of the configuration of a gateway, wherever its settings come from. -/
structure Running.Sound (env : Environment) (r : Running η σ) : Prop where
  servers : ∀ c ∈ r.configs, c.Sound
  exchanges : ∀ x, r.exchange = some x → x.servers ≠ [] ∧
    (skipTlsValidation env = false → IsHttps (.str x.tokenEndpoint)) ∧
      ∀ c, c ∈ x.servers ↔ c ∈ r.configs ∧ c.tokenExchange.truthy = true
  origins : ∀ c, r.cors = some c → c.allowOrigins.truthy = true ∧ 0 ≤ c.maxAge ∧
    (c.allowOrigins.hasStr "*" = .ok true → c.allowCredentials.truthy = false)

theorem loadPolicyAndConfigs_sound {parsers : Parsers} {disk : String → FileContent}
    {loaded : Loaded} (h : loadPolicyAndConfigs parsers disk env = .ok loaded) :
    ∀ c ∈ loaded.configs, c.Sound := by
  unfold loadPolicyAndConfigs at h
  dsimp only at h
  split_ifs at h
  · simp only [bind_eq_ok, pure_eq_ok, Loader.escaping_eq_ok] at h
    obtain ⟨configs, hconfigs, rfl⟩ := h
    unfold loadServerConfigs at hconfigs
    dsimp only at hconfigs
    split_ifs at hconfigs
    · obtain rfl := Except.ok.inj hconfigs
      simp
    · simp only [bind_eq_ok, pure_eq_ok] at hconfigs
      obtain ⟨config, hconfig, rfl⟩ := hconfigs
      intro c hc
      rw [List.mem_singleton.mp hc]
      exact ServerArguments.postInit_sound hconfig
  · simp only [bind_eq_ok, pure_eq_ok, Loader.escaping_eq_ok] at h
    obtain ⟨policy, -, configs, hconfigs, identity, -, rfl⟩ := h
    exact convertToServerConfigs_sound hconfigs

theorem exchangeProvider_servers {configs : List ServerArguments} {x : ExchangeProvider}
    (h : exchangeProvider env configs = .ok (some x)) :
    x.servers = (oboServers configs).filter (·.targetAudience.truthy) ∧ x.servers ≠ [] ∧
      checkTokenEndpoint env x.tokenEndpoint = .ok () := by
  unfold exchangeProvider at h
  dsimp only at h
  split_ifs at h with hvariables hempty
  · cases h
  · cases h
  · simp only [bind_eq_ok, pure_eq_ok, Option.some.injEq] at h
    obtain ⟨_, hendpoint, rfl⟩ := h
    exact ⟨rfl, hempty, hendpoint⟩

theorem corsPostInit_eq_ok {c d : CorsConfig} (h : c.postInit = .ok d) :
    d.allowOrigins.truthy = true ∧ 0 ≤ d.maxAge ∧
      (d.allowOrigins.hasStr "*" = .ok true → d.allowCredentials.truthy = false) := by
  unfold CorsConfig.postInit at h
  cases horigins : c.allowOrigins.truthy with
  | false => simp [horigins, bind, Except.bind, throw, throwThe, MonadExceptOf.throw] at h
  | true =>
    cases hstar : c.allowOrigins.hasStr "*" with
    | error e => simp [horigins, hstar, bind, Except.bind] at h
    | ok everyOrigin =>
      cases hcredentials : everyOrigin && c.allowCredentials.truthy with
      | true =>
        simp [horigins, hstar, hcredentials, bind, Except.bind, throw, throwThe,
          MonadExceptOf.throw] at h
      | false =>
        by_cases hage : c.maxAge < 0
        · simp [horigins, hstar, hcredentials, hage, bind, Except.bind, throw, throwThe,
            MonadExceptOf.throw] at h
        · simp [horigins, hstar, hcredentials, hage, bind, Except.bind, pure, Except.pure] at h
          subst h
          refine ⟨horigins, not_lt.mp hage, fun hevery => ?_⟩
          rw [hstar] at hevery
          rw [Except.ok.inj hevery] at hcredentials
          simpa using hcredentials

theorem configs_sound {r : Running η σ} (h : run parts env = .ok r) : ∀ c ∈ r.configs, c.Sound := by
  obtain ⟨loaded, hbuilt, -⟩ := run_eq_ok.mp h
  rw [hbuilt.configs]
  exact loadPolicyAndConfigs_sound hbuilt.loads

/-- The servers of a started gateway are ones that the gateway machine can run on. -/
theorem exists_servers {r : Running η σ} (h : run parts env = .ok r) {configs : List ServerConfig}
    {accepts : Value → List Value → Dict → Bool}
    (htyped : r.configs.mapM (·.config? accepts) = some configs) :
    ∃ servers : Servers, servers.configs = configs := by
  refine ⟨⟨configs, fun config hconfig hexchange => ?_⟩, rfl⟩
  obtain ⟨c, hc, htype⟩ := exists_left_of_forall₂ (forall₂_of_mapM_eq_some htyped) hconfig
  exact (configs_sound h c hc).exchange_of_config? htype hexchange

/-- The configuration of every gateway that is started is sound. -/
theorem run_sound {r : Running η σ} (h : run parts env = .ok r) : r.Sound env := by
  obtain ⟨loaded, hbuilt, -⟩ := run_eq_ok.mp h
  have hservers := configs_sound h
  refine ⟨hservers, fun x hx => ?_, fun c hc => ?_⟩
  · have hexchange := hbuilt.exchange
    rw [hx, ← hbuilt.configs] at hexchange
    obtain ⟨hall, hne, hendpoint⟩ := exchangeProvider_servers hexchange
    refine ⟨hne, fun hstrict => ?_, fun c => ?_⟩
    · unfold checkTokenEndpoint at hendpoint
      rw [hstrict] at hendpoint
      exact requireHttps_eq_ok.mp hendpoint
    · rw [hall, oboServers, List.mem_filter, List.mem_filter]
      constructor
      · intro hmem
        exact hmem.1
      · intro hmem
        exact ⟨hmem, ((hservers c hmem.1).exchange hmem.2).2⟩
  · have hcors := hbuilt.cors
    rw [hc] at hcors
    unfold buildCorsConfig at hcors
    dsimp only at hcors
    split_ifs at hcors with hnone
    · cases hcors
    all_goals
      rw [bind_eq_ok] at hcors
      obtain ⟨_, -, hcors⟩ := hcors
      rw [bind_eq_ok] at hcors
      obtain ⟨config, hconfig, hsome⟩ := hcors
      obtain rfl := Option.some.inj (pure_eq_ok.mp hsome)
      exact corsPostInit_eq_ok hconfig

/-- One server behind an identity provider, both named by variables. -/
def providerEnvironment : Environment where
  get name :=
    if name = "MCP_UPSTREAM_URL" then some "https://db"
    else if name = "OKTA_ISSUER" then some "https://issuer"
    else if name = "OKTA_AUDIENCE" then some "gateway"
    else none

/-- A provider that knows one user. -/
def oneUserParts : Parts Unit Unit where
  parsers := { yaml := fun _ => .ok .none, json := fun _ => .ok .none, decodeError := fun _ => "" }
  disk _ := .missing
  identityHook _ := { validateToken := fun _ w => (.ok { userId := "alice" }, w) }
  analyticsHook _ := { unicode := .ascii, monotonic := fun _ => 0 }
  auditHook _ := { monotonic := fun _ => 0, now := fun _ => "", reprFloat := fun _ => "0.0" }
  corsMiddleware _ := .ok ()
  available := []

/-- A policy with a server that exchanges tokens and an origin of its own. -/
def exchangingPolicy : Value :=
  .dict [(.str "version", .int 1),
    (.str "identity", .dict [(.str "provider", .str "okta"),
      (.str "issuer", .str "https://issuer"), (.str "audience", .str "gateway")]),
    (.str "servers", .list [.dict [(.str "name", .str "issues"), (.str "transport", .str "http"),
      (.str "url", .str "https://issues"), (.str "token_exchange", .bool true),
      (.str "target_audience", .str "api://issues")]]),
    (.str "cors", .dict [(.str "allow_origins", .list [.str "https://app"])])]

def exchangingParts : Parts Unit Unit :=
  { oneUserParts with
    parsers := { yaml := fun _ => .ok exchangingPolicy, json := fun _ => .ok .none,
                 decodeError := fun _ => "" }
    disk := fun _ => .bytes ⟨#[]⟩ }

/-- The environment has the credentials of the exchange, and an origin of its own. -/
def exchangingEnvironment : Environment where
  get name :=
    if name = "MCP_POLICY_FILE" then some "/etc/policy.yaml"
    else if name = "OKTA_TOKEN_ENDPOINT" then some "https://issuer/token"
    else if name = "OKTA_CLIENT_ID" then some "gateway"
    else if name = "OKTA_CLIENT_SECRET" then some "secret"
    else if name = "MCP_CORS_ORIGINS" then some "https://console"
    else none

theorem exchanging_sound : ∃ r, run exchangingParts exchangingEnvironment = .ok r ∧
    r.exchange.isSome = true ∧ r.cors.isSome = true ∧ r.Sound exchangingEnvironment := by
  obtain ⟨r, hrun, hexchange, hcors⟩ : ∃ r, run exchangingParts exchangingEnvironment = .ok r ∧
      r.exchange.isSome = true ∧ r.cors.isSome = true := ⟨_, rfl, rfl, rfl⟩
  exact ⟨r, hrun, hexchange, hcors, run_sound hrun⟩

end McpZero.Main
