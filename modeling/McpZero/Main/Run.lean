import McpZero.Main.Settings
import McpZero.Main.Startup

/-! `run`: what the gateway is started with, and when it refuses to start. -/
namespace McpZero.Main
open Python Lib Pipeline Governance Identity Plugins Analytics Audit Events Transport

/-- What the process finds outside its environment: the disk with its parsers, the constructors of
the core hooks and of the CORS middleware of the web framework, and the installed plugins. -/
structure Parts (η σ : Type) where
  parsers : Parsers
  disk : String → FileContent
  identityHook : IdentityArguments → IdentityHook (ObservedWorld η σ)
  analyticsHook : AnalyticsConfig → AnalyticsHook (AuditLog η × σ)
  auditHook : Option LoggingConfig → AuditHook η σ
  corsMiddleware : CorsConfig → Except Exc Unit
  available : Available η (ObservedWorld η σ)

/-- The provider that exchanges tokens, for the servers that ask for it. -/
structure ExchangeProvider where
  tokenEndpoint : String
  clientId : String
  clientSecret : String
  servers : List ServerArguments

/-- What `uvicorn.run` serves. -/
structure Running (η σ : Type) where
  configs : List ServerArguments
  policy : Option PolicyConfig
  pipeline : Option (List (LifecycleHook (ObservedWorld η σ)))
  exchange : Option ExchangeProvider
  identityRequired : Bool
  sseEnabled : Value
  cors : Option CorsConfig
  analytics : Option AnalyticsConfig
  host : String
  port : ℤ

/-- Why the gateway exits with code 78. -/
inductive Refusal
  | configuration (text : String)
  | unprotected
  | audienceMissing
  | notEnforcing (identity governance : Bool)
  | openToAnonymous
  | exchangeWithoutIdentity (servers : List Value)

/-- The text behind "REFUSING TO START: ". -/
def Refusal.message : Refusal → String
  | configuration text => text
  | unprotected =>
    "No identity provider or policy file configured. The gateway would run without " ++
    "authentication, authorization, or data protection — this is not safe for production. " ++
    "Set MCP_POLICY_FILE to a policy file, or set MCP_RELAX_STARTUP_CHECKS=true to start " ++
    "without security controls (dev/testing only)."
  | audienceMissing =>
    "OKTA_ISSUER is set but OKTA_AUDIENCE is missing. The gateway has a policy file but cannot " ++
    "enable identity validation — this is a misconfiguration. Set OKTA_AUDIENCE, or remove " ++
    "OKTA_ISSUER, or set MCP_RELAX_STARTUP_CHECKS=true to start without identity (dev only)."
  | notEnforcing identity governance =>
    "MCP_STRICT_SECURITY requires both identity and governance to be active (ENFORCING " ++
    "posture), but " ++ " and ".intercalate
      ((if identity then [] else ["identity"]) ++ if governance then [] else ["governance"]) ++
    " is not configured. Provide a policy file with identity section, or unset " ++
    "MCP_STRICT_SECURITY."
  | openToAnonymous =>
    "Policy has 'default: allow' but no identity validation is configured. Every anonymous " ++
    "request would be allowed — this is almost certainly a deployment mistake. Configure " ++
    "identity (OKTA_ISSUER + OKTA_AUDIENCE or policy identity section), change the default to " ++
    "'deny', or set MCP_RELAX_STARTUP_CHECKS=true (dev/testing only)."
  | exchangeWithoutIdentity servers =>
    "Server(s) " ++ (Value.list servers).text ++ " have token_exchange enabled but the identity " ++
    "pipeline is disabled. OBO token exchange requires authenticated user tokens — without " ++
    "identity validation, OBO will always fail. Configure identity (OKTA_ISSUER + " ++
    "OKTA_AUDIENCE or policy identity section), or set MCP_RELAX_STARTUP_CHECKS=true (dev only)."

/-- How the start ends without a gateway: an exit with a message, or an exception. -/
inductive StartError
  | refused (r : Refusal)
  | raised (e : LoadError)

/-- A `UnicodeDecodeError` is a `ValueError`. -/
def isValueError : Exc → Bool
  | .other "ValueError" _ => true
  | .other "UnicodeDecodeError" _ => true
  | _ => false

/-- `except ValueError` around the loading of the policy. -/
def refusing {α : Type} (r : Except LoadError α) : Except StartError α :=
  r.mapError fun
    | .escaped e =>
      if isValueError e then .refused (.configuration e.message) else .raised (.escaped e)
    | e => .raised e

/-- What stands outside any `try`. -/
def unguarded {α : Type} (r : Except Exc α) : Except StartError α :=
  r.mapError fun e => .raised (.escaped e)

/-- A guard that exits unless its condition holds. -/
def require (ok : Bool) (r : Refusal) : Except StartError Unit :=
  if ok then .ok () else .error (.refused r)

def issuerSet (env : Environment) : Bool := env.getD "OKTA_ISSUER" "" != ""

def audienceSet (env : Environment) : Bool := env.getD "OKTA_AUDIENCE" "" != ""

/-- The identity provider that `_build_pipeline` uses: the one of the policy, or else the one of
the variables. -/
def pipelineIdentity (env : Environment) (identity : Option IdentityArguments) :
    Except Exc (Option IdentityArguments) :=
  match identity with
  | some config => .ok (some config)
  | none =>
    if issuerSet env && audienceSet env then do
      let config ← IdentityArguments.postInit
        { issuer := .str (env.getD "OKTA_ISSUER" "")
          audience := .str (env.getD "OKTA_AUDIENCE" "")
          allowInsecure := .bool (skipTlsValidation env) }
      return some config
    else .ok none

variable {η σ : Type} (parts : Parts η σ) (env : Environment)

/-- What `_build_pipeline` puts together. -/
def startup (identity : Option IdentityArguments) (policy : Option PolicyConfig)
    (analytics : Option AnalyticsConfig) : Startup η σ where
  identity := identity.map parts.identityHook
  policy := policy
  analytics := analytics.map parts.analyticsHook
  audit := parts.auditHook (policy.map (·.logging))
  available := parts.available

/-- `AuditHook.__init__` makes a list of the fields that are to be logged, if there are any. -/
def listIncludes (logging : LoggingConfig) : Except Exc Unit :=
  if logging.includes.truthy then logging.includes.iter.map fun _ => () else .ok ()

/-- `_build_pipeline`. The audit hook is made after the plugins. -/
def buildPipeline (identity : Option IdentityArguments) (policy : Option PolicyConfig)
    (analytics : Option AnalyticsConfig) :
    Except Exc (Option (List (LifecycleHook (ObservedWorld η σ)))) := do
  let identity ← pipelineIdentity env identity
  let pipeline ← (startup parts identity policy analytics).buildPipeline
  policy.elim (.ok ()) fun p => listIncludes p.logging
  return pipeline

/-- The servers whose configuration asks for a token exchange. -/
def oboServers (configs : List ServerArguments) : List ServerArguments :=
  configs.filter (·.tokenExchange.truthy)

/-- `OBOConfig.__post_init__` on texts that are not empty. -/
def checkTokenEndpoint (endpoint : String) : Except Exc Unit :=
  if skipTlsValidation env then .ok () else requireHttps (.str endpoint) "token_endpoint"

/-- `_build_obo_provider` after its guard. -/
def exchangeProvider (configs : List ServerArguments) : Except Exc (Option ExchangeProvider) :=
  let tokenEndpoint := env.getD "OKTA_TOKEN_ENDPOINT" ""
  let clientId := env.getD "OKTA_CLIENT_ID" ""
  let clientSecret := env.getD "OKTA_CLIENT_SECRET" ""
  let servers := (oboServers configs).filter (·.targetAudience.truthy)
  if tokenEndpoint = "" ∨ clientId = "" ∨ clientSecret = "" then .ok none
  else if servers = [] then .ok none
  else do
    checkTokenEndpoint env tokenEndpoint
    return some { tokenEndpoint, clientId, clientSecret, servers }

/-- `_build_obo_provider`. -/
def buildOboProvider (configs : List ServerArguments) (identityEnabled : Bool) :
    Except StartError (Option ExchangeProvider) := do
  require ((oboServers configs).isEmpty || identityEnabled || relaxStartupChecks env)
    (.exchangeWithoutIdentity ((oboServers configs).map (·.name)))
  unguarded (exchangeProvider env configs)

/-- `identity_enabled`, computed once more outside `_build_pipeline`. -/
def identityEnabled (identity : Option IdentityArguments) : Bool :=
  identity.isSome || (issuerSet env && audienceSet env)

/-- `run`, up to the server. The level and the format of the logs have no part in what is
started. -/
def run : Except StartError (Running η σ) := do
  unguarded (setLevel (.str (env.getD "LOG_LEVEL" "INFO")))
  let loaded ← refusing (loadPolicyAndConfigs parts.parsers parts.disk env)
  unguarded (loaded.policy.elim (.ok ()) fun p => setLevel p.logging.level)
  let analytics ← unguarded (buildAnalyticsConfig env loaded.policy)
  let pipeline ← unguarded (buildPipeline parts env loaded.identity loaded.policy analytics)
  let relaxed := relaxStartupChecks env
  require (pipeline.isSome || relaxed) .unprotected
  require (!(loaded.policy.isSome && loaded.identity.isNone && issuerSet env && !audienceSet env &&
    !relaxed)) .audienceMissing
  let identity := identityEnabled env loaded.identity
  require (!isStrictSecurity env || (identity && loaded.policy.isSome))
    (.notEnforcing identity loaded.policy.isSome)
  require (!(loaded.policy.any (·.default == .allow) && !identity && !relaxed)) .openToAnonymous
  let exchange ← buildOboProvider env loaded.configs identity
  let cors ← unguarded (buildCorsConfig env loaded.policy)
  unguarded (cors.elim (.ok ()) parts.corsMiddleware)
  let port ← unguarded (Value.toInt (.str (env.getD "MCP_PORT" "8080")))
  return {
    configs := loaded.configs
    policy := loaded.policy
    pipeline, exchange
    identityRequired := identity
    sseEnabled := env.envBool "MCP_SSE_ENABLED" (.bool true)
    cors, analytics
    host := env.getD "MCP_HOST" "0.0.0.0"
    port }

/-- What the gateway would be started with if nothing were refused. -/
def assemble : Except LoadError (Running η σ) := do
  Loader.escaping (setLevel (.str (env.getD "LOG_LEVEL" "INFO")))
  let loaded ← loadPolicyAndConfigs parts.parsers parts.disk env
  Loader.escaping (loaded.policy.elim (.ok ()) fun p => setLevel p.logging.level)
  let analytics ← Loader.escaping (buildAnalyticsConfig env loaded.policy)
  let pipeline ← Loader.escaping (buildPipeline parts env loaded.identity loaded.policy analytics)
  let exchange ← Loader.escaping (exchangeProvider env loaded.configs)
  let cors ← Loader.escaping (buildCorsConfig env loaded.policy)
  Loader.escaping (cors.elim (.ok ()) parts.corsMiddleware)
  let port ← Loader.escaping (Value.toInt (.str (env.getD "MCP_PORT" "8080")))
  return {
    configs := loaded.configs
    policy := loaded.policy
    pipeline, exchange
    identityRequired := identityEnabled env loaded.identity
    sseEnabled := env.envBool "MCP_SSE_ENABLED" (.bool true)
    cors, analytics
    host := env.getD "MCP_HOST" "0.0.0.0"
    port }

end McpZero.Main
