import McpZero.Governance.PolicyFile
import McpZero.Python.Json
import McpZero.Transport.ServerArguments

/-! What `run` reads from the environment and from the policy file. A variable that is set
overrides the policy. -/
namespace McpZero.Main
open Python Governance Transport
open Value (noAttribute valueError typeError)

def skipTlsValidation (env : Environment) : Bool := env.flag "MCP_SKIP_TLS_VALIDATION"

def relaxStartupChecks (env : Environment) : Bool := env.flag "MCP_RELAX_STARTUP_CHECKS"

def isStrictSecurity (env : Environment) : Bool := env.flag "MCP_STRICT_SECURITY"

/-- What is passed to `IdentityConfig(...)`. -/
structure IdentityArguments where
  provider : Value := .str "okta"
  issuer : Value
  audience : Value
  userId : Value := .str "sub"
  email : Value := .str "email"
  groups : Value := .str "groups"
  allowInsecure : Value := .bool false

/-- `IdentityConfig.__post_init__`. -/
def IdentityArguments.postInit (c : IdentityArguments) : Except Exc IdentityArguments :=
  if !c.issuer.truthy then .error (valueError "issuer is required")
  else if !c.audience.truthy then .error (valueError "audience is required")
  else if !c.allowInsecure.truthy then do
    requireHttps c.issuer "issuer"
    return c
  else .ok c

/-- `convert_to_identity_config`. -/
def convertToIdentityConfig (policy : PolicyConfig) : Except Exc (Option IdentityArguments) :=
  match policy.identity with
  | none => .ok none
  | some identity => do
    let userId ← identity.claimMapping.getKeyD "user_id" (.str "sub")
    let email ← identity.claimMapping.getKeyD "email" (.str "email")
    let groups ← identity.claimMapping.getKeyD "groups" (.str "groups")
    let config ← IdentityArguments.postInit
      { provider := identity.provider
        issuer := identity.issuer
        audience := identity.audience
        userId, email, groups
        allowInsecure := identity.allowInsecure }
    return some config

/-- `_load_server_configs`. -/
def loadServerConfigs (env : Environment) : Except Exc (List ServerArguments) :=
  let url := env.getD "MCP_UPSTREAM_URL" ""
  if url = "" then .ok []
  else do
    let config ← ServerArguments.postInit
      { name := .str "default"
        transport := .http
        url := .str url
        allowInsecure := .bool (skipTlsValidation env) } env
    return [config]

/-- What the policy file, or the variables in its place, come to. -/
structure Loaded where
  configs : List ServerArguments
  identity : Option IdentityArguments
  policy : Option PolicyConfig

/-- `_load_policy_and_configs`. -/
def loadPolicyAndConfigs (parsers : Parsers) (disk : String → FileContent) (env : Environment) :
    Except LoadError Loaded := do
  let path := env.getD "MCP_POLICY_FILE" ""
  if path = "" then
    let configs ← Loader.escaping (loadServerConfigs env)
    return { configs, identity := none, policy := none }
  else
    let policy ← Loader.loadPolicyFile parsers { path, content := disk path }
    let configs ← Loader.escaping (convertToServerConfigs env policy)
    let identity ← Loader.escaping (convertToIdentityConfig policy)
    return { configs, identity, policy := some policy }

/-- The levels that `setLevel` knows. -/
def levelNames : List String :=
  ["CRITICAL", "FATAL", "ERROR", "WARN", "WARNING", "INFO", "DEBUG", "NOTSET"]

def upperByte (b : UInt8) : UInt8 := if 97 ≤ b && b ≤ 122 then b - 32 else b

/-- `logger.setLevel(level.upper())`. -/
def setLevel (level : Value) : Except Exc Unit :=
  match level with
  | .str s =>
    let upper := s.toList.map upperChar
    if levelNames.any (·.toList == upper) then .ok ()
    else .error (valueError ("Unknown level: " ++ reprString (String.ofList upper)))
  | .bytes bs => .error (typeError ("Level not an integer or a valid string: " ++
      reprBytes (bs.map upperByte)))
  | v => .error (noAttribute v "upper")

/-- The text of a variable that is set, or else what the policy has. -/
def overridden (env : Environment) (name : String) (base : Value) : Value :=
  match env.get name with
  | some text => .str text
  | none => base

/-- An empty gateway id is replaced by a random one. -/
def gatewayIdFrom (env : Environment) (base : Option Value) : Option Value :=
  match env.get "ANALYTICS_GATEWAY_ID" with
  | some text => if text = "" then none else some (.str text)
  | none => base

/-- `int(os.environ.get("ANALYTICS_RETENTION_SECONDS", str(default)))`. -/
def retentionFrom (env : Environment) (default : ℤ) : Except Exc ℤ := do
  let text ← Json.intText default
  (overridden env "ANALYTICS_RETENTION_SECONDS" (.str (String.ofList text))).toInt

/-- The defaults of the analytics section. -/
def defaultAnalytics : AnalyticsConfig where
  redis := {}
  environment := .str "default"
  gatewayId := none
  keyPrefix := .str "mcpgw"
  bucketSeconds := 60
  retentionSeconds := 3600
  heartbeatSeconds := 30
  queueSize := 10000

/-- `_build_analytics_config`. Without a Redis URL there are no analytics. -/
def buildAnalyticsConfig (env : Environment) (policy : Option PolicyConfig) :
    Except Exc (Option AnalyticsConfig) :=
  let redisUrl := env.getD "ANALYTICS_REDIS_URL" ""
  let base := (policy.bind (·.analytics)).getD defaultAnalytics
  if redisUrl = "" ∧ base.redis.url.truthy = false then .ok none
  else do
    let retentionSeconds ← retentionFrom env base.retentionSeconds
    return some { base with
      redis := { base.redis with
        url := if redisUrl = "" then base.redis.url else .str redisUrl
        cluster := env.envBool "ANALYTICS_REDIS_CLUSTER" base.redis.cluster
        password := overridden env "ANALYTICS_REDIS_PASSWORD" base.redis.password }
      environment := overridden env "ANALYTICS_ENVIRONMENT" base.environment
      gatewayId := gatewayIdFrom env base.gatewayId
      keyPrefix := overridden env "ANALYTICS_KEY_PREFIX" base.keyPrefix
      retentionSeconds }

/-- The origins of `MCP_CORS_ORIGINS`, if it is not blank. -/
def corsOrigins (env : Environment) : Option (List (List Char)) :=
  let text := stripWhitespace (env.getD "MCP_CORS_ORIGINS" "").toList
  if text = [] then none
  else some (((text.splitOn ',').map stripWhitespace).filter (· ≠ []))

/-- The section with its defaults, on which the variables work. -/
def baseCors (policy : Option PolicyConfig) : Option CorsConfig := policy.bind (·.cors)

def defaultCors : CorsConfig where
  allowOrigins := .list []
  allowMethods := Value.ofStrings ["GET", "POST", "OPTIONS"]
  allowHeaders := Value.ofStrings ["Authorization", "Content-Type"]
  allowCredentials := .bool false
  maxAge := 600
  exposeHeaders := .list []

/-- `_build_cors_config`. -/
def buildCorsConfig (env : Environment) (policy : Option PolicyConfig) :
    Except Exc (Option CorsConfig) :=
  let origins := corsOrigins env
  if origins = none ∧ (baseCors policy).isNone then .ok none
  else do
    let base := (baseCors policy).getD defaultCors
    let maxAgeText := stripWhitespace (env.getD "MCP_CORS_MAX_AGE" "").toList
    let maxAge ← if maxAgeText = [] then .ok base.maxAge
      else Value.toInt (.str (String.ofList maxAgeText))
    let config ← CorsConfig.postInit { base with
      allowOrigins := origins.elim base.allowOrigins fun os =>
        Value.ofStrings (os.map String.ofList)
      allowCredentials := env.envBool "MCP_CORS_ALLOW_CREDENTIALS" base.allowCredentials
      maxAge }
    return some config

end McpZero.Main
