import McpZero.Python.Numbers

/-! The configuration dataclasses of a policy file. Their fields are untyped: Python does not
check the annotations. Each `postInit` is the check a dataclass runs on itself. -/
namespace McpZero.Governance
open Python
open Value (valueError noAttribute bytesAffix)

inductive PolicyEffect
  | allow
  | deny
  deriving DecidableEq

/-- `PolicyEffect(v)`. -/
def PolicyEffect.ofValue? : Value → Option PolicyEffect
  | .str "allow" => some .allow
  | .str "deny" => some .deny
  | _ => none

/-- `require_https`. -/
def requireHttps (url : Value) (fieldName : String) : Except Exc Unit :=
  match url with
  | .str s =>
    -- no character outside ASCII has one of these letters as its lower-case form
    if "https://".toList.isPrefixOf (s.toList.map Char.toLower) then .ok ()
    else .error (valueError (fieldName ++ " must use https:// (got " ++ reprString s ++ "). " ++
      "Set allow_insecure=True in the policy file, or set " ++
      "MCP_SKIP_TLS_VALIDATION=true to permit http:// for local development."))
  | .bytes _ => .error (bytesAffix "startswith")
  | v => .error (noAttribute v "lower")

/-- A URL whose scheme is `https`. -/
def IsHttps (url : Value) : Prop :=
  ∃ s, url = .str s ∧ "https://".toList.isPrefixOf (s.toList.map Char.toLower) = true

theorem requireHttps_eq_ok {url : Value} {fieldName : String} :
    requireHttps url fieldName = .ok () ↔ IsHttps url := by
  unfold requireHttps IsHttps
  split
  · rename_i s
    constructor
    · intro h
      split_ifs at h with hprefix
      exact ⟨s, rfl, hprefix⟩
    · intro h
      obtain ⟨_, hs, hprefix⟩ := h
      cases hs
      rw [if_pos hprefix]
  · rename_i bs
    constructor
    · intro h
      cases h
    · intro h
      obtain ⟨s, hs, -⟩ := h
      cases hs
  · rename_i hnot hbytes
    constructor
    · intro h
      cases h
    · intro h
      obtain ⟨s, hs, -⟩ := h
      exact absurd hs (hnot s)

structure IdentityProviderConfig where
  provider : Value
  issuer : Value
  audience : Value
  claimMapping : Value
  allowInsecure : Value

def IdentityProviderConfig.postInit (c : IdentityProviderConfig) :
    Except Exc IdentityProviderConfig :=
  if !c.provider.truthy then .error (valueError "identity.provider is required")
  else if !c.issuer.truthy then .error (valueError "identity.issuer is required")
  else if !c.audience.truthy then .error (valueError "identity.audience is required")
  else if !c.allowInsecure.truthy then do
    requireHttps c.issuer "identity.issuer"
    return c
  else .ok c

structure ServerDefinition where
  name : Value
  transport : Value
  url : Value
  command : Value
  args : Value
  env : Value
  headers : Value
  tokenExchange : Value
  targetAudience : Value
  requiredScopes : Value
  allowInsecure : Value

def isTransport : Value → Bool
  | .str s => ["http", "sse", "stdio"].contains s
  | _ => false

def ServerDefinition.postInit (c : ServerDefinition) : Except Exc ServerDefinition :=
  if !c.name.truthy then .error (valueError "server.name is required")
  else if !isTransport c.transport then
    .error (valueError ("server '" ++ c.name.text ++ "' transport must be 'http', 'sse', or " ++
      "'stdio', got '" ++ c.transport.text ++ "'"))
  else .ok c

structure PolicySubjects where
  users : Value := .list []
  groups : Value := .list []

structure PolicyServerAccess where
  name : Value
  tools : Value

def PolicyServerAccess.postInit (c : PolicyServerAccess) : Except Exc PolicyServerAccess :=
  if !c.name.truthy then .error (valueError "policy mcp_server.name is required")
  else .ok c

structure PolicyRule where
  id : Value
  description : Value
  effect : PolicyEffect
  subjects : PolicySubjects
  mcpServers : List PolicyServerAccess

def PolicyRule.postInit (c : PolicyRule) : Except Exc PolicyRule :=
  if !c.id.truthy then .error (valueError "policy.id is required")
  else if !c.description.truthy then
    .error (valueError ("policy '" ++ c.id.text ++ "' description is required"))
  else .ok c

structure LoggingConfig where
  level : Value := .str "INFO"
  format : Value := .str "json"
  includes : Value := .list []

/-- The upper-case form as far as it is in ASCII. -/
def upperChar (c : Char) : Char :=
  if c = 'ı' then 'I' else if c = 'ſ' then 'S' else c.toUpper

/-- `value.upper()` or `value.lower()` is one of the choices. Bytes have these methods, too, and
equal no string. -/
def oneOf (convert : Char → Char) (method : String) (choices : List String) :
    Value → Except Exc Bool
  | .str s => .ok (choices.any (·.toList == s.toList.map convert))
  | .bytes _ => .ok false
  | v => .error (noAttribute v method)

def LoggingConfig.postInit (c : LoggingConfig) : Except Exc LoggingConfig := do
  let levelOk ← oneOf upperChar "upper" ["CRITICAL", "DEBUG", "ERROR", "INFO", "WARNING"] c.level
  if !levelOk then
    throw (valueError ("logging.level must be one of " ++
      "['CRITICAL', 'DEBUG', 'ERROR', 'INFO', 'WARNING'], got '" ++ c.level.text ++ "'"))
  let formatOk ← oneOf Char.toLower "lower" ["json", "text"] c.format
  if !formatOk then
    throw (valueError ("logging.format must be one of ['json', 'text'], got '" ++
      c.format.text ++ "'"))
  return c

structure PresidioConfig where
  enabled : Value := .bool false
  entities : Value := .list []

structure MaskingConfig where
  presidio : PresidioConfig := {}

/-- The socket timeout is checked and left out. -/
structure RedisConfig where
  url : Value := .str ""
  cluster : Value := .bool false
  tls : Value := .bool false
  password : Value := .none
  retryOnTimeout : Value := .bool true

/-- An empty gateway id is replaced by a random one, which is `none` here. The flush interval
is checked and left out. -/
structure AnalyticsConfig where
  redis : RedisConfig
  environment : Value
  gatewayId : Option Value
  keyPrefix : Value
  bucketSeconds : ℤ
  retentionSeconds : ℤ
  heartbeatSeconds : ℤ
  queueSize : ℤ

structure CorsConfig where
  allowOrigins : Value
  allowMethods : Value
  allowHeaders : Value
  allowCredentials : Value
  maxAge : ℤ
  exposeHeaders : Value

def CorsConfig.postInit (c : CorsConfig) : Except Exc CorsConfig := do
  if !c.allowOrigins.truthy then
    throw (valueError "cors.allow_origins must be a non-empty list")
  let everyOrigin ← c.allowOrigins.hasStr "*"
  if everyOrigin && c.allowCredentials.truthy then
    throw (valueError "cors.allow_origins=['*'] cannot be used with allow_credentials=True")
  if c.maxAge < 0 then
    throw (valueError ("cors.max_age must be >= 0, got " ++ toString c.maxAge))
  return c

structure PluginDeclaration where
  name : Value
  package : Value
  config : Value
  priority : Value

def PluginDeclaration.postInit (c : PluginDeclaration) : Except Exc PluginDeclaration :=
  if !c.name.truthy then .error (valueError "plugin.name is required")
  else .ok c

structure PolicyConfig where
  version : Value
  default : PolicyEffect
  identity : Option IdentityProviderConfig
  servers : List ServerDefinition
  policies : List PolicyRule
  logging : LoggingConfig
  masking : MaskingConfig
  analytics : Option AnalyticsConfig
  cors : Option CorsConfig
  plugins : List PluginDeclaration

/-- `version != 1`, which `True` passes as well. -/
def isVersionOne : Value → Bool
  | .int 1 => true
  | .bool true => true
  | _ => false

def PolicyConfig.postInit (c : PolicyConfig) : Except Exc PolicyConfig :=
  if !isVersionOne c.version then
    .error (valueError ("policy version must be 1, got " ++ c.version.text))
  else .ok c

end McpZero.Governance
