import McpZero.Governance.Config

/-! The policy loader, from the parsed value tree on. -/
namespace McpZero.Governance
open Python
open Value (typeError longInt ofStrings)

/-- What leaves `load_policy_file`: one of its documented errors, or an exception that no
section catches. -/
inductive LoadError
  | file (message : String)
  | validation (message field : String)
  | reference (message field : String) (reference : Value)
  | escaped (e : Exc)

namespace Loader

/-- `except ValueError as exc: raise PolicyValidationError(str(exc), field=field)`. -/
def catching {α : Type} (field : String) (r : Except Exc α) : Except LoadError α :=
  r.mapError fun
    | .other "ValueError" m => .validation m field
    | e => .escaped e

def escaping {α : Type} (r : Except Exc α) : Except LoadError α := r.mapError .escaped

/-- An error that an f-string words with the values, as far as it can write them. -/
def worded (values : List Value) (error : LoadError) : LoadError :=
  if values.all (·.prints) then error else .escaped longInt

/-- `isinstance(data, dict)`. -/
def mapping (v : Value) (message field : String) : Except LoadError Dict :=
  match v with
  | .dict d => .ok d
  | _ => .error (.validation message field)

/-- `isinstance(data, list)`. -/
def sequence (v : Value) (message field : String) : Except LoadError (List Value) :=
  match v with
  | .list items => .ok items
  | _ => .error (.validation message field)

/-- `items[i]` as the error messages write it. -/
def indexed (items : String) (i : ℕ) : String := items ++ "[" ++ toString i ++ "]"

/-- `PolicyEffect(raw)`. -/
def effect (raw : Value) (field : String) : Except LoadError PolicyEffect :=
  match PolicyEffect.ofValue? raw with
  | some e => .ok e
  | none => .error (worded [raw]
      (.validation (field ++ " must be 'allow' or 'deny', got '" ++ raw.text ++ "'") field))

/-- `key in seen` and `seen.add(key)`, which hash the key. A tuple is never a key here. -/
def seenBefore (seen : List Scalar) : Value → Except LoadError (Scalar × Bool)
  | .scalar a => .ok (a, seen.any (·.pyEq a))
  | v => .error (.escaped (typeError ("unhashable type: '" ++ v.typeName ++ "'")))

/-- The loops that look for a duplicate server name or policy id. -/
def checkDistinct (what field : String) : List Scalar → List Value → Except LoadError Unit
  | _, [] => .ok ()
  | seen, v :: rest => do
    let (a, duplicate) ← seenBefore seen v
    if duplicate then
      throw (worded [v] (.validation ("Duplicate " ++ what ++ ": '" ++ a.text ++ "'") field))
    checkDistinct what field (seen ++ [a]) rest

/-- `_build_identity`. -/
def buildIdentity (v : Value) : Except LoadError IdentityProviderConfig := do
  let d ← mapping v "identity must be a mapping" "identity"
  catching "identity" <| IdentityProviderConfig.postInit
    { provider := d.getD "provider" (.str "")
      issuer := d.getD "issuer" (.str "")
      audience := d.getD "audience" (.str "")
      claimMapping := d.getD "claim_mapping" (.dict [])
      allowInsecure := d.getD "allow_insecure" (.bool false) }

/-- `_build_server`. -/
def buildServer (v : Value) (i : ℕ) : Except LoadError ServerDefinition := do
  let d ← mapping v (indexed "servers" i ++ " must be a mapping") "servers"
  catching (indexed "servers" i) <| ServerDefinition.postInit
    { name := d.getD "name" (.str "")
      transport := d.getD "transport" (.str "")
      url := d.getD "url" .none
      command := d.getD "command" .none
      args := d.getD "args" (.list [])
      env := d.getD "env" (.dict [])
      headers := d.getD "headers" (.dict [])
      tokenExchange := d.getD "token_exchange" (.bool false)
      targetAudience := d.getD "target_audience" .none
      requiredScopes := d.getD "required_scopes" (.list [])
      allowInsecure := d.getD "allow_insecure" (.bool false) }

/-- The subjects of a rule. The types of the two fields are not checked. -/
def buildSubjects (d : Dict) (i : ℕ) : Except LoadError PolicySubjects :=
  match d.get? "subjects" with
  | none => .ok {}
  | some v => do
    let field := indexed "policies" i ++ ".subjects"
    let s ← mapping v (field ++ " must be a mapping") field
    return { users := s.getD "users" (.list []), groups := s.getD "groups" (.list []) }

/-- One entry of `mcp_servers`. The type of the tools is not checked. -/
def buildAccess (i : ℕ) (v : Value) (j : ℕ) : Except LoadError PolicyServerAccess := do
  let field := indexed (indexed "policies" i ++ ".mcp_servers") j
  let ms ← mapping v (field ++ " must be a mapping") field
  catching field <| PolicyServerAccess.postInit
    { name := ms.getD "name" (.str ""), tools := ms.getD "tools" (.list []) }

/-- `_build_policy_rule`. -/
def buildPolicyRule (v : Value) (i : ℕ) : Except LoadError PolicyRule := do
  let d ← mapping v (indexed "policies" i ++ " must be a mapping") "policies"
  let ruleEffect ← effect (d.getD "effect" (.str "allow")) (indexed "policies" i ++ ".effect")
  let subjects ← buildSubjects d i
  let field := indexed "policies" i ++ ".mcp_servers"
  let raw ← sequence (d.getD "mcp_servers" (.list [])) (field ++ " must be a list") field
  let mcpServers ← raw.zipIdx.mapM fun (v, j) => buildAccess i v j
  catching (indexed "policies" i) <| PolicyRule.postInit
    { id := d.getD "id" (.str "")
      description := d.getD "description" (.str "")
      effect := ruleEffect
      subjects
      mcpServers }

/-- `_build_logging`. -/
def buildLogging (v : Value) : Except LoadError LoggingConfig := do
  let d ← mapping v "logging must be a mapping" "logging"
  catching "logging" <| LoggingConfig.postInit
    { level := d.getD "level" (.str "INFO")
      format := d.getD "format" (.str "json")
      includes := d.getD "include" (.list []) }

/-- `_build_masking`. -/
def buildMasking (v : Value) : Except LoadError MaskingConfig := do
  let d ← mapping v "masking must be a mapping" "masking"
  match d.get? "presidio" with
  | none => return {}
  | some v =>
    let p ← mapping v "masking.presidio must be a mapping" "masking.presidio"
    return { presidio :=
      { enabled := p.getD "enabled" (.bool false), entities := p.getD "entities" (.list []) } }

def buildRedis (d : Dict) : Except LoadError RedisConfig :=
  match d.get? "redis" with
  | none => .ok {}
  | some v => do
    let r ← mapping v "analytics.redis must be a mapping" "analytics.redis"
    escaping ((r.getD "socket_timeout" (.int 5)).checkFloat)
    return {
      url := r.getD "url" (.str "")
      cluster := r.getD "cluster" (.bool false)
      tls := r.getD "tls" (.bool false)
      password := r.getD "password" .none
      retryOnTimeout := r.getD "retry_on_timeout" (.bool true) }

/-- `_build_analytics`: the conversions stand outside any `try`. -/
def buildAnalytics (v : Value) : Except LoadError AnalyticsConfig := do
  let d ← mapping v "analytics must be a mapping" "analytics"
  let redis ← buildRedis d
  let bucketSeconds ← escaping (d.getD "bucket_seconds" (.int 60)).toInt
  let retentionSeconds ← escaping (d.getD "retention_seconds" (.int 3600)).toInt
  let heartbeatSeconds ← escaping (d.getD "heartbeat_seconds" (.int 30)).toInt
  let queueSize ← escaping (d.getD "queue_size" (.int 10000)).toInt
  escaping ((d.getD "flush_interval" (.int 1)).checkFloat)
  let gatewayId := d.getD "gateway_id" (.str "")
  return {
    redis
    environment := d.getD "environment" (.str "default")
    gatewayId := if gatewayId.truthy then some gatewayId else none
    keyPrefix := d.getD "key_prefix" (.str "mcpgw")
    bucketSeconds
    retentionSeconds
    heartbeatSeconds
    queueSize }

/-- `_build_cors`. -/
def buildCors (v : Value) : Except LoadError CorsConfig := do
  let d ← mapping v "cors must be a mapping" "cors"
  catching "cors" do
    let maxAge ← (d.getD "max_age" (.int 600)).toInt
    CorsConfig.postInit
      { allowOrigins := d.getD "allow_origins" (.list [])
        allowMethods := d.getD "allow_methods" (ofStrings ["GET", "POST", "OPTIONS"])
        allowHeaders := d.getD "allow_headers" (ofStrings ["Authorization", "Content-Type"])
        allowCredentials := d.getD "allow_credentials" (.bool false)
        maxAge
        exposeHeaders := d.getD "expose_headers" (.list []) }

/-- The loop of `_build_plugins`, which builds a declaration and looks for its name at once. -/
def buildPluginsFrom (i : ℕ) (seen : List Scalar) :
    List Value → Except LoadError (List PluginDeclaration)
  | [] => .ok []
  | v :: rest => do
    let item ← mapping v (indexed "plugins" i ++ " must be a mapping") (indexed "plugins" i)
    let name := item.getD "name" (.str "")
    let decl ← catching (indexed "plugins" i) <| PluginDeclaration.postInit
      { name
        package := item.getD "package" name
        config := item.getD "config" (.dict [])
        priority := item.getD "priority" .none }
    let (a, duplicate) ← seenBefore seen decl.name
    if duplicate then
      throw (worded [decl.name]
        (.validation ("Duplicate plugin name: '" ++ a.text ++ "'") "plugins"))
    let decls ← buildPluginsFrom (i + 1) (seen ++ [a]) rest
    return decl :: decls

/-- `_build_plugins`. -/
def buildPlugins (v : Value) : Except LoadError (List PluginDeclaration) := do
  let items ← sequence v "plugins must be a list" "plugins"
  buildPluginsFrom 0 [] items

/-- A section that is built only when its key is there. -/
def section? {α : Type} (data : Dict) (key : String) (build : Value → Except LoadError α) :
    Except LoadError (Option α) :=
  match data.get? key with
  | none => .ok none
  | some v => do
    let a ← build v
    return some a

/-- The version of a document. A bool is an int. -/
def buildVersion (data : Dict) : Except LoadError Value :=
  match data.get? "version" with
  | none => .error (.validation "Missing required field: version" "version")
  | some v =>
    if v.isInt then .ok v
    else .error (.validation ("version must be an integer, got " ++ v.typeName) "version")

def buildServers (data : Dict) : Except LoadError (List ServerDefinition) := do
  let raw ← sequence (data.getD "servers" (.list [])) "servers must be a list" "servers"
  let servers ← raw.zipIdx.mapM fun (v, i) => buildServer v i
  checkDistinct "server name" "servers" [] (servers.map (·.name))
  return servers

def buildPolicies (data : Dict) : Except LoadError (List PolicyRule) := do
  let raw ← sequence (data.getD "policies" (.list [])) "policies must be a list" "policies"
  let rules ← raw.zipIdx.mapM fun (v, i) => buildPolicyRule v i
  checkDistinct "policy id" "policies" [] (rules.map (·.id))
  return rules

/-- `_build_policy_config`. -/
def buildPolicyConfig (data : Dict) : Except LoadError PolicyConfig := do
  let version ← buildVersion data
  let default ← effect (data.getD "default" (.str "deny")) "default"
  let identity ← section? data "identity" buildIdentity
  let servers ← buildServers data
  let policies ← buildPolicies data
  let logging ← section? data "logging" buildLogging
  let masking ← section? data "masking" buildMasking
  let analytics ← section? data "analytics" buildAnalytics
  let cors ← section? data "cors" buildCors
  let plugins ← section? data "plugins" buildPlugins
  catching "version" <| PolicyConfig.postInit
    { version, default, identity, servers, policies
      logging := logging.getD {}
      masking := masking.getD {}
      analytics, cors
      plugins := plugins.getD [] }

/-- `name in server_names`. A set is looked up as a frozenset, which is no server name. -/
def isKnown (serverNames : List Scalar) : Value → Except LoadError Bool
  | .group .set _ => .ok false
  | name => do
    let (_, known) ← seenBefore serverNames name
    return known

/-- One look-up of `_validate_cross_references`. -/
def checkReference (serverNames : List Scalar) (rule : PolicyRule) (access : PolicyServerAccess) :
    Except LoadError Unit := do
  let wildcard ← escaping (access.name.hasStr "*")
  if wildcard then return
  let known ← isKnown serverNames access.name
  if !known then
    throw (worded [rule.id, access.name]
      (.reference ("Policy '" ++ rule.id.text ++ "' references unknown server '" ++
        access.name.text ++ "'") ("policies." ++ rule.id.text ++ ".mcp_servers") access.name))

/-- The names of the servers, which the duplicate check has hashed. -/
def serverNames (policy : PolicyConfig) : List Scalar :=
  policy.servers.filterMap (·.name.asScalar?)

/-- `_validate_cross_references`. -/
def validateCrossReferences (policy : PolicyConfig) : Except LoadError Unit :=
  policy.policies.forM fun rule =>
    rule.mcpServers.forM (checkReference (serverNames policy) rule)

def isNameChar (c : Char) : Bool :=
  ('a' ≤ c && c ≤ 'z') || ('A' ≤ c && c ≤ 'Z') || ('0' ≤ c && c ≤ '9') || c == '_'

/-- `_VALID_WILDCARD_RE` on a whole text. -/
def isWildcard (cs : List Char) : Bool :=
  cs == ['*'] ||
    (cs.head? == some '*' && !cs.tail.isEmpty && cs.tail.all isNameChar) ||
    (cs.getLast? == some '*' && !cs.dropLast.isEmpty && cs.dropLast.all isNameChar)

/-- `_VALID_WILDCARD_RE.match`: the `$` also matches before a newline at the end. -/
def matchesWildcardRe (s : String) : Bool :=
  isWildcard s.toList || (s.toList.getLast? == some '\n' && isWildcard s.toList.dropLast)

/-- One test of `_validate_tool_patterns`. -/
def checkTool (rule : PolicyRule) (access : PolicyServerAccess) (tool : Value) :
    Except LoadError Unit := do
  let wildcard ← escaping (tool.hasStr "*")
  if !wildcard then return
  match tool with
  | .str s =>
    if !matchesWildcardRe s then
      throw (worded [rule.id, access.name]
        (.validation ("Invalid tool wildcard pattern '" ++ s ++ "' in policy '" ++
          rule.id.text ++ "' for server '" ++ access.name.text ++
          "'. Wildcards must be standalone '*', prefix '*suffix', or suffix 'prefix*'.")
          ("policies." ++ rule.id.text ++ ".mcp_servers." ++ access.name.text ++ ".tools")))
  | v => throw (.escaped (typeError ("expected string or bytes-like object, got '" ++
      v.typeName ++ "'")))

/-- `_validate_tool_patterns`. -/
def validateToolPatterns (policy : PolicyConfig) : Except LoadError Unit :=
  policy.policies.forM fun rule =>
    rule.mcpServers.forM fun access => do
      let tools ← escaping access.tools.iter
      tools.forM (checkTool rule access)

/-- `load_policy_file` on the value tree of the file. -/
def loadPolicy (data : Value) : Except LoadError PolicyConfig :=
  match data with
  | .dict d => do
    let policy ← buildPolicyConfig d
    validateCrossReferences policy
    validateToolPatterns policy
    return policy
  | _ => .error (.file "Policy file must contain a mapping at the top level")

end Loader

end McpZero.Governance
