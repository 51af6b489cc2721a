import McpZero.Governance.Loader
import McpZero.Lib.Except
import McpZero.Lib.Template
import McpZero.Python.Collections
import McpZero.Python.Environment
import McpZero.Transport.Config

/-! `ServerConfig` as the policy file builds it: the conversion of the definitions, and the checks
that a configuration runs on itself. -/
namespace McpZero.Transport
open Python Lib Governance
open Value (typeError valueError)

/-- What is passed to `ServerConfig(...)`. Python does not check the types of the fields. -/
structure ServerArguments where
  name : Value
  transport : TransportType
  url : Value := .none
  command : Value := .none
  args : List Value := []
  env : Dict := []
  tokenExchange : Value := .bool false
  targetAudience : Value := .none
  requiredScopes : List Value := []
  headers : Dict := []
  allowInsecure : Value := .bool false

/-- The references of `_ENV_VAR_RE`. -/
def referenceMarks : Marks Char where
  first := '$'
  second := '{'
  close := '}'
  ne := by decide

/-- The value of a variable, by the characters of its name. -/
def variableValue (env : Environment) (name : List Char) : Option (List Char) :=
  (env.get (String.ofList name)).map String.toList

/-- `_ENV_VAR_RE.sub(_expand, value)` with the names that `_expand` has found unset. -/
def expandText (env : Environment) (value : String) : String × List String :=
  let ps := Template.pieces referenceMarks value.toList
  (String.ofList (Template.fill (variableValue env) ps),
    (Template.missing (variableValue env) ps).map String.ofList)

def unsetVariables (server : Value) (key : Scalar) (missing : List String) : Exc :=
  valueError ("Header '" ++ key.text ++ "' for server '" ++ server.text ++
    "' references unset environment variable(s): " ++ ", ".intercalate missing)

/-- A pattern for strings is not applied to anything else. -/
def headerText : Value → Except Exc String
  | .str s => .ok s
  | .bytes _ =>
    .error (typeError "cannot use a string pattern on a bytes-like object")
  | v => .error (typeError ("expected string or bytes-like object, got '" ++ v.typeName ++ "'"))

/-- The loop over the headers. -/
def expandHeaders (env : Environment) (server : Value) : Dict → Except Exc Dict
  | [] => .ok []
  | (key, v) :: rest => do
    let value ← headerText v
    let (expanded, missing) := expandText env value
    if missing ≠ [] then throw (unsetVariables server key missing)
    let rest ← expandHeaders env server rest
    return (key, .str expanded) :: rest

namespace ServerArguments

variable (c : ServerArguments)

/-- The endpoint of a remote server. -/
def checkUrl (protocol : String) : Except Exc Unit :=
  if !c.url.truthy then
    .error (valueError (protocol ++ " transport for '" ++ c.name.text ++ "' requires 'url'"))
  else if !c.allowInsecure.truthy then requireHttps c.url ("url for '" ++ c.name.text ++ "'")
  else .ok ()

def checkEndpoint : Except Exc Unit :=
  match c.transport with
  | .http => c.checkUrl "HTTP"
  | .sse => c.checkUrl "SSE"
  | .stdio =>
    if !c.command.truthy then
      .error (valueError ("stdio transport for '" ++ c.name.text ++ "' requires 'command'"))
    else .ok ()

/-- The headers after `__post_init__`. -/
def checkHeaders (env : Environment) : Except Exc Dict :=
  if c.headers = [] then .ok []
  else if c.transport = .stdio then
    .error (valueError ("headers are not supported for stdio transport ('" ++ c.name.text ++ "')"))
  else expandHeaders env c.name c.headers

def checkExchange : Except Exc Unit :=
  if !c.tokenExchange.truthy then .ok ()
  else if c.transport = .stdio then
    .error (valueError ("token_exchange is not supported for stdio transport ('" ++ c.name.text ++
      "')"))
  else if !c.targetAudience.truthy then
    .error (valueError ("token_exchange for '" ++ c.name.text ++ "' requires 'target_audience'"))
  else .ok ()

/-- `ServerConfig.__post_init__`, which replaces the headers. -/
def postInit (env : Environment) : Except Exc ServerArguments := do
  c.checkEndpoint
  let headers ← c.checkHeaders env
  c.checkExchange
  return { c with headers }

/-- A conversion that is made for a value that is not empty. -/
def whenTruthy {α : Type} (v : Value) (empty : α) (convert : Value → Except Exc α) :
    Except Exc α := if v.truthy then convert v else .ok empty

/-- The arguments that `convert_to_server_configs` passes for a definition. -/
def ofDefinition (server : ServerDefinition) (transport : TransportType) :
    Except Exc ServerArguments := do
  let args ← whenTruthy server.args [] Value.iter
  let env ← whenTruthy server.env [] Value.toDict
  let headers ← whenTruthy server.headers [] Value.toDict
  let requiredScopes ← whenTruthy server.requiredScopes [] Value.iter
  return {
    name := server.name
    transport
    url := server.url
    command := server.command
    args, env
    tokenExchange := server.tokenExchange
    targetAudience := server.targetAudience
    requiredScopes, headers
    allowInsecure := server.allowInsecure }

end ServerArguments

/-- `TransportType(v)`. -/
def TransportType.ofValue (v : Value) : Except Exc TransportType :=
  match v with
  | .str "http" => .ok .http
  | .str "sse" => .ok .sse
  | .str "stdio" => .ok .stdio
  | v => .error (valueError (v.repr ++ " is not a valid TransportType"))

/-- One round of `convert_to_server_configs`. -/
def convertServer (env : Environment) (server : ServerDefinition) :
    Except Exc ServerArguments := do
  let transport ← TransportType.ofValue server.transport
  let c ← ServerArguments.ofDefinition server transport
  c.postInit env

/-- `convert_to_server_configs`. -/
def convertToServerConfigs (env : Environment) (policy : PolicyConfig) :
    Except Exc (List ServerArguments) := policy.servers.mapM (convertServer env)

/-- What a configuration guarantees after its own checks. -/
structure ServerArguments.Sound (c : ServerArguments) : Prop where
  remote : c.transport ≠ .stdio →
    c.url.truthy = true ∧ (c.allowInsecure.truthy = false → IsHttps c.url)
  process : c.transport = .stdio → c.command.truthy = true ∧ c.headers = []
  exchange : c.tokenExchange.truthy = true → c.transport ≠ .stdio ∧ c.targetAudience.truthy = true

namespace ServerArguments

variable {c d : ServerArguments} {env : Environment}

theorem checkUrl_eq_ok {protocol : String} : c.checkUrl protocol = .ok () ↔
    c.url.truthy = true ∧ (c.allowInsecure.truthy = false → IsHttps c.url) := by
  unfold checkUrl
  cases hurl : c.url.truthy with
  | false => simp
  | true =>
    cases hinsecure : c.allowInsecure.truthy with
    | true => simp
    | false => simp [requireHttps_eq_ok]

theorem checkHeaders_stdio (hstdio : c.transport = .stdio) {headers : Dict}
    (h : c.checkHeaders env = .ok headers) : headers = [] := by
  unfold checkHeaders at h
  split_ifs at h
  exact (Except.ok.inj h).symm

theorem checkExchange_eq_ok : c.checkExchange = .ok () ↔
    (c.tokenExchange.truthy = true →
      c.transport ≠ .stdio ∧ c.targetAudience.truthy = true) := by
  unfold checkExchange
  cases hexchange : c.tokenExchange.truthy with
  | false => simp
  | true =>
    by_cases hstdio : c.transport = .stdio
    · simp [hstdio]
    · cases haudience : c.targetAudience.truthy <;> simp [hstdio]

theorem postInit_eq_ok : c.postInit env = .ok d ↔
    c.checkEndpoint = .ok () ∧ c.checkExchange = .ok () ∧
      ∃ headers, c.checkHeaders env = .ok headers ∧ d = { c with headers } := by
  unfold postInit
  simp only [bind_eq_ok, pure_eq_ok]
  constructor
  · intro h
    obtain ⟨_, hendpoint, headers, hheaders, _, hexchange, hd⟩ := h
    exact ⟨hendpoint, hexchange, headers, hheaders, hd.symm⟩
  · intro h
    obtain ⟨hendpoint, hexchange, headers, hheaders, hd⟩ := h
    exact ⟨(), hendpoint, headers, hheaders, (), hexchange, hd.symm⟩

theorem postInit_sound (h : c.postInit env = .ok d) : d.Sound := by
  obtain ⟨hendpoint, hexchange, headers, hheaders, rfl⟩ := postInit_eq_ok.mp h
  refine ⟨fun hremote => ?_, fun hstdio => ?_, checkExchange_eq_ok.mp hexchange⟩
  · unfold checkEndpoint at hendpoint
    dsimp only at hremote ⊢
    cases htransport : c.transport with
    | stdio => exact absurd htransport hremote
    | http =>
      rw [htransport] at hendpoint
      exact checkUrl_eq_ok.mp hendpoint
    | sse =>
      rw [htransport] at hendpoint
      exact checkUrl_eq_ok.mp hendpoint
  · refine ⟨?_, checkHeaders_stdio (c := c) hstdio hheaders⟩
    unfold checkEndpoint at hendpoint
    rw [show c.transport = .stdio from hstdio] at hendpoint
    dsimp only at hendpoint ⊢
    cases hcommand : c.command.truthy with
    | true => rfl
    | false => simp [hcommand] at hendpoint

end ServerArguments

theorem convertServer_sound {env : Environment} {server : ServerDefinition} {c : ServerArguments}
    (h : convertServer env server = .ok c) : c.Sound := by
  unfold convertServer at h
  simp only [bind_eq_ok] at h
  obtain ⟨_, -, _, -, hpost⟩ := h
  exact ServerArguments.postInit_sound hpost

/-- Every configuration that comes out of a policy is sound. -/
theorem convertToServerConfigs_sound {env : Environment} {policy : PolicyConfig}
    {cs : List ServerArguments} (h : convertToServerConfigs env policy = .ok cs) :
    ∀ c ∈ cs, c.Sound := by
  intro c hc
  have hall := forall₂_of_mapM_eq_ok h
  obtain ⟨server, -, hserver⟩ := exists_left_of_forall₂ hall hc
  exact convertServer_sound hserver

/-- A string that may be absent. -/
def optionalText : Value → Option (Option String)
  | .none => some none
  | .str s => some (some s)
  | _ => none

/-- A header of two strings. -/
def headerPair (entry : Scalar × Value) : Option (String × String) :=
  match entry with
  | (.str name, .str value) => some (name, value)
  | _ => none

namespace ServerArguments

/-- The configuration that the proxy works with, when its own fields have the types of their
annotations. What the command, the arguments and the environment are is seen by
`StdioServerParameters` alone. -/
def config? (accepts : Value → List Value → Dict → Bool) (c : ServerArguments) :
    Option ServerConfig := do
  let name ← c.name.asScalar?
  let targetAudience ← optionalText c.targetAudience
  let requiredScopes ← c.requiredScopes.mapM Value.asStr?
  let headers ← c.headers.mapM headerPair
  return {
    name
    transport := c.transport
    tokenExchange := c.tokenExchange.truthy
    targetAudience, requiredScopes, headers
    parametersAccepted := accepts c.command c.args c.env }

variable {accepts : Value → List Value → Dict → Bool}

theorem config?_eq_some {c : ServerArguments} {config : ServerConfig}
    (h : c.config? accepts = some config) : config.transport = c.transport ∧
      config.tokenExchange = c.tokenExchange.truthy ∧
        optionalText c.targetAudience = some config.targetAudience := by
  unfold config? at h
  simp only [Option.bind_eq_bind, Option.bind_eq_some_iff, Option.pure_def,
    Option.some.injEq] at h
  obtain ⟨_, -, audience, haudience, _, -, _, -, rfl⟩ := h
  exact ⟨rfl, rfl, haudience⟩

/-- A sound configuration that exchanges tokens is remote and has an audience. -/
theorem Sound.exchange_of_config? {c : ServerArguments} (hc : c.Sound) {config : ServerConfig}
    (h : c.config? accepts = some config) (hexchange : config.tokenExchange = true) :
    config.transport ≠ .stdio ∧ config.targetAudience.getD "" ≠ "" := by
  obtain ⟨htransport, htoken, haudience⟩ := config?_eq_some h
  rw [htoken] at hexchange
  obtain ⟨hremote, htruthy⟩ := hc.exchange hexchange
  refine ⟨by rwa [htransport], ?_⟩
  unfold optionalText at haudience
  split at haudience
  · rename_i heq
    rw [heq] at htruthy
    cases htruthy
  · rename_i s heq
    obtain hs := Option.some.inj haudience
    rw [heq] at htruthy
    rw [← hs]
    simpa [Value.truthy, Scalar.truthy] using htruthy
  · cases haudience

end ServerArguments

/-- A text without references is sent as it stands, in every environment. -/
theorem expandText_of_no_ref (env : Environment) {value : String}
    (h : ∀ name, .ref name ∉ Template.pieces referenceMarks value.toList) :
    expandText env value = (value, []) := by
  have hfill : Template.fill (variableValue env) (Template.pieces referenceMarks value.toList) =
      value.toList := by
    rw [Template.fill_of_no_ref referenceMarks _ h, Template.write_pieces]
  have hmissing : Template.missing (variableValue env)
      (Template.pieces referenceMarks value.toList) = [] :=
    (Template.missing_eq_nil_iff _).mpr fun name hname => absurd hname (h name)
  rw [expandText, hfill, hmissing, String.ofList_toList, List.map_nil]

theorem expandHeaders_of_no_ref (env : Environment) (server : Value)
    {headers : List (Scalar × String)} (h : ∀ header ∈ headers, ∀ name,
      .ref name ∉ Template.pieces referenceMarks header.2.toList) :
    expandHeaders env server (headers.map fun header => (header.1, .str header.2)) =
      .ok (headers.map fun header => (header.1, .str header.2)) := by
  induction headers with
  | nil => rfl
  | cons header headers ih =>
    rw [List.forall_mem_cons] at h
    have hexpand : expandText env header.2 = (header.2, []) := expandText_of_no_ref env h.1
    rw [List.map_cons, expandHeaders]
    simp only [headerText, bind, Except.bind, hexpand, ih h.2]
    rfl

/-- A header whose value is written as a template. -/
structure HeaderTemplate where
  key : Scalar
  parts : List (Piece Char)
  plain : Template.Plain referenceMarks parts

namespace HeaderTemplate

variable (env : Environment) (h : HeaderTemplate)

/-- The header as the policy file has it. -/
def entry : Scalar × Value :=
  (h.key, .str (String.ofList (Template.write referenceMarks h.parts)))

/-- The header with the values of its variables. -/
def filled : Scalar × Value :=
  (h.key, .str (String.ofList (Template.fill (variableValue env) h.parts)))

/-- The variables that are not set. -/
def unset : List String := (Template.missing (variableValue env) h.parts).map String.ofList

theorem expandText_entry :
    expandText env (String.ofList (Template.write referenceMarks h.parts)) =
      (String.ofList (Template.fill (variableValue env) h.parts), h.unset env) := by
  unfold expandText
  rw [String.toList_ofList, Template.pieces_write referenceMarks h.plain]
  rfl

end HeaderTemplate

theorem expandHeaders_entries (env : Environment) (server : Value) (hs : List HeaderTemplate) :
    expandHeaders env server (hs.map (·.entry)) =
      match hs.find? fun h => h.unset env != [] with
      | some h => .error (unsetVariables server h.key (h.unset env))
      | none => .ok (hs.map (·.filled env)) := by
  induction hs with
  | nil => rfl
  | cons h hs ih =>
    have htext : headerText h.entry.2 =
        .ok (String.ofList (Template.write referenceMarks h.parts)) := rfl
    rw [List.map_cons, List.find?_cons, HeaderTemplate.entry, expandHeaders]
    simp only [headerText, bind, Except.bind, h.expandText_entry env, ih]
    by_cases hunset : h.unset env = []
    · rw [hunset]
      cases hs.find? fun h => h.unset env != [] with
      | none => rfl
      | some k => rfl
    · have hfound : (h.unset env != []) = true := by simpa using hunset
      rw [hfound, if_pos hunset]
      rfl

/-- Header templates are filled in one pass, and a value that stands in for a reference is not
read again. The first header with a variable that is not set refuses the server and names all of
its unset variables in order. Headers without references are left as they are, whatever else is
in them. -/
theorem expandHeaders_templates (env : Environment) (server : Value) :
    (∀ hs : List HeaderTemplate, expandHeaders env server (hs.map (·.entry)) =
      match hs.find? fun h => h.unset env != [] with
      | some h => .error (unsetVariables server h.key (h.unset env))
      | none => .ok (hs.map (·.filled env))) ∧
    ∀ headers : List (Scalar × String), (∀ header ∈ headers, ∀ name,
        .ref name ∉ Template.pieces referenceMarks header.2.toList) →
      expandHeaders env server (headers.map fun header => (header.1, .str header.2)) =
        .ok (headers.map fun header => (header.1, .str header.2)) :=
  ⟨expandHeaders_entries env server, fun _ h => expandHeaders_of_no_ref env server h⟩

end McpZero.Transport
