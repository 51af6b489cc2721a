import McpZero.Pipeline.Hooks
import McpZero.Python.Operators
import McpZero.Python.Unicode

/-! The identity hook: bearer tokens become identities. -/
namespace McpZero.Identity
open Python

structure TokenClaims where
  userId : String
  email : Option String := none
  groups : List String := []

/-- The validator is the JWT library and the key set behind it. -/
structure IdentityHook (σ : Type) where
  validateToken : String → Action σ TokenClaims

/-- `header.split(None, 1)` has two parts, the scheme and the rest. -/
private def splitScheme (header : String) : Option (List Char × List Char) :=
  let body := header.toList.dropWhile isWhitespace
  let scheme := body.takeWhile (! isWhitespace ·)
  let rest := (body.drop scheme.length).dropWhile isWhitespace
  if scheme.isEmpty || rest.isEmpty then none else some (scheme, rest)

/-- `_parse_bearer`. No character outside ASCII has one of the letters of the scheme as its
lower-case form. -/
def parseBearer (header : String) : Option String :=
  match splitScheme header with
  | some (scheme, token) =>
    if scheme.map Char.toLower == "bearer".toList then some (String.ofList token) else none
  | none => none

namespace IdentityHook

variable {σ : Type} (h : IdentityHook σ)

/-- The bearer token of a request. Bytes can be split, and their scheme equals no string. -/
def bearerToken (ctx : HookContext) : Except Exc String :=
  let header := ctx.extras.getD "authorization" (.str "")
  if !header.truthy then .error (.shortCircuit (.str "Missing Authorization header") true)
  else
    match header with
    | .str s =>
      match parseBearer s with
      | none => .error (.shortCircuit (.str "Malformed Authorization header") true)
      | some token => .ok token
    | .bytes _ => .error (.shortCircuit (.str "Malformed Authorization header") true)
    | v => .error (Value.noAttribute v "split")

/-- An identity error denies the request; any other exception passes. -/
def authenticationFailed : Exc → Exc
  | .identity _ m => .shortCircuit (.str ("Authentication failed: " ++ m)) true
  | .tokenExchange m _ => .shortCircuit (.str ("Authentication failed: " ++ m)) true
  | e => e

/-- The context with the identity of a validated token. -/
def enrich (ctx : HookContext) (token : String) (claims : TokenClaims) : HookContext :=
  { ctx with request :=
    { ctx.request with
      identity := some ⟨claims.userId, claims.email, claims.groups⟩
      rawToken := some token } }

def onPreValidation (ctx : HookContext) : Action σ HookContext := fun s =>
  match bearerToken ctx with
  | .error e => (.error e, s)
  | .ok token =>
    match h.validateToken token s with
    | (.ok claims, s) => (.ok (enrich ctx token claims), s)
    | (.error e, s) => (.error (authenticationFailed e), s)

def toHook : Pipeline.LifecycleHook σ where
  name := "IdentityHook"
  onPreValidation := h.onPreValidation

end IdentityHook

end McpZero.Identity
