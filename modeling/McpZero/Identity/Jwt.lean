import McpZero.Identity.Hook
import McpZero.Identity.Jwks

/-! `JWTValidator`: tokens are decoded with the keys of the provider, and once more with fresh
keys when none of them fits the signature. -/
namespace McpZero.Identity
open Python

/-- The options that the validator passes to `pyjwt.decode`. -/
structure DecodeOptions where
  algorithms : List String
  issuer : String
  audience : String
  require : List String

/-- The exceptions of `pyjwt.decode`, told apart as the handlers do. `pyJwt` is any other
`PyJWTError`, `library` is no `PyJWTError`. -/
inductive JwtError
  | expiredSignature (message : String)
  | immatureSignature (message : String)
  | invalidIssuer (message : String)
  | invalidAudience (message : String)
  | missingRequiredClaim (message : String)
  | invalidSignature (message : String)
  | pyJwt (message : String)
  | library (e : LibraryError)

/-- The exceptions of the validator: `TokenValidationError` and its subclass with the reason
they store, or another one. -/
inductive ValidationError
  | validation (typeName message reason : String)
  | other (e : Exc)

def ValidationError.toExc : ValidationError → Exc
  | validation typeName message _ => .identity typeName message
  | other e => e

def tokenValidationError (message reason : String) : ValidationError :=
  .validation "TokenValidationError" message reason

def tokenExpiredError : ValidationError :=
  .validation "TokenExpiredError" "Token has expired" "expired"

/-- The fields of `TokenClaims` as they come out of a token. -/
structure ExtractedClaims where
  userId : Value
  email : Value
  groups : List Value
  rawClaims : Dict

/-- The claims for the context, where a user, an address and a group are texts. -/
def ExtractedClaims.toTokenClaims (claims : ExtractedClaims) : TokenClaims where
  userId := claims.userId.text
  email :=
    match claims.email with
    | .none => none
    | email => some email.text
  groups := claims.groups.map Value.text

/-- `_extract_claims`. -/
def extractClaims (mapping : ClaimMapping) (claims : Dict) :
    Except ValidationError ExtractedClaims :=
  let userId := claims.getD mapping.userId .none
  if !userId.truthy then
    .error (tokenValidationError
      ("Required claim '" ++ mapping.userId ++ "' is missing or empty") "missing_claim")
  else
    .ok {
      userId := userId
      email := claims.getD mapping.email .none
      groups := ((claims.getD mapping.groups (.list [])).asList?).getD []
      rawClaims := claims }

/-- One round of the loop over the keys: on to the next key with the text of the exception, or
the end of the loop. -/
def tryKey (mapping : ClaimMapping) :
    Except JwtError Dict → String ⊕ Except ValidationError ExtractedClaims
  | .ok claims => .inr (extractClaims mapping claims)
  | .error (.expiredSignature _) => .inr (.error tokenExpiredError)
  | .error (.immatureSignature m) =>
    .inr (.error (tokenValidationError ("Token is not yet valid (nbf): " ++ m) "not_yet_valid"))
  | .error (.invalidIssuer m) =>
    .inr (.error (tokenValidationError ("Invalid issuer: " ++ m) "invalid_issuer"))
  | .error (.invalidAudience m) =>
    .inr (.error (tokenValidationError ("Invalid audience: " ++ m) "invalid_audience"))
  | .error (.missingRequiredClaim m) =>
    .inr (.error (tokenValidationError ("Missing required claim: " ++ m) "missing_claim"))
  | .error (.invalidSignature m) => .inl m
  | .error (.pyJwt m) =>
    .inr (.error (tokenValidationError ("Token validation failed: " ++ m) "invalid_token"))
  | .error (.library e) => .inr (.error (.other e.toExc))

/-- `_decode_with_keys`, with what `pyjwt.decode` makes of the token and a key. -/
def decodeWithKeys {κ : Type} (mapping : ClaimMapping) (decode : κ → Except JwtError Dict)
    (lastError : Option String) : List κ → Except ValidationError ExtractedClaims
  | [] => .error (tokenValidationError
      ("No matching signing key found: " ++ lastError.getD "None") "invalid_signature")
  | key :: keys =>
    match tryKey mapping (decode key) with
    | .inl message => decodeWithKeys mapping decode (some message) keys
    | .inr result => result

/-- The validator and its key client with the code outside the repository that they call: the
HTTP client and the clock, on a state of the world `σ`, and the JWT library. -/
structure JWTValidator (σ κ : Type) where
  config : IdentityConfig
  get : Value → σ → Fetched × σ
  monotonic : σ → ℚ
  pyJwk : Value → Except LibraryError κ
  decode : σ → String → κ → DecodeOptions → Except JwtError Dict

namespace JWTValidator

variable {σ κ : Type} (v : JWTValidator σ κ)

def issuer : String := stripSlashes v.config.issuer

/-- The URL of the keys, by discovery where it is not known. -/
def jwksUri : Action (JWKSClient κ × σ) Value := fun (c, s) =>
  match c.jwksUri with
  | some jwksUri => (.ok jwksUri, c, s)
  | none =>
    let (answer, s) := v.get (.str (discoveryUrl v.issuer)) s
    match discoveredUri v.issuer answer with
    | .ok jwksUri => (.ok jwksUri, { c with jwksUri := some jwksUri }, s)
    | .error e => (.error e, c, s)

/-- `_fetch_keys`. -/
def fetchKeys : Action (JWKSClient κ × σ) Unit := fun w =>
  match v.jwksUri w with
  | (.error e, w) => (.error e, w)
  | (.ok jwksUri, c, s) =>
    let (answer, s) := v.get jwksUri s
    match fetchedKeys v.pyJwk jwksUri answer with
    | .ok keys => (.ok (), { c with keys := keys, lastFetch := v.monotonic s }, s)
    | .error e => (.error e, c, s)

/-- `get_signing_keys` where nothing runs beside it: the lock is free, and the second check of
the cache says what the first one did. -/
def getSigningKeys (forceRefresh : Bool) : Action (JWKSClient κ × σ) (List κ) := fun (c, s) =>
  if !forceRefresh && c.isCacheValid v.config.jwksCacheTtl (v.monotonic s) then (.ok c.keys, c, s)
  else
    match v.fetchKeys (c, s) with
    | (.error e, w) => (.error e, w)
    | (.ok (), c, s) => (.ok c.keys, c, s)

def decodeOptions : DecodeOptions where
  algorithms := ["RS256", "RS384", "RS512"]
  issuer := v.config.issuer
  audience := v.config.audience
  require := ["exp", "iss", "aud", "sub"]

/-- `_decode_with_keys` in the world as it is. -/
def decoded (s : σ) (token : String) (keys : List κ) : Except ValidationError ExtractedClaims :=
  decodeWithKeys v.config.claimMapping (fun key => v.decode s token key v.decodeOptions) none keys

/-- `validate_token`. -/
def validateToken (token : String) (w : JWKSClient κ × σ) :
    Except ValidationError ExtractedClaims × (JWKSClient κ × σ) :=
  match v.getSigningKeys false w with
  | (.error e, w) => (.error (.other e), w)
  | (.ok keys, w) =>
    match v.decoded w.2 token keys with
    | .error (.validation typeName message reason) =>
      if reason ≠ "invalid_signature" then (.error (.validation typeName message reason), w)
      else
        match v.getSigningKeys true w with
        | (.error e, w) => (.error (.other e), w)
        | (.ok keys, w) => (v.decoded w.2 token keys, w)
    | result => (result, w)

/-- The hook that the validator stands behind. -/
def toIdentityHook : IdentityHook (JWKSClient κ × σ) where
  validateToken token w :=
    match v.validateToken token w with
    | (.ok claims, w) => (.ok claims.toTokenClaims, w)
    | (.error e, w) => (.error e.toExc, w)

end JWTValidator

end McpZero.Identity
