import Mathlib.Data.List.DropRight
import Mathlib.Data.Rat.Defs
import McpZero.Lib.Except
import McpZero.Python.Operators

/-! `JWKSClient`: the signing keys of the identity provider, found by discovery and cached. -/
namespace McpZero.Identity
open Python

/-- The claims of a token that hold the identity. -/
structure ClaimMapping where
  userId : String := "sub"
  email : String := "email"
  groups : String := "groups"

structure IdentityConfig where
  issuer : String
  audience : String
  jwksCacheTtl : ℤ := 3600
  claimMapping : ClaimMapping := {}

/-- An exception of a library, which is never one of the identity errors. -/
structure LibraryError where
  typeName : String
  message : String
  deriving DecidableEq, Repr

def LibraryError.toExc (e : LibraryError) : Exc := .other e.typeName e.message

/-- What a GET comes to, up to and including `response.json()`: a JSON value, or the text of an
exception. -/
abbrev Fetched := Except String Value

def jwksFetchError (message : String) : Exc := .identity "JWKSFetchError" message

/-- `issuer.rstrip("/")`. -/
def stripSlashes (issuer : String) : String :=
  String.ofList (issuer.toList.rdropWhile (· == '/'))

def discoveryUrl (issuer : String) : String := issuer ++ "/.well-known/openid-configuration"

/-- `_discover_jwks_uri` after the provider has answered. -/
def discoveredUri (issuer : String) : Fetched → Except Exc Value
  | .error e => .error (jwksFetchError
      ("Failed to fetch OIDC discovery from " ++ discoveryUrl issuer ++ ": " ++ e))
  | .ok config => do
    let jwksUri ← config.getKey "jwks_uri"
    if !jwksUri.truthy then
      .error (jwksFetchError
        ("No jwks_uri in OIDC discovery response from " ++ discoveryUrl issuer))
    else .ok jwksUri

section
variable {κ : Type} (pyJwk : Value → Except LibraryError κ)

/-- The constructor `PyJWK` raises what it raises. -/
def signingKey (keyData : Value) : Except Exc κ := (pyJwk keyData).mapError LibraryError.toExc

/-- The keys of a JWKS response, as `_fetch_keys` builds them. -/
def fetchedKeys (jwksUri : Value) : Fetched → Except Exc (List κ)
  | .error e => .error (jwksFetchError
      ("Failed to fetch JWKS from " ++ jwksUri.text ++ ": " ++ e))
  | .ok jwksData => do
    let rawKeys ← jwksData.getKeyD "keys" (.list [])
    if !rawKeys.truthy then
      .error (jwksFetchError ("No keys found in JWKS response from " ++ jwksUri.text))
    else do
      let items ← rawKeys.iter
      items.mapM (signingKey pyJwk)

end

/-- The fields of the client that outlive a call, but for the lock. -/
structure JWKSClient (κ : Type) where
  jwksUri : Option Value := none
  keys : List κ := []
  lastFetch : ℚ := 0

namespace JWKSClient

variable {κ : Type}

/-- `now` is the monotonic clock. -/
def isCacheValid (jwksCacheTtl : ℤ) (now : ℚ) (c : JWKSClient κ) : Bool :=
  if c.keys.isEmpty || c.lastFetch == 0 then false
  else decide (now - c.lastFetch < jwksCacheTtl)

theorem isCacheValid_iff {jwksCacheTtl : ℤ} {now : ℚ} {c : JWKSClient κ} :
    c.isCacheValid jwksCacheTtl now ↔
      c.keys ≠ [] ∧ c.lastFetch ≠ 0 ∧ now - c.lastFetch < jwksCacheTtl := by
  simp [isCacheValid, and_assoc]

end JWKSClient

/-- Iteration over a truthy value, where it is possible, has an item. -/
theorem iter_ne_nil {v : Value} {items : List Value} (htruthy : v.truthy)
    (h : v.iter = .ok items) : items ≠ [] := by
  cases v with
  | list xs =>
    obtain rfl : xs = items := by simpa [Value.iter] using h
    simpa [Value.truthy] using htruthy
  | group kind xs =>
    obtain rfl : xs = items := by simpa [Value.iter] using h
    simpa [Value.truthy] using htruthy
  | dict entries =>
    obtain rfl := Except.ok.inj h
    simpa [Value.truthy] using htruthy
  | scalar a =>
    cases a with
    | str s =>
      obtain rfl := Except.ok.inj h
      simpa [Value.truthy, Scalar.truthy] using htruthy
    | bytes bs =>
      obtain rfl := Except.ok.inj h
      simpa [Value.truthy, Scalar.truthy] using htruthy
    | _ => cases h

/-- A fetch that succeeds brings keys. -/
theorem fetchedKeys_ne_nil {κ : Type} {pyJwk : Value → Except LibraryError κ} {jwksUri : Value}
    {answer : Fetched} {keys : List κ} (h : fetchedKeys pyJwk jwksUri answer = .ok keys) :
    keys ≠ [] := by
  cases answer with
  | error e => cases h
  | ok jwksData =>
    obtain ⟨rawKeys, -, h⟩ := Lib.bind_eq_ok.mp h
    split at h
    · cases h
    · rename_i htruthy
      obtain ⟨items, hiter, h⟩ := Lib.bind_eq_ok.mp h
      have hitems : items ≠ [] := iter_ne_nil (by simpa using htruthy) hiter
      have hlength := (Lib.forall₂_of_mapM_eq_ok h).length_eq
      rw [← List.length_pos_iff] at hitems ⊢
      omega

end McpZero.Identity
