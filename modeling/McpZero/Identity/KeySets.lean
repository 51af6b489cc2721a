import McpZero.Identity.Jwt

/-! Which tokens the validator accepts for a list of keys. -/
namespace McpZero.Identity
open Python

/-- What a key is to a token: it verifies the signature, it has the right type but does not
verify it, or it is of a type that cannot be used. -/
inductive KeyKind
  | verifies
  | wrong
  | unusable
  deriving DecidableEq

/-- `pyjwt.decode` checks the signature before the claims. A wrong key raises
`InvalidSignatureError`, an unusable one raises something else, and with a key that verifies the
signature the claims decide. -/
structure SignatureFirst {κ : Type} (decode : κ → Except JwtError Dict) (kind : κ → KeyKind)
    (claims : Except JwtError Dict) : Prop where
  verifies (key : κ) : kind key = .verifies → decode key = claims
  wrong (key : κ) : kind key = .wrong → ∃ m, decode key = .error (.invalidSignature m)
  unusable (key : κ) : kind key = .unusable →
    ∃ e, decode key = .error e ∧ ∀ m, e ≠ .invalidSignature m
  claims (m : String) : claims ≠ .error (.invalidSignature m)

/-- An unusable key stands before every key that verifies the signature. -/
def Shadowed {κ : Type} (kind : κ → KeyKind) (keys : List κ) : Prop :=
  ∃ before key after, keys = before ++ key :: after ∧ kind key = .unusable ∧
    ∀ k ∈ before, kind k ≠ .verifies

/-- The claims pass the checks of the library and hold a user. -/
def ClaimsValid (mapping : ClaimMapping) (claims : Except JwtError Dict) : Prop :=
  ∃ d extracted, claims = .ok d ∧ extractClaims mapping d = .ok extracted

section
variable {κ : Type} {kind : κ → KeyKind}

theorem not_shadowed_nil : ¬ Shadowed kind [] := by
  intro ⟨before, key, after, hsplit, _, _⟩
  simp at hsplit

theorem shadowed_cons {key : κ} {keys : List κ} :
    Shadowed kind (key :: keys) ↔
      kind key = .unusable ∨ kind key ≠ .verifies ∧ Shadowed kind keys := by
  constructor
  · intro ⟨before, key', after, hsplit, hkey', hbefore⟩
    cases before with
    | nil =>
      obtain ⟨rfl, -⟩ := List.cons.inj hsplit
      exact .inl hkey'
    | cons first before =>
      obtain ⟨rfl, hrest⟩ := List.cons.inj hsplit
      obtain ⟨hfirst, hbefore⟩ := List.forall_mem_cons.mp hbefore
      exact .inr ⟨hfirst, before, key', after, hrest, hkey', hbefore⟩
  · intro h
    rcases h with hkey | ⟨hkey, before, key', after, hsplit, hkey', hbefore⟩
    · exact ⟨[], key, keys, rfl, hkey, by simp⟩
    · exact ⟨key :: before, key', after, by rw [hsplit, List.cons_append], hkey',
        List.forall_mem_cons.mpr ⟨hkey, hbefore⟩⟩

/-- The exception asks for fresh keys. -/
def ValidationError.Retries (e : ValidationError) : Prop :=
  ∃ typeName message, e = .validation typeName message "invalid_signature"

theorem not_retries_of_reason {typeName message reason : String} (h : reason ≠ "invalid_signature") :
    ¬ (ValidationError.validation typeName message reason).Retries := by
  intro ⟨_, _, he⟩
  exact h (ValidationError.validation.inj he).2.2

theorem not_retries_of_extractClaims {mapping : ClaimMapping} {claims : Dict}
    {e : ValidationError} (h : extractClaims mapping claims = .error e) : ¬ e.Retries := by
  unfold extractClaims at h
  dsimp only at h
  split at h <;> cases h
  exact not_retries_of_reason (by decide)

theorem tryKey_eq_inl {mapping : ClaimMapping} {r : Except JwtError Dict} {m : String} :
    tryKey mapping r = .inl m ↔ r = .error (.invalidSignature m) := by
  cases r with
  | ok d => simp [tryKey]
  | error e => cases e <;> simp [tryKey]

/-- An exception other than `InvalidSignatureError` ends the loop. -/
theorem tryKey_error (mapping : ClaimMapping) {e : JwtError} (h : ∀ m, e ≠ .invalidSignature m) :
    ∃ e', tryKey mapping (.error e) = .inr (.error e') := by
  cases e with
  | invalidSignature m => exact absurd rfl (h m)
  | _ => exact ⟨_, rfl⟩

/-- Where the loop ends with an exception of its own, no fresh keys are asked for. -/
theorem not_retries_of_tryKey {mapping : ClaimMapping} {r : Except JwtError Dict}
    {e : ValidationError} (h : tryKey mapping r = .inr (.error e)) : ¬ e.Retries := by
  cases r with
  | ok d => exact not_retries_of_extractClaims (Sum.inr.inj h)
  | error e₀ =>
    cases e₀ with
    | invalidSignature m => cases h
    | library e₀ =>
      obtain rfl := Except.error.inj (Sum.inr.inj h)
      exact nofun
    | _ =>
      obtain rfl := Except.error.inj (Sum.inr.inj h)
      exact not_retries_of_reason (by decide)

/-- The key raises `InvalidSignatureError`. -/
def RaisesInvalidSignature (decode : κ → Except JwtError Dict) (key : κ) : Prop :=
  ∃ m, decode key = .error (.invalidSignature m)

variable {mapping : ClaimMapping} {decode : κ → Except JwtError Dict}
  {claims : Except JwtError Dict}

/-- Fresh keys are asked for when every key raises `InvalidSignatureError`. -/
theorem decodeWithKeys_retries_iff (lastError : Option String) (keys : List κ) :
    (∃ e, decodeWithKeys mapping decode lastError keys = .error e ∧ e.Retries) ↔
      ∀ key ∈ keys, RaisesInvalidSignature decode key := by
  induction keys generalizing lastError with
  | nil =>
    have hend : ∀ m, (tokenValidationError m "invalid_signature").Retries := fun m => ⟨_, m, rfl⟩
    simp [decodeWithKeys, hend]
  | cons key keys ih =>
    rw [List.forall_mem_cons]
    cases htry : tryKey mapping (decode key) with
    | inl m =>
      have hraises : RaisesInvalidSignature decode key := ⟨m, tryKey_eq_inl.mp htry⟩
      have hrest : decodeWithKeys mapping decode lastError (key :: keys) =
          decodeWithKeys mapping decode (some m) keys := by rw [decodeWithKeys, htry]
      rw [hrest, ih]
      simp [hraises]
    | inr result =>
      have hraises : ¬ RaisesInvalidSignature decode key := by
        intro ⟨m, hm⟩
        rw [tryKey_eq_inl.mpr hm] at htry
        cases htry
      have hresult : decodeWithKeys mapping decode lastError (key :: keys) = result := by
        rw [decodeWithKeys, htry]
      rw [hresult]
      constructor
      · intro ⟨e, he, hretries⟩
        exact absurd hretries (not_retries_of_tryKey (by rw [htry, he]))
      · intro h
        exact absurd h.1 hraises

/-- One pass over the keys, by the kind of the key in front. -/
theorem decodeWithKeys_cons (mapping : ClaimMapping) (h : SignatureFirst decode kind claims)
    (lastError : Option String) (key : κ) (keys : List κ) :
    (kind key = .verifies ∧
      tryKey mapping claims = .inr (decodeWithKeys mapping decode lastError (key :: keys))) ∨
    (kind key = .wrong ∧ ∃ m, decodeWithKeys mapping decode lastError (key :: keys) =
      decodeWithKeys mapping decode (some m) keys) ∨
    (kind key = .unusable ∧
      ∃ e, decodeWithKeys mapping decode lastError (key :: keys) = .error e) := by
  cases hkind : kind key with
  | verifies =>
    refine .inl ⟨rfl, ?_⟩
    rw [decodeWithKeys, h.verifies key hkind]
    cases hclaims : claims with
    | ok d => rfl
    | error e =>
      have he : ∀ m, e ≠ .invalidSignature m := fun m he => h.claims m (by rw [hclaims, he])
      obtain ⟨e', htry⟩ := tryKey_error mapping he
      rw [htry]
  | wrong =>
    obtain ⟨m, hdecode⟩ := h.wrong key hkind
    exact .inr (.inl ⟨rfl, m, by rw [decodeWithKeys, hdecode, tryKey]⟩)
  | unusable =>
    obtain ⟨e, hdecode, he⟩ := h.unusable key hkind
    obtain ⟨e', htry⟩ := tryKey_error mapping he
    exact .inr (.inr ⟨rfl, e', by rw [decodeWithKeys, hdecode, htry]⟩)

theorem claimsValid_iff {result : Except ValidationError ExtractedClaims}
    (h : tryKey mapping claims = .inr result) :
    ClaimsValid mapping claims ↔ ∃ extracted, result = .ok extracted := by
  cases claims with
  | ok d =>
    have hresult : extractClaims mapping d = result := Sum.inr.inj h
    constructor
    · intro ⟨d', extracted, hd, hextract⟩
      obtain rfl := Except.ok.inj hd
      exact ⟨extracted, by rw [← hresult, hextract]⟩
    · intro ⟨extracted, hok⟩
      exact ⟨d, extracted, rfl, by rw [hresult, hok]⟩
  | error e =>
    constructor
    · intro ⟨d, extracted, hd, _⟩
      cases hd
    · intro ⟨extracted, hok⟩
      subst hok
      cases e <;> cases h

/-- A pass over the keys accepts the token if one of them verifies it, no unusable key shadows
it, and the claims are valid. -/
theorem decodeWithKeys_accepts_iff (h : SignatureFirst decode kind claims)
    (lastError : Option String) (keys : List κ) :
    (∃ extracted, decodeWithKeys mapping decode lastError keys = .ok extracted) ↔
      (∃ key ∈ keys, kind key = .verifies) ∧ ¬ Shadowed kind keys ∧ ClaimsValid mapping claims := by
  induction keys generalizing lastError with
  | nil => simp [decodeWithKeys]
  | cons key keys ih =>
    rw [shadowed_cons, List.exists_mem_cons_iff]
    rcases decodeWithKeys_cons mapping h lastError key keys with
      ⟨hkind, htry⟩ | ⟨hkind, m, hrest⟩ | ⟨hkind, e, herror⟩
    · rw [← claimsValid_iff htry]
      simp [hkind]
    · rw [hrest, ih]
      simp [hkind]
    · rw [herror]
      simp [hkind]

theorem raisesInvalidSignature_iff (h : SignatureFirst decode kind claims) {key : κ} :
    RaisesInvalidSignature decode key ↔ kind key = .wrong := by
  constructor
  · intro ⟨m, hm⟩
    cases hkind : kind key with
    | wrong => rfl
    | verifies =>
      rw [h.verifies key hkind] at hm
      exact absurd hm (h.claims m)
    | unusable =>
      obtain ⟨e, he, hne⟩ := h.unusable key hkind
      rw [he] at hm
      exact absurd (Except.error.inj hm) (hne m)
  · exact h.wrong key

/-- All keys are wrong if none verifies the signature and none is unusable. -/
theorem forall_wrong_iff (keys : List κ) : (∀ key ∈ keys, kind key = .wrong) ↔
    (∀ key ∈ keys, kind key ≠ .verifies) ∧ ¬ Shadowed kind keys := by
  induction keys with
  | nil => simp [not_shadowed_nil]
  | cons key keys ih =>
    rw [shadowed_cons, List.forall_mem_cons, List.forall_mem_cons, ih]
    cases hkind : kind key <;> simp

end

namespace JWTValidator

variable {σ κ : Type} {v : JWTValidator σ κ} {token : String} {w w₁ w₂ : JWKSClient κ × σ}
  {keys refreshed : List κ} {kind : κ → KeyKind} {claims : σ → Except JwtError Dict}

/-- The token is accepted. -/
def Accepts (v : JWTValidator σ κ) (token : String) (w : JWKSClient κ × σ) : Prop :=
  ∃ extracted, (v.validateToken token w).1 = .ok extracted

/-- Some key verifies the signature, of the first list or, failing that, of the refreshed one,
and the claims are valid at the time. -/
def OughtToAccept (keys refreshed : List κ) (kind : κ → KeyKind) (valid valid' : Prop) : Prop :=
  (∃ key ∈ keys, kind key = .verifies) ∧ valid ∨
    (∀ key ∈ keys, kind key ≠ .verifies) ∧ (∃ key ∈ refreshed, kind key = .verifies) ∧ valid'

/-- No unusable key shadows a list that the validator needs: the first list, and the refreshed
one where no key of the first verifies the signature. -/
def Unshadowed (keys refreshed : List κ) (kind : κ → KeyKind) : Prop :=
  ¬ Shadowed kind keys ∧ ((∀ key ∈ keys, kind key ≠ .verifies) → ¬ Shadowed kind refreshed)

/-- The second attempt with fresh keys. -/
def retried (v : JWTValidator σ κ) (token : String) (w : JWKSClient κ × σ) :
    Except ValidationError ExtractedClaims :=
  match v.getSigningKeys true w with
  | (.error e, _) => .error (.other e)
  | (.ok keys, w) => v.decoded w.2 token keys

theorem validateToken_of_ok (token : String)
    (h : v.getSigningKeys false w = (.ok keys, w₁)) :
    (∃ e, v.decoded w₁.2 token keys = .error e ∧ e.Retries) ∧
        (v.validateToken token w).1 = v.retried token w₁ ∨
      (¬ ∃ e, v.decoded w₁.2 token keys = .error e ∧ e.Retries) ∧
        (v.validateToken token w).1 = v.decoded w₁.2 token keys := by
  unfold validateToken retried
  rw [h]
  dsimp only
  cases hdecoded : v.decoded w₁.2 token keys with
  | ok extracted => simp
  | error e =>
    cases e with
    | other e => simp [ValidationError.Retries]
    | validation typeName message reason =>
      by_cases hreason : reason = "invalid_signature"
      · subst hreason
        left
        refine ⟨⟨_, rfl, typeName, message, rfl⟩, ?_⟩
        dsimp only
        rw [if_neg (by simp)]
        cases v.getSigningKeys true w₁ with
        | mk result w₂ => cases result <;> rfl
      · simp [hreason, ValidationError.Retries]

theorem validateToken_of_keys (hkeys : v.getSigningKeys false w = (.ok keys, w₁))
    (hrefreshed : v.getSigningKeys true w₁ = (.ok refreshed, w₂)) :
    v.Accepts token w ↔ (∃ extracted, v.decoded w₁.2 token keys = .ok extracted) ∨
      (∃ e, v.decoded w₁.2 token keys = .error e ∧ e.Retries) ∧
        ∃ extracted, v.decoded w₂.2 token refreshed = .ok extracted := by
  have hretried : v.retried token w₁ = v.decoded w₂.2 token refreshed := by
    simp only [retried, hrefreshed]
  unfold Accepts
  rcases validateToken_of_ok token hkeys with ⟨hretries, hresult⟩ | ⟨hretries, hresult⟩
  · have hrejected : ¬ ∃ extracted, v.decoded w₁.2 token keys = .ok extracted := by
      obtain ⟨e, he, -⟩ := hretries
      simp [he]
    rw [hresult, hretried]
    simp only [hretries, hrejected, true_and, false_or]
  · rw [hresult]
    simp only [hretries, false_and, or_false]

theorem accepts_iff
    (hdecode : ∀ s, SignatureFirst (fun key => v.decode s token key v.decodeOptions) kind
      (claims s))
    (hkeys : v.getSigningKeys false w = (.ok keys, w₁))
    (hrefreshed : v.getSigningKeys true w₁ = (.ok refreshed, w₂)) :
    v.Accepts token w ↔ OughtToAccept keys refreshed kind
      (ClaimsValid v.config.claimMapping (claims w₁.2))
      (ClaimsValid v.config.claimMapping (claims w₂.2)) ∧ Unshadowed keys refreshed kind := by
  have hnone : (∀ key ∈ keys, kind key ≠ .verifies) ↔ ¬ ∃ key ∈ keys, kind key = .verifies := by
    simp
  rw [validateToken_of_keys hkeys hrefreshed]
  unfold decoded OughtToAccept Unshadowed
  simp only [decodeWithKeys_accepts_iff (hdecode w₁.2), decodeWithKeys_accepts_iff (hdecode w₂.2),
    decodeWithKeys_retries_iff, raisesInvalidSignature_iff (hdecode w₁.2), forall_wrong_iff, hnone]
  by_cases hverifies : ∃ key ∈ keys, kind key = .verifies
  · simp only [hverifies, true_and, not_true, false_and, or_false, false_implies, and_true]
    exact and_comm
  · simp only [hverifies, false_and, not_false_eq_true, true_and, false_or, true_implies]
    constructor
    · intro ⟨hshadow, hfresh, hshadow', hvalid⟩
      exact ⟨⟨hfresh, hvalid⟩, hshadow, hshadow'⟩
    · intro ⟨⟨hfresh, hvalid⟩, hshadow, hshadow'⟩
      exact ⟨hshadow, hfresh, hshadow', hvalid⟩

/-- Where the requests for the keys succeed, the validator accepts the tokens that it ought to
and no others, but for those that an unusable key shadows. -/
theorem validateToken_accepts_iff
    (hdecode : ∀ s, SignatureFirst (fun key => v.decode s token key v.decodeOptions) kind
      (claims s))
    (hkeys : v.getSigningKeys false w = (.ok keys, w₁))
    (hrefreshed : v.getSigningKeys true w₁ = (.ok refreshed, w₂)) :
    (v.Accepts token w ↔ OughtToAccept keys refreshed kind
      (ClaimsValid v.config.claimMapping (claims w₁.2))
      (ClaimsValid v.config.claimMapping (claims w₂.2))) ↔
    (OughtToAccept keys refreshed kind
      (ClaimsValid v.config.claimMapping (claims w₁.2))
      (ClaimsValid v.config.claimMapping (claims w₂.2)) → Unshadowed keys refreshed kind) := by
  rw [accepts_iff hdecode hkeys hrefreshed]
  exact and_iff_left_iff_imp

end JWTValidator

/-- A provider with an elliptic curve key beside the RSA key that signs the tokens. The
validator's algorithms are for RSA keys. -/
def mixedProvider (jwks : List Value) : JWTValidator Unit Bool where
  config := { issuer := "https://idp.example.com", audience := "my-app" }
  get url s := (.ok (.dict
    (if url.text == "https://idp.example.com/keys" then [(.str "keys", .list jwks)]
    else [(.str "jwks_uri", .str "https://idp.example.com/keys")])), s)
  monotonic _ := 100
  pyJwk keyData :=
    match keyData with
    | .dict [(.str "kty", .str kty)] => .ok (kty == "RSA")
    | _ => .error ⟨"PyJWKError", "kty is not found"⟩
  decode _ _ isRsa _ :=
    if isRsa then .ok [(.str "sub", .str "user-123")]
    else .error (.library ⟨"TypeError", "Expecting a PEM-formatted key."⟩)

def jwk (kty : String) : Value := .dict [(.str "kty", .str kty)]

def kindOfKey (isRsa : Bool) : KeyKind := if isRsa then .verifies else .unusable

theorem mixedProvider_signatureFirst (jwks : List Value) (s : Unit) :
    SignatureFirst
      (fun key => (mixedProvider jwks).decode s "token" key (mixedProvider jwks).decodeOptions)
      kindOfKey (.ok [(.str "sub", .str "user-123")]) where
  verifies key h := by
    cases key with
    | true => rfl
    | false => cases h
  wrong key h := by cases key <;> cases h
  unusable key h := by
    cases key with
    | true => cases h
    | false => exact ⟨_, rfl, nofun⟩
  claims m := nofun

theorem rsaFirst_accepted :
    ((mixedProvider [jwk "RSA", jwk "EC"]).Accepts "token" ({}, ()) ↔
      JWTValidator.OughtToAccept [true, false] [true, false] kindOfKey
        (ClaimsValid {} (.ok [(.str "sub", .str "user-123")]))
        (ClaimsValid {} (.ok [(.str "sub", .str "user-123")]))) := by
  have hfirst : ¬ Shadowed kindOfKey [true, false] := by
    rw [shadowed_cons]
    simp [kindOfKey]
  exact (JWTValidator.validateToken_accepts_iff (mixedProvider_signatureFirst _) rfl rfl).mpr
    fun _ => ⟨hfirst, fun _ => hfirst⟩

/-- The key that verifies the token is in the list, and the claims are valid, but the elliptic
curve key stands before it. -/
theorem ellipticFirst_rejected :
    (∀ s, SignatureFirst
      (fun key => (mixedProvider [jwk "EC", jwk "RSA"]).decode s "token" key
        (mixedProvider [jwk "EC", jwk "RSA"]).decodeOptions)
      kindOfKey (.ok [(.str "sub", .str "user-123")])) ∧
    ∃ w₁ w₂, (mixedProvider [jwk "EC", jwk "RSA"]).getSigningKeys false ({}, ()) =
        (.ok [false, true], w₁) ∧
      (mixedProvider [jwk "EC", jwk "RSA"]).getSigningKeys true w₁ = (.ok [false, true], w₂) ∧
      ¬ ((mixedProvider [jwk "EC", jwk "RSA"]).Accepts "token" ({}, ()) ↔
        JWTValidator.OughtToAccept [false, true] [false, true] kindOfKey
          (ClaimsValid {} (.ok [(.str "sub", .str "user-123")]))
          (ClaimsValid {} (.ok [(.str "sub", .str "user-123")]))) := by
  refine ⟨mixedProvider_signatureFirst _, _, _, rfl, rfl, fun h => ?_⟩
  have hvalid : ClaimsValid {} (.ok [(.str "sub", .str "user-123")]) := ⟨_, _, rfl, rfl⟩
  have haccepts := h.mpr (.inl ⟨⟨true, by simp, rfl⟩, hvalid⟩)
  exact (by nofun : ¬ (mixedProvider [jwk "EC", jwk "RSA"]).Accepts "token" ({}, ())) haccepts

end McpZero.Identity
