import McpZero.Identity.KeySets
import McpZero.Identity.ProviderAnswers

/-! When the validator fails with identity errors alone: no answer of the provider and no
exception of the JWT library that it comes to goes unconverted. -/
namespace McpZero.Identity
open Python Lib

/-- An exception of the validator that the hook does not convert. -/
def ForeignFailure (e : ValidationError) : Prop := Foreign e.toExc

theorem not_foreign_validation (typeName message reason : String) :
    ¬ ForeignFailure (.validation typeName message reason) := fun h => h trivial

section
variable {κ : Type} {mapping : ClaimMapping} {decode : κ → Except JwtError Dict}

/-- The key makes the library raise an exception that is no `PyJWTError`. -/
def RaisesUnconverted (decode : κ → Except JwtError Dict) (key : κ) : Prop :=
  ∃ e, decode key = .error (.library e)

/-- No key that the loop comes to, all keys before it raising `InvalidSignatureError`, makes the
library raise an exception that is no `PyJWTError`. -/
def DecodeFits (decode : κ → Except JwtError Dict) (keys : List κ) : Prop :=
  Reached (RaisesInvalidSignature decode) (fun key => ¬ RaisesUnconverted decode key) keys

theorem extractClaims_avoids (mapping : ClaimMapping) (claims : Dict) :
    Avoids ForeignFailure (extractClaims mapping claims) := by
  intro e he
  unfold extractClaims at he
  dsimp only at he
  split at he <;> cases he
  exact not_foreign_validation _ _ _

theorem avoids_of_tryKey {key : κ} {result : Except ValidationError ExtractedClaims}
    (h : tryKey mapping (decode key) = .inr result) :
    Avoids ForeignFailure result ↔ ¬ RaisesUnconverted decode key := by
  unfold RaisesUnconverted
  cases hdecode : decode key with
  | ok claims =>
    rw [hdecode] at h
    obtain rfl := Sum.inr.inj h
    simp [extractClaims_avoids]
  | error e =>
    rw [hdecode] at h
    cases e with
    | invalidSignature m => cases h
    | library e =>
      obtain rfl := Sum.inr.inj h
      have hforeign : ForeignFailure (.other e.toExc) := foreign_other _ _
      simp [avoids_error, hforeign]
    | _ =>
      obtain rfl := Sum.inr.inj h
      simp [avoids_error, tokenValidationError, tokenExpiredError, not_foreign_validation]

theorem decodeWithKeys_avoids (lastError : Option String) (keys : List κ) :
    Avoids ForeignFailure (decodeWithKeys mapping decode lastError keys) ↔
      DecodeFits decode keys := by
  unfold DecodeFits
  induction keys generalizing lastError with
  | nil =>
    rw [decodeWithKeys, avoids_error]
    exact iff_of_true (not_foreign_validation _ _ _) reached_nil
  | cons key keys ih =>
    rw [reached_cons]
    cases htry : tryKey mapping (decode key) with
    | inl m =>
      have hdecode := tryKey_eq_inl.mp htry
      have hraises : RaisesInvalidSignature decode key := ⟨m, hdecode⟩
      have hconverted : ¬ RaisesUnconverted decode key := by
        rintro ⟨e, he⟩
        rw [hdecode] at he
        cases he
      have hrest : decodeWithKeys mapping decode lastError (key :: keys) =
          decodeWithKeys mapping decode (some m) keys := by rw [decodeWithKeys, htry]
      rw [hrest, ih]
      simp [hraises, hconverted]
    | inr result =>
      have hraises : ¬ RaisesInvalidSignature decode key := by
        rintro ⟨m, hm⟩
        rw [tryKey_eq_inl.mpr hm] at htry
        cases htry
      have hresult : decodeWithKeys mapping decode lastError (key :: keys) = result := by
        rw [decodeWithKeys, htry]
      rw [hresult, avoids_of_tryKey htry]
      simp [hraises]

theorem plain_of_tryKey {r : Except JwtError Dict} {e : ValidationError}
    (h : tryKey mapping r = .inr (.error e)) : Plain e.toExc := by
  cases r with
  | ok claims =>
    have hextract : extractClaims mapping claims = .error e := Sum.inr.inj h
    unfold extractClaims at hextract
    dsimp only at hextract
    split at hextract <;> cases hextract
    exact .inl trivial
  | error e₀ =>
    cases e₀ with
    | invalidSignature m => cases h
    | library e₀ =>
      obtain rfl := Except.error.inj (Sum.inr.inj h)
      exact .inr ⟨_, _, rfl⟩
    | _ =>
      obtain rfl := Except.error.inj (Sum.inr.inj h)
      exact .inl trivial

theorem plain_of_decodeWithKeys {lastError : Option String} {keys : List κ} {e : ValidationError}
    (h : decodeWithKeys mapping decode lastError keys = .error e) : Plain e.toExc := by
  induction keys generalizing lastError with
  | nil =>
    obtain rfl := Except.error.inj h
    exact .inl trivial
  | cons key keys ih =>
    rw [decodeWithKeys] at h
    split at h
    · exact ih h
    · rename_i result htry
      exact plain_of_tryKey (by rw [htry, h])

end

namespace JWTValidator

variable {σ κ : Type} (v : JWTValidator σ κ)

/-- The first request to the provider. -/
def discovery (s : σ) : Fetched × σ := v.get (.str (discoveryUrl v.issuer)) s

/-- The URL of the keys is known, or the discovery endpoint names it. -/
inductive KeysUrl (w : JWKSClient κ × σ) (jwksUri : Value) : JWKSClient κ × σ → Prop
  | known : w.1.jwksUri = some jwksUri → KeysUrl w jwksUri w
  | discovered (d : Dict) (s : σ) : w.1.jwksUri = none → v.discovery w.2 = (.ok (.dict d), s) →
    Dict.getD d "jwks_uri" .none = jwksUri → jwksUri.truthy →
    KeysUrl w jwksUri ({ w.1 with jwksUri := some jwksUri }, s)

/-- A call of `get_signing_keys` is answered from the cache. -/
def UsesCache (force : Bool) (w : JWKSClient κ × σ) : Prop :=
  force = false ∧ w.1.isCacheValid v.config.jwksCacheTtl (v.monotonic w.2)

/-- The keys that `get_signing_keys` has to give: those of the cache, or those of the JWKS
document. -/
inductive Supplies (force : Bool) (w : JWKSClient κ × σ) : List κ → JWKSClient κ × σ → Prop
  | cached : v.UsesCache force w → Supplies force w w.1.keys w
  | fetched (jwksUri : Value) (w₁ : JWKSClient κ × σ) (d : Dict) (s : σ) (items : List Value)
      (keys : List κ) :
    ¬ v.UsesCache force w → v.KeysUrl w jwksUri w₁ → v.get jwksUri w₁.2 = (.ok (.dict d), s) →
    (rawKeys d).truthy → (rawKeys d).iter = .ok items →
    List.Forall₂ (fun item key => v.pyJwk item = .ok key) items keys →
    Supplies force w keys ({ w₁.1 with keys := keys, lastFetch := v.monotonic s }, s)

/-- The provider's answers to a fetch have the shapes that the client expects. -/
structure FetchFits (w : JWKSClient κ × σ) : Prop where
  discovery : w.1.jwksUri = none → AnswersObject (v.discovery w.2).1
  keys (jwksUri : Value) (w₁ : JWKSClient κ × σ) :
    v.KeysUrl w jwksUri w₁ → AnswersKeys v.pyJwk (v.get jwksUri w₁.2).1

variable {v} {w w' : JWKSClient κ × σ} {force : Bool} {keys : List κ}

theorem jwksUri_of_known {jwksUri : Value} (h : w.1.jwksUri = some jwksUri) :
    v.jwksUri w = (.ok jwksUri, w) := by
  obtain ⟨c, s⟩ := w
  have hknown : c.jwksUri = some jwksUri := h
  simp only [JWTValidator.jwksUri, hknown]

theorem jwksUri_of_unknown (h : w.1.jwksUri = none) :
    v.jwksUri w =
      match discoveredUri v.issuer (v.discovery w.2).1 with
      | .ok jwksUri => (.ok jwksUri, { w.1 with jwksUri := some jwksUri }, (v.discovery w.2).2)
      | .error e => (.error e, w.1, (v.discovery w.2).2) := by
  obtain ⟨c, s⟩ := w
  have hknown : c.jwksUri = none := h
  simp only [JWTValidator.jwksUri, hknown]
  rfl

theorem jwksUri_avoids :
    Avoids Foreign (v.jwksUri w).1 ↔ (w.1.jwksUri = none → AnswersObject (v.discovery w.2).1) := by
  cases hknown : w.1.jwksUri with
  | some jwksUri => simp [jwksUri_of_known hknown, avoids_ok]
  | none =>
    rw [jwksUri_of_unknown hknown, ← discoveredUri_avoids v.issuer]
    cases discoveredUri v.issuer (v.discovery w.2).1 with
    | ok jwksUri => simp [avoids_ok]
    | error e => simp

theorem jwksUri_eq_ok {jwksUri : Value} :
    v.jwksUri w = (.ok jwksUri, w') ↔ v.KeysUrl w jwksUri w' := by
  constructor
  · intro h
    cases hknown : w.1.jwksUri with
    | some known =>
      rw [jwksUri_of_known hknown] at h
      obtain ⟨huri, rfl⟩ := Prod.mk.inj h
      obtain rfl := Except.ok.inj huri
      exact .known hknown
    | none =>
      rw [jwksUri_of_unknown hknown] at h
      cases huri : discoveredUri v.issuer (v.discovery w.2).1 with
      | error e =>
        rw [huri] at h
        cases h
      | ok found =>
        rw [huri] at h
        cases h
        obtain ⟨d, hanswer, hd, htruthy⟩ := discoveredUri_eq_ok.mp huri
        exact .discovered d _ hknown (Prod.ext hanswer rfl) hd htruthy
  · intro h
    cases h with
    | known hknown => exact jwksUri_of_known hknown
    | discovered d s hknown hanswer hd htruthy =>
      have huri : discoveredUri v.issuer (v.discovery w.2).1 = .ok jwksUri :=
        discoveredUri_eq_ok.mpr ⟨d, by rw [hanswer], hd, htruthy⟩
      rw [jwksUri_of_unknown hknown, huri, hanswer]

theorem fetchKeys_of_error {e : Exc} (h : v.jwksUri w = (.error e, w')) :
    v.fetchKeys w = (.error e, w') := by
  simp only [fetchKeys, h]

theorem fetchKeys_of_ok {jwksUri : Value} (h : v.jwksUri w = (.ok jwksUri, w')) :
    v.fetchKeys w =
      match fetchedKeys v.pyJwk jwksUri (v.get jwksUri w'.2).1 with
      | .ok keys => (.ok (), { w'.1 with
          keys := keys
          lastFetch := v.monotonic (v.get jwksUri w'.2).2 }, (v.get jwksUri w'.2).2)
      | .error e => (.error e, w'.1, (v.get jwksUri w'.2).2) := by
  unfold fetchKeys
  rewrite [h]
  rfl

theorem fetchKeys_avoids : Avoids Foreign (v.fetchKeys w).1 ↔ v.FetchFits w := by
  have hfits : v.FetchFits w ↔ Avoids Foreign (v.jwksUri w).1 ∧ ∀ jwksUri w₁,
      v.jwksUri w = (.ok jwksUri, w₁) → AnswersKeys v.pyJwk (v.get jwksUri w₁.2).1 := by
    simp only [jwksUri_avoids, jwksUri_eq_ok]
    exact ⟨fun h => ⟨h.discovery, h.keys⟩, fun h => ⟨h.1, h.2⟩⟩
  rw [hfits]
  cases huri : v.jwksUri w with
  | mk result w₁ =>
    cases result with
    | error e => simp [fetchKeys_of_error huri, avoids_error]
    | ok jwksUri =>
      have honly : (∀ jwksUri' w₁', ((Except.ok jwksUri, w₁) : Except Exc Value × _) =
          (.ok jwksUri', w₁') → AnswersKeys v.pyJwk (v.get jwksUri' w₁'.2).1) ↔
          AnswersKeys v.pyJwk (v.get jwksUri w₁.2).1 := by
        constructor
        · intro h
          exact h jwksUri w₁ rfl
        · intro h jwksUri' w₁' heq
          cases heq
          exact h
      rw [honly, fetchKeys_of_ok huri, ← fetchedKeys_avoids jwksUri]
      cases fetchedKeys v.pyJwk jwksUri (v.get jwksUri w₁.2).1 with
      | ok keys => simp [avoids_ok]
      | error e => simp [avoids_ok, avoids_error]

theorem getSigningKeys_of_cached (h : v.UsesCache force w) :
    v.getSigningKeys force w = (.ok w.1.keys, w) := by
  obtain ⟨c, s⟩ := w
  obtain ⟨hforce, hvalid⟩ := h
  simp [getSigningKeys, hforce, hvalid]

theorem getSigningKeys_of_fetch (h : ¬ v.UsesCache force w) :
    v.getSigningKeys force w =
      match v.fetchKeys w with
      | (.error e, w') => (.error e, w')
      | (.ok (), w') => (.ok w'.1.keys, w') := by
  obtain ⟨c, s⟩ := w
  have hfetch : (!force && c.isCacheValid v.config.jwksCacheTtl (v.monotonic s)) = false := by
    simpa [UsesCache] using h
  simp only [getSigningKeys, hfetch, Bool.false_eq_true, if_false]
  cases v.fetchKeys (c, s) with
  | mk result w => cases result <;> rfl

theorem getSigningKeys_avoids :
    Avoids Foreign (v.getSigningKeys force w).1 ↔ (¬ v.UsesCache force w → v.FetchFits w) := by
  by_cases hcached : v.UsesCache force w
  · simp [getSigningKeys_of_cached hcached, hcached, avoids_ok]
  · rw [getSigningKeys_of_fetch hcached, ← fetchKeys_avoids]
    cases hfetch : v.fetchKeys w with
    | mk result w₁ =>
      cases result with
      | ok u => simp [avoids_ok, hcached]
      | error e => simp [hcached, Avoids]

theorem getSigningKeys_eq_ok :
    v.getSigningKeys force w = (.ok keys, w') ↔ v.Supplies force w keys w' := by
  constructor
  · intro h
    by_cases hcached : v.UsesCache force w
    · rw [getSigningKeys_of_cached hcached] at h
      cases h
      exact .cached hcached
    · rw [getSigningKeys_of_fetch hcached] at h
      cases huri : v.jwksUri w with
      | mk result w₁ =>
        cases result with
        | error e =>
          rw [fetchKeys_of_error huri] at h
          cases h
        | ok jwksUri =>
          rw [fetchKeys_of_ok huri] at h
          cases hkeys : fetchedKeys v.pyJwk jwksUri (v.get jwksUri w₁.2).1 with
          | error e =>
            rw [hkeys] at h
            cases h
          | ok fetched =>
            rw [hkeys] at h
            cases h
            obtain ⟨d, items, hanswer, htruthy, hiter, hitems⟩ := fetchedKeys_eq_ok.mp hkeys
            exact .fetched jwksUri w₁ d _ items _ hcached (jwksUri_eq_ok.mp huri)
              (Prod.ext hanswer rfl) htruthy hiter hitems
  · intro h
    cases h with
    | cached hcached => exact getSigningKeys_of_cached hcached
    | fetched jwksUri w₁ d s items keys hcached huri hanswer htruthy hiter hitems =>
      have hkeys : fetchedKeys v.pyJwk jwksUri (v.get jwksUri w₁.2).1 = .ok keys :=
        fetchedKeys_eq_ok.mpr ⟨d, items, by rw [hanswer], htruthy, hiter, hitems⟩
      rw [getSigningKeys_of_fetch hcached, fetchKeys_of_ok (jwksUri_eq_ok.mpr huri), hkeys,
        hanswer]

theorem plain_of_getSigningKeys {e : Exc} (h : v.getSigningKeys force w = (.error e, w')) :
    Plain e := by
  by_cases hcached : v.UsesCache force w
  · rw [getSigningKeys_of_cached hcached] at h
    cases h
  · rw [getSigningKeys_of_fetch hcached] at h
    cases huri : v.jwksUri w with
    | mk result w₁ =>
      cases result with
      | error e' =>
        rw [fetchKeys_of_error huri] at h
        cases h
        cases hknown : w.1.jwksUri with
        | some known =>
          rw [jwksUri_of_known hknown] at huri
          cases huri
        | none =>
          rw [jwksUri_of_unknown hknown] at huri
          cases hdiscovered : discoveredUri v.issuer (v.discovery w.2).1 with
          | ok jwksUri =>
            rw [hdiscovered] at huri
            cases huri
          | error e' =>
            rw [hdiscovered] at huri
            cases huri
            exact plain_of_discoveredUri hdiscovered
      | ok jwksUri =>
        rw [fetchKeys_of_ok huri] at h
        cases hkeys : fetchedKeys v.pyJwk jwksUri (v.get jwksUri w₁.2).1 with
        | ok keys =>
          rw [hkeys] at h
          cases h
        | error e' =>
          rw [hkeys] at h
          cases h
          exact plain_of_fetchedKeys hkeys

/-- What `pyjwt.decode` makes of the token in the world `s`. -/
def decodeToken (v : JWTValidator σ κ) (s : σ) (token : String) (key : κ) : Except JwtError Dict :=
  v.decode s token key v.decodeOptions

/-- Nothing that the validation of the token comes to raises an exception that is not
converted: not the fetch of the keys, not the loop over them, and, where they all raise
`InvalidSignatureError`, not the second fetch and the second loop. -/
structure Fits (v : JWTValidator σ κ) (token : String) (w : JWKSClient κ × σ) : Prop where
  fetch : ¬ v.UsesCache false w → v.FetchFits w
  decode (keys : List κ) (w₁ : JWKSClient κ × σ) :
    v.Supplies false w keys w₁ → DecodeFits (v.decodeToken w₁.2 token) keys
  refetch (keys : List κ) (w₁ : JWKSClient κ × σ) : v.Supplies false w keys w₁ →
    (∀ key ∈ keys, RaisesInvalidSignature (v.decodeToken w₁.2 token) key) → v.FetchFits w₁
  redecode (keys refreshed : List κ) (w₁ w₂ : JWKSClient κ × σ) : v.Supplies false w keys w₁ →
    (∀ key ∈ keys, RaisesInvalidSignature (v.decodeToken w₁.2 token) key) →
    v.Supplies true w₁ refreshed w₂ → DecodeFits (v.decodeToken w₂.2 token) refreshed

variable {token : String} {w₁ : JWKSClient κ × σ}

theorem decoded_avoids (s : σ) :
    Avoids ForeignFailure (v.decoded s token keys) ↔ DecodeFits (v.decodeToken s token) keys :=
  decodeWithKeys_avoids none keys

theorem avoids_other {e : Exc} :
    Avoids ForeignFailure (.error (.other e) : Except ValidationError ExtractedClaims) ↔
      ¬ Foreign e := avoids_error

theorem validateToken_of_error {e : Exc} (h : v.getSigningKeys false w = (.error e, w₁)) :
    v.validateToken token w = (.error (.other e), w₁) := by
  simp only [validateToken, h]

theorem retried_avoids : Avoids ForeignFailure (v.retried token w) ↔
    v.FetchFits w ∧ ∀ refreshed w', v.Supplies true w refreshed w' →
      DecodeFits (v.decodeToken w'.2 token) refreshed := by
  have hforced : ¬ v.UsesCache true w := fun h => by cases h.1
  have hfetch : Avoids Foreign (v.getSigningKeys true w).1 ↔ v.FetchFits w := by
    rw [getSigningKeys_avoids]
    simp [hforced]
  simp only [← hfetch, ← getSigningKeys_eq_ok]
  unfold retried
  cases hkeys : v.getSigningKeys true w with
  | mk result w' =>
    cases result with
    | error e =>
      rw [avoids_other, avoids_error]
      simp
    | ok refreshed =>
      simp only [decoded_avoids, avoids_ok, true_and, Prod.mk.injEq, Except.ok.injEq, and_imp]
      constructor
      · intro h refreshed' w'' hrefreshed hw
        subst hrefreshed hw
        exact h
      · intro h
        exact h refreshed w' rfl rfl

theorem supplies_iff (h : v.getSigningKeys false w = (.ok keys, w₁)) {keys' : List κ} :
    v.Supplies false w keys' w' ↔ keys' = keys ∧ w' = w₁ := by
  rw [← getSigningKeys_eq_ok, h, Prod.mk.injEq, Except.ok.injEq]
  exact and_congr eq_comm eq_comm

theorem fits_of_error {e : Exc} (h : v.getSigningKeys false w = (.error e, w₁)) :
    v.Fits token w ↔ ¬ Foreign e := by
  have hnone : ∀ keys w₂, ¬ v.Supplies false w keys w₂ := by
    intro keys w₂ hkeys
    rw [getSigningKeys_eq_ok.mpr hkeys] at h
    cases h
  have hfetch : ¬ Foreign e ↔ (¬ v.UsesCache false w → v.FetchFits w) := by
    rw [← getSigningKeys_avoids, h, avoids_error]
  rw [hfetch]
  constructor
  · intro hfits
    exact hfits.fetch
  · intro hfetch
    exact ⟨hfetch, fun keys w₂ hkeys => absurd hkeys (hnone keys w₂),
      fun keys w₂ hkeys => absurd hkeys (hnone keys w₂),
      fun keys refreshed w₂ w₃ hkeys => absurd hkeys (hnone keys w₂)⟩

theorem fits_of_ok (h : v.getSigningKeys false w = (.ok keys, w₁)) :
    v.Fits token w ↔ DecodeFits (v.decodeToken w₁.2 token) keys ∧
      ((∀ key ∈ keys, RaisesInvalidSignature (v.decodeToken w₁.2 token) key) →
        Avoids ForeignFailure (v.retried token w₁)) := by
  have hfetch : ¬ v.UsesCache false w → v.FetchFits w := by
    rw [← getSigningKeys_avoids, h]
    exact avoids_ok
  rw [retried_avoids]
  constructor
  · intro hfits
    have hkeys := (supplies_iff h).mpr ⟨rfl, rfl⟩
    exact ⟨hfits.decode keys w₁ hkeys, fun hall => ⟨hfits.refetch keys w₁ hkeys hall,
      fun refreshed w₂ => hfits.redecode keys refreshed w₁ w₂ hkeys hall⟩⟩
  · intro ⟨hdecode, hretry⟩
    refine ⟨hfetch, fun keys' w' hkeys => ?_, fun keys' w' hkeys hall => ?_,
      fun keys' refreshed w' w₂ hkeys hall => ?_⟩
    · obtain ⟨rfl, rfl⟩ := (supplies_iff h).mp hkeys
      exact hdecode
    · obtain ⟨rfl, rfl⟩ := (supplies_iff h).mp hkeys
      exact (hretry hall).1
    · obtain ⟨rfl, rfl⟩ := (supplies_iff h).mp hkeys
      exact (hretry hall).2 refreshed w₂

/-- Keys that all raise `InvalidSignatureError` raise nothing else. -/
theorem decodeFits_of_forall {decode : κ → Except JwtError Dict}
    (h : ∀ key ∈ keys, RaisesInvalidSignature decode key) : DecodeFits decode keys := by
  intro before key after hsplit _ ⟨e, he⟩
  obtain ⟨m, hm⟩ := h key (by simp [hsplit])
  rw [hm] at he
  cases he

/-- The validator fails with identity errors alone exactly if nothing that it comes to raises
another exception. -/
theorem validateToken_avoids :
    Avoids ForeignFailure (v.validateToken token w).1 ↔ v.Fits token w := by
  cases hkeys : v.getSigningKeys false w with
  | mk result w₁ =>
    cases result with
    | error e => rw [fits_of_error hkeys, validateToken_of_error hkeys, avoids_other]
    | ok keys =>
      have hretries : (∃ e, v.decoded w₁.2 token keys = .error e ∧ e.Retries) ↔
          ∀ key ∈ keys, RaisesInvalidSignature (v.decodeToken w₁.2 token) key :=
        decodeWithKeys_retries_iff none keys
      have hresult := validateToken_of_ok token hkeys
      rw [hretries] at hresult
      rw [fits_of_ok hkeys]
      rcases hresult with ⟨hall, hresult⟩ | ⟨hall, hresult⟩
      · rw [hresult]
        exact ⟨fun h => ⟨decodeFits_of_forall hall, fun _ => h⟩, fun h => h.2 hall⟩
      · rw [hresult, decoded_avoids]
        exact ⟨fun h => ⟨h, fun h' => absurd h' hall⟩, fun h => h.1⟩

theorem plain_of_validateToken {e : ValidationError}
    (h : (v.validateToken token w).1 = .error e) : Plain e.toExc := by
  cases hkeys : v.getSigningKeys false w with
  | mk result w₁ =>
    cases result with
    | error e' =>
      rw [validateToken_of_error hkeys] at h
      obtain rfl := Except.error.inj h
      exact plain_of_getSigningKeys hkeys
    | ok keys =>
      rcases validateToken_of_ok token hkeys with ⟨-, hresult⟩ | ⟨-, hresult⟩
      · rw [hresult] at h
        unfold retried at h
        split at h
        · rename_i e' w₂ hrefreshed
          obtain rfl := Except.error.inj h
          exact plain_of_getSigningKeys hrefreshed
        · exact plain_of_decodeWithKeys h
      · rw [hresult] at h
        exact plain_of_decodeWithKeys h

end JWTValidator

/-- The hook enriches the context with an identity or denies the request. -/
def EnrichesOrDenies (ctx : HookContext) (r : Except Exc HookContext) : Prop :=
  (∃ token claims, r = .ok (IdentityHook.enrich ctx token claims)) ∨
    ∃ reason, r = .error (.shortCircuit reason true)

/-- The `authorization` entry of the context. -/
def authorization (ctx : HookContext) : Value := ctx.extras.getD "authorization" (.str "")

/-- The entry is a string or bytes, unless it is empty. -/
def AuthorizationText (ctx : HookContext) : Prop :=
  (authorization ctx).truthy →
    (∃ header, authorization ctx = .str header) ∨ ∃ bs, authorization ctx = .bytes bs

/-- The request carries the token. -/
def Bears (ctx : HookContext) (token : String) : Prop :=
  ∃ header, authorization ctx = .str header ∧ parseBearer header = some token

theorem authenticationFailed_denies {e : Exc} (h : Plain e) :
    (∃ reason, IdentityHook.authenticationFailed e = .shortCircuit reason true) ↔
      IsIdentityError e := by
  rcases h with h | ⟨typeName, message, rfl⟩
  · refine iff_of_true ?_ h
    cases e with
    | identity typeName m => exact ⟨_, rfl⟩
    | tokenExchange m audience => exact ⟨_, rfl⟩
    | _ => exact absurd h id
  · exact iff_of_false nofun id

theorem parseBearer_empty : parseBearer "" = none := rfl

theorem bears_iff {ctx : HookContext} {header token : String}
    (h : authorization ctx = .str header) : Bears ctx token ↔ parseBearer header = some token := by
  unfold Bears
  rw [h]
  simp

/-- The three ends of reading the header. -/
theorem bearerToken_cases (ctx : HookContext) :
    (∃ reason, IdentityHook.bearerToken ctx = .error (.shortCircuit reason true)) ∧
        AuthorizationText ctx ∧ (∀ token, ¬ Bears ctx token) ∨
      (∃ token, IdentityHook.bearerToken ctx = .ok token ∧ AuthorizationText ctx ∧
        ∀ token', Bears ctx token' ↔ token' = token) ∨
      ∃ typeName message, IdentityHook.bearerToken ctx = .error (.other typeName message) ∧
        ¬ AuthorizationText ctx := by
  have hheader : ctx.extras.getD "authorization" (.str "") = authorization ctx := rfl
  simp only [IdentityHook.bearerToken, hheader]
  cases htruthy : (authorization ctx).truthy with
  | false =>
    refine .inl ⟨⟨_, rfl⟩, fun h => by simp [htruthy] at h, fun token hbears => ?_⟩
    obtain ⟨header, hheader, hparse⟩ := hbears
    rw [hheader] at htruthy
    have hempty : header = "" := by simpa [Value.truthy, Scalar.truthy] using htruthy
    rw [hempty, parseBearer_empty] at hparse
    cases hparse
  | true =>
    by_cases htext : ∃ header, authorization ctx = .str header
    · obtain ⟨header, hheader⟩ := htext
      have htext : AuthorizationText ctx := fun _ => .inl ⟨header, hheader⟩
      simp only [bears_iff hheader, hheader]
      cases hparse : parseBearer header with
      | none => exact .inl ⟨⟨_, rfl⟩, htext, by simp⟩
      | some token => exact .inr (.inl ⟨token, rfl, htext, fun token' => by simp [eq_comm]⟩)
    · have hnone : ∀ token, ¬ Bears ctx token := by
        intro token hbears
        obtain ⟨header, hheader, -⟩ := hbears
        exact htext ⟨header, hheader⟩
      cases hvalue : authorization ctx with
      | scalar a =>
        cases a with
        | str header => exact absurd ⟨header, hvalue⟩ htext
        | bytes bs => exact .inl ⟨⟨_, rfl⟩, fun _ => .inr ⟨bs, hvalue⟩, hnone⟩
        | _ =>
          refine .inr (.inr ⟨_, _, rfl, fun h => ?_⟩)
          rcases h htruthy with hstr | hbytes
          · obtain ⟨_, hother⟩ := hstr
            cases hvalue.symm.trans hother
          · obtain ⟨_, hother⟩ := hbytes
            cases hvalue.symm.trans hother
      | _ =>
        refine .inr (.inr ⟨_, _, rfl, fun h => ?_⟩)
        rcases h htruthy with hstr | hbytes
        · obtain ⟨_, hother⟩ := hstr
          cases hvalue.symm.trans hother
        · obtain ⟨_, hother⟩ := hbytes
          cases hvalue.symm.trans hother

namespace JWTValidator

variable {σ κ : Type}

/-- The validation of the token ends with claims or an identity error. -/
def Typed (v : JWTValidator σ κ) (token : String) (w : JWKSClient κ × σ) : Prop :=
  (∃ claims, (v.validateToken token w).1 = .ok claims) ∨
    ∃ e, (v.validateToken token w).1 = .error e ∧ IsIdentityError e.toExc

theorem typed_iff_fits {v : JWTValidator σ κ} {token : String} {w : JWKSClient κ × σ} :
    v.Typed token w ↔ v.Fits token w := by
  rw [← validateToken_avoids]
  unfold Typed
  cases (v.validateToken token w).1 with
  | ok claims => simp [avoids_ok]
  | error e => simp [avoids_error, ForeignFailure, Foreign]

theorem onPreValidation_of_token {v : JWTValidator σ κ} {ctx : HookContext} {token : String}
    {w : JWKSClient κ × σ} (h : IdentityHook.bearerToken ctx = .ok token) :
    (v.toIdentityHook.onPreValidation ctx w).1 =
      match (v.validateToken token w).1 with
      | .ok claims => .ok (IdentityHook.enrich ctx token claims.toTokenClaims)
      | .error e => .error (IdentityHook.authenticationFailed e.toExc) := by
  simp only [IdentityHook.onPreValidation, h, toIdentityHook]
  cases v.validateToken token w with
  | mk result w' => cases result <;> rfl

theorem onPreValidation_iff {v : JWTValidator σ κ} {ctx : HookContext} {w : JWKSClient κ × σ} :
    EnrichesOrDenies ctx (v.toIdentityHook.onPreValidation ctx w).1 ↔
      AuthorizationText ctx ∧ ∀ token, Bears ctx token → v.Fits token w := by
  rcases bearerToken_cases ctx with ⟨⟨reason, hbearer⟩, htext, hnone⟩ |
    ⟨token, hbearer, htext, hbears⟩ | ⟨typeName, message, hbearer, htext⟩
  · have hresult : (v.toIdentityHook.onPreValidation ctx w).1 = .error (.shortCircuit reason true) := by
      simp only [IdentityHook.onPreValidation, hbearer]
    rw [hresult]
    exact iff_of_true (.inr ⟨reason, rfl⟩) ⟨htext, fun token hbears => absurd hbears (hnone token)⟩
  · have hfits : (∀ token', Bears ctx token' → v.Fits token' w) ↔ v.Typed token w := by
      simp only [hbears, forall_eq, typed_iff_fits]
    rw [hfits, onPreValidation_of_token hbearer]
    unfold Typed
    cases hvalidated : (v.validateToken token w).1 with
    | ok claims => exact iff_of_true (.inl ⟨token, _, rfl⟩) ⟨htext, .inl ⟨claims, rfl⟩⟩
    | error e =>
      have hdenies := authenticationFailed_denies (plain_of_validateToken hvalidated)
      simp [EnrichesOrDenies, htext, hdenies]
  · have hresult : (v.toIdentityHook.onPreValidation ctx w).1 = .error (.other typeName message) := by
      simp only [IdentityHook.onPreValidation, hbearer]
    rw [hresult]
    refine iff_of_false ?_ fun h => htext h.1
    intro h
    rcases h with ⟨token, claims, h⟩ | ⟨reason, h⟩ <;> cases h

/-- The validator ends with claims or an identity error, and the hook enriches the context or
denies the request, exactly if nothing that the validation comes to raises another exception. -/
theorem authentication_typed_iff (v : JWTValidator σ κ) :
    (∀ token w, v.Typed token w ↔ v.Fits token w) ∧
      ∀ ctx w, EnrichesOrDenies ctx (v.toIdentityHook.onPreValidation ctx w).1 ↔
        AuthorizationText ctx ∧ ∀ token, Bears ctx token → v.Fits token w :=
  ⟨fun _ _ => typed_iff_fits, fun _ _ => onPreValidation_iff⟩

end JWTValidator

/-- A provider whose discovery endpoint answers with a JSON array. -/
def arrayProvider : JWTValidator Unit Unit where
  config := { issuer := "https://idp.example.com", audience := "my-app" }
  get _ s := (.ok (.list []), s)
  monotonic _ := 100
  pyJwk _ := .error ⟨"PyJWKError", "kty is not found"⟩
  decode _ _ _ _ := .error (.invalidSignature "Signature verification failed")

def bearerContext : HookContext where
  request := { correlationId := "c-1" }
  extras := [(.str "authorization", .str "Bearer token")]

/-- The answer has no method `get`, and the `AttributeError` passes the hook. -/
theorem arrayProvider_not_typed :
    ¬ arrayProvider.Typed "token" ({}, ()) ∧
      ¬ EnrichesOrDenies bearerContext
        (arrayProvider.toIdentityHook.onPreValidation bearerContext ({}, ())).1 := by
  have hvalidated : (arrayProvider.validateToken "token" ({}, ())).1 =
      .error (.other (.other "AttributeError" "'list' object has no attribute 'get'")) := rfl
  have hhook : (arrayProvider.toIdentityHook.onPreValidation bearerContext ({}, ())).1 =
      .error (.other "AttributeError" "'list' object has no attribute 'get'") := rfl
  constructor
  · intro h
    rcases h with ⟨claims, h⟩ | ⟨e, h, htyped⟩
    · rw [hvalidated] at h
      cases h
    · rw [hvalidated] at h
      cases h
      exact htyped
  · intro h
    rw [hhook] at h
    rcases h with ⟨token, claims, h⟩ | ⟨reason, h⟩ <;> cases h

end McpZero.Identity
