import McpZero.Identity.Jwks
import McpZero.Lib.Reached

/-! The answers of the provider that the key client turns into keys or into identity errors, and
those that make another exception escape. -/
namespace McpZero.Identity
open Python Lib

/-- `IdentityError` and its subclasses. -/
def IsIdentityError : Exc → Prop
  | .identity _ _ => True
  | .tokenExchange _ _ => True
  | _ => False

/-- An exception that the hook does not convert. -/
def Foreign (e : Exc) : Prop := ¬ IsIdentityError e

theorem not_foreign_jwksFetchError (message : String) : ¬ Foreign (jwksFetchError message) :=
  fun h => h trivial

theorem foreign_other (typeName message : String) : Foreign (.other typeName message) :=
  fun h => h

/-- An identity error, or an exception that is none of the repository's. -/
def Plain (e : Exc) : Prop := IsIdentityError e ∨ ∃ typeName message, e = .other typeName message

/-- A JSON answer of the discovery endpoint is an object. -/
def AnswersObject (answer : Fetched) : Prop := ∀ v, answer = .ok v → ∃ d, v = .dict d

/-- The `keys` of a JWKS document, where there are none the empty list. -/
def rawKeys (d : Dict) : Value := d.getD "keys" (.list [])

/-- A JSON answer of the JWKS endpoint is an object, and its keys, unless they are empty, can be
iterated and are JSON web keys that the library can read. -/
def AnswersKeys {κ : Type} (pyJwk : Value → Except LibraryError κ) (answer : Fetched) : Prop :=
  ∀ v, answer = .ok v → ∃ d, v = .dict d ∧ ((rawKeys d).truthy →
    ∃ items, (rawKeys d).iter = .ok items ∧ ∀ item ∈ items, ∃ key, pyJwk item = .ok key)

/-- Only objects have the method `get`. -/
theorem foreign_noAttribute (v : Value) (name : String) : Foreign (v.noAttribute name) :=
  foreign_other _ _

theorem discoveredUri_dict {issuer : String} {d : Dict} :
    discoveredUri issuer (.ok (.dict d)) =
      if !(d.getD "jwks_uri" .none).truthy then
        .error (jwksFetchError
          ("No jwks_uri in OIDC discovery response from " ++ discoveryUrl issuer))
      else .ok (d.getD "jwks_uri" .none) := rfl

theorem discoveredUri_of_not_dict {issuer : String} {v : Value} (h : ¬ ∃ d, v = .dict d) :
    discoveredUri issuer (.ok v) = .error (v.noAttribute "get") := by
  cases v with
  | dict d => exact absurd ⟨d, rfl⟩ h
  | _ => rfl

theorem discoveredUri_avoids (issuer : String) {answer : Fetched} :
    Avoids Foreign (discoveredUri issuer answer) ↔ AnswersObject answer := by
  constructor
  · intro h v hv
    by_contra hdict
    have herror : discoveredUri issuer answer = .error (v.noAttribute "get") := by
      rw [hv, discoveredUri_of_not_dict hdict]
    exact h _ herror (foreign_noAttribute v "get")
  · intro h e he
    cases answer with
    | error m =>
      obtain rfl := Except.error.inj he
      exact not_foreign_jwksFetchError _
    | ok v =>
      obtain ⟨d, rfl⟩ := h v rfl
      rw [discoveredUri_dict] at he
      split at he <;> cases he
      exact not_foreign_jwksFetchError _

theorem plain_of_discoveredUri {issuer : String} {answer : Fetched} {e : Exc}
    (h : discoveredUri issuer answer = .error e) : Plain e := by
  cases answer with
  | error m =>
    obtain rfl := Except.error.inj h
    exact .inl trivial
  | ok v =>
    by_cases hdict : ∃ d, v = .dict d
    · obtain ⟨d, rfl⟩ := hdict
      rw [discoveredUri_dict] at h
      split at h <;> cases h
      exact .inl trivial
    · rw [discoveredUri_of_not_dict hdict] at h
      cases h
      exact .inr ⟨_, _, rfl⟩

theorem discoveredUri_eq_ok {issuer : String} {answer : Fetched} {jwksUri : Value} :
    discoveredUri issuer answer = .ok jwksUri ↔
      ∃ d, answer = .ok (.dict d) ∧ Dict.getD d "jwks_uri" .none = jwksUri ∧ jwksUri.truthy := by
  constructor
  · intro h
    have hobject : AnswersObject answer := (discoveredUri_avoids issuer).mp (by rw [h]; exact avoids_ok)
    cases answer with
    | error m => cases h
    | ok v =>
      obtain ⟨d, rfl⟩ := hobject v rfl
      rw [discoveredUri_dict] at h
      split at h
      · cases h
      · rename_i htruthy
        obtain rfl := Except.ok.inj h
        exact ⟨d, rfl, rfl, by simpa using htruthy⟩
  · intro ⟨d, hanswer, huri, htruthy⟩
    subst hanswer huri
    rw [discoveredUri_dict]
    simp [htruthy]

section
variable {κ : Type} {pyJwk : Value → Except LibraryError κ}

theorem signingKey_eq_ok {keyData : Value} {key : κ} :
    signingKey pyJwk keyData = .ok key ↔ pyJwk keyData = .ok key := map_error_eq_ok

theorem other_of_signingKey {keyData : Value} {e : Exc}
    (h : signingKey pyJwk keyData = .error e) : ∃ typeName message, e = .other typeName message := by
  unfold signingKey at h
  cases hkey : pyJwk keyData with
  | ok key =>
    rw [hkey] at h
    cases h
  | error e' =>
    rw [hkey] at h
    cases h
    exact ⟨_, _, rfl⟩

theorem other_of_iter {v : Value} {e : Exc} (h : v.iter = .error e) :
    ∃ typeName message, e = .other typeName message := by
  unfold Value.iter at h
  split at h <;> cases h
  exact ⟨_, _, rfl⟩

theorem other_of_iter_mapM {v : Value} {e : Exc}
    (h : (v.iter >>= fun items => items.mapM (signingKey pyJwk)) = .error e) :
    ∃ typeName message, e = .other typeName message := by
  cases hiter : v.iter with
  | error e' =>
    rw [hiter] at h
    obtain rfl := Except.error.inj h
    exact other_of_iter hiter
  | ok items =>
    rw [hiter] at h
    obtain ⟨item, -, hitem⟩ := exists_of_mapM_eq_error h
    exact other_of_signingKey hitem

theorem fetchedKeys_dict {jwksUri : Value} {d : Dict} :
    fetchedKeys pyJwk jwksUri (.ok (.dict d)) =
      if !(rawKeys d).truthy then
        .error (jwksFetchError ("No keys found in JWKS response from " ++ jwksUri.text))
      else (rawKeys d).iter >>= fun items => items.mapM (signingKey pyJwk) := rfl

theorem fetchedKeys_of_not_dict {jwksUri v : Value} (h : ¬ ∃ d, v = .dict d) :
    fetchedKeys pyJwk jwksUri (.ok v) = .error (v.noAttribute "get") := by
  cases v with
  | dict d => exact absurd ⟨d, rfl⟩ h
  | _ => rfl

theorem iter_mapM_avoids {v : Value} :
    Avoids Foreign (v.iter >>= fun items => items.mapM (signingKey pyJwk)) ↔
      ∃ items, v.iter = .ok items ∧ ∀ item ∈ items, ∃ key, pyJwk item = .ok key := by
  have hforeign : ∀ e, (v.iter >>= fun items => items.mapM (signingKey pyJwk)) = .error e →
      Foreign e := by
    intro e he
    obtain ⟨typeName, message, rfl⟩ := other_of_iter_mapM he
    exact foreign_other typeName message
  have hok : (∃ keys, (v.iter >>= fun items => items.mapM (signingKey pyJwk)) = .ok keys) ↔
      ∃ items, v.iter = .ok items ∧ ∃ keys, items.mapM (signingKey pyJwk) = .ok keys := by
    simp only [bind_eq_ok]
    constructor
    · intro ⟨keys, items, hiter, hkeys⟩
      exact ⟨items, hiter, keys, hkeys⟩
    · intro ⟨items, hiter, keys, hkeys⟩
      exact ⟨keys, items, hiter, hkeys⟩
  rw [avoids_iff_exists_ok hforeign, hok]
  simp only [exists_mapM_eq_ok_iff, signingKey_eq_ok]

theorem fetchedKeys_avoids (jwksUri : Value) {answer : Fetched} :
    Avoids Foreign (fetchedKeys pyJwk jwksUri answer) ↔ AnswersKeys pyJwk answer := by
  cases answer with
  | error m =>
    refine ⟨fun _ => nofun, fun _ e he => ?_⟩
    obtain rfl := Except.error.inj he
    exact not_foreign_jwksFetchError _
  | ok v =>
    by_cases hdict : ∃ d, v = .dict d
    · obtain ⟨d, rfl⟩ := hdict
      have hanswers : AnswersKeys pyJwk (.ok (.dict d)) ↔ ((rawKeys d).truthy →
          ∃ items, (rawKeys d).iter = .ok items ∧ ∀ item ∈ items, ∃ key, pyJwk item = .ok key) := by
        simp [AnswersKeys]
      rw [hanswers, fetchedKeys_dict]
      cases htruthy : (rawKeys d).truthy with
      | false => simp [avoids_error, not_foreign_jwksFetchError]
      | true => simpa using iter_mapM_avoids
    · rw [fetchedKeys_of_not_dict hdict, avoids_error]
      constructor
      · intro h
        exact absurd (foreign_noAttribute v "get") h
      · intro h
        obtain ⟨d, hd, -⟩ := h v rfl
        exact absurd ⟨d, hd⟩ hdict

theorem plain_of_fetchedKeys {jwksUri : Value} {answer : Fetched} {e : Exc}
    (h : fetchedKeys pyJwk jwksUri answer = .error e) : Plain e := by
  cases answer with
  | error m =>
    obtain rfl := Except.error.inj h
    exact .inl trivial
  | ok v =>
    by_cases hdict : ∃ d, v = .dict d
    · obtain ⟨d, rfl⟩ := hdict
      rw [fetchedKeys_dict] at h
      split at h
      · cases h
        exact .inl trivial
      · exact .inr (other_of_iter_mapM h)
    · rw [fetchedKeys_of_not_dict hdict] at h
      cases h
      exact .inr ⟨_, _, rfl⟩

theorem fetchedKeys_eq_ok {jwksUri : Value} {answer : Fetched} {keys : List κ} :
    fetchedKeys pyJwk jwksUri answer = .ok keys ↔
      ∃ d items, answer = .ok (.dict d) ∧ (rawKeys d).truthy ∧ (rawKeys d).iter = .ok items ∧
        List.Forall₂ (fun item key => pyJwk item = .ok key) items keys := by
  constructor
  · intro h
    cases answer with
    | error m => cases h
    | ok v =>
      by_cases hdict : ∃ d, v = .dict d
      · obtain ⟨d, rfl⟩ := hdict
        rw [fetchedKeys_dict] at h
        split at h
        · cases h
        · rename_i htruthy
          obtain ⟨items, hiter, hkeys⟩ := bind_eq_ok.mp h
          have hforall := (forall₂_of_mapM_eq_ok hkeys).imp fun _ _ => signingKey_eq_ok.mp
          exact ⟨d, items, rfl, by simpa using htruthy, hiter, hforall⟩
      · rw [fetchedKeys_of_not_dict hdict] at h
        cases h
  · intro ⟨d, items, hanswer, htruthy, hiter, hkeys⟩
    subst hanswer
    have hmapM : items.mapM (signingKey pyJwk) = .ok keys :=
      mapM_eq_ok_of_forall₂ (hkeys.imp fun _ _ => signingKey_eq_ok.mpr)
    rw [fetchedKeys_dict, if_neg (by simp [htruthy]), hiter]
    exact hmapM

end

end McpZero.Identity
