import McpZero.Governance.FieldTypes
import McpZero.Lib.Reached

/-! Which documents make the loader raise something else than its own errors. Most builders
convert a `ValueError` alone, the look-ups outside of them convert nothing, and the f-strings of the
errors themselves cannot write every value. -/
namespace McpZero.Governance
open Python Lib

/-- No `GovernanceError`. -/
def LoadError.IsEscaped : LoadError → Prop
  | .escaped _ => True
  | _ => False

def IsValueError (e : Exc) : Prop := ∃ m, e = .other "ValueError" m

def IsScalar (v : Value) : Prop := ∃ a, v = .scalar a

def IsDict (v : Value) : Prop := ∃ d, v = .dict d

/-- A string or bytes, which both have an upper-case form. -/
def IsText (v : Value) : Prop := IsStr v ∨ ∃ bs, v = .bytes bs

/-- A value in which `in` can search a string. -/
def IsCollection : Value → Prop
  | .scalar a => ∃ s, a = .str s
  | _ => True

/-- A value from which `int(...)` makes a number or raises `ValueError`. -/
def IsNumberLike : Value → Prop
  | .scalar .none | .scalar (.other _ _) => False
  | .scalar (.float x) => ∀ negative, x.value ≠ .inf negative
  | .scalar _ => True
  | _ => False

/-- `level.upper()` is the name of a level. -/
def isLevel : Value → Except Exc Bool :=
  oneOf upperChar "upper" ["CRITICAL", "DEBUG", "ERROR", "INFO", "WARNING"]

/-- The keys are distinct from each other and from the ones seen before. -/
def Fresh : List Scalar → List Scalar → Prop
  | _, [] => True
  | seen, a :: rest => seen.any (·.pyEq a) = false ∧ Fresh (seen ++ [a]) rest

/-- A name that is looked up in a set is hashable, and can be written if it is found there. -/
def LooksUp (seen : List Scalar) (v : Value) : Prop :=
  IsScalar v ∧ ∀ a, v = .scalar a → seen.any (·.pyEq a) = true → v.prints = true

/-- Every name can be looked up among the ones before it, unless a duplicate stands there. -/
def NamesTyped (seen : List Scalar) (names : List Value) : Prop :=
  ∀ before v after, names = before ++ v :: after →
    ∀ as, before = as.map .scalar → Fresh seen as → LooksUp (seen ++ as) v

/-- The issuer is a string where its scheme is tested. -/
def IdentityTyped (v : Value) : Prop :=
  ∀ d, v = .dict d → (Dict.getD d "provider" (.str "")).truthy →
    (Dict.getD d "issuer" (.str "")).truthy → (Dict.getD d "audience" (.str "")).truthy →
      (Dict.getD d "allow_insecure" (.bool false)).truthy = false →
        IsStr (Dict.getD d "issuer" (.str ""))

/-- The level is a text, and the format is one if it is looked at. -/
def LoggingTyped (v : Value) : Prop :=
  ∀ d, v = .dict d → IsText (Dict.getD d "level" (.str "INFO")) ∧
    (isLevel (Dict.getD d "level" (.str "INFO")) = .ok true →
      IsText (Dict.getD d "format" (.str "json")))

/-- Every conversion to a number that stands outside a `try` succeeds. -/
structure Converts (d : Dict) : Prop where
  bucketSeconds : ∃ n, (d.getD "bucket_seconds" (.int 60)).toInt = .ok n
  retentionSeconds : ∃ n, (d.getD "retention_seconds" (.int 3600)).toInt = .ok n
  heartbeatSeconds : ∃ n, (d.getD "heartbeat_seconds" (.int 30)).toInt = .ok n
  queueSize : ∃ n, (d.getD "queue_size" (.int 10000)).toInt = .ok n
  flushInterval : (d.getD "flush_interval" (.int 1)).checkFloat = .ok ()

/-- The socket timeout of a mapping converts, and after it the other numbers. -/
def AnalyticsTyped (v : Value) : Prop :=
  ∀ d, v = .dict d →
    (∀ r, Dict.get? d "redis" = some (.dict r) →
      (Dict.getD r "socket_timeout" (.int 5)).checkFloat = .ok ()) ∧
    ((∀ r, Dict.get? d "redis" = some r → IsDict r) → Converts d)

/-- The age is a number as far as its type goes, and the origins can be searched if they are
looked at. -/
def CorsTyped (v : Value) : Prop :=
  ∀ d, v = .dict d → IsNumberLike (Dict.getD d "max_age" (.int 600)) ∧
    ((∃ n, (Dict.getD d "max_age" (.int 600)).toInt = .ok n) →
      (Dict.getD d "allow_origins" (.list [])).truthy →
        IsCollection (Dict.getD d "allow_origins" (.list [])))

/-- The name of a plugin can be looked up, unless an item before it is refused. -/
def PluginNamesTyped (seen : List Scalar) (items : List Value) : Prop :=
  ∀ before w after, items = before ++ w :: after →
    ∀ as, List.Forall₂ (fun v a => ∃ d, v = .dict d ∧
      Dict.getD d "name" (.str "") = .scalar a ∧ a.truthy) before as → Fresh seen as →
        ∀ d, w = .dict d → (Dict.getD d "name" (.str "")).truthy →
          LooksUp (seen ++ as) (Dict.getD d "name" (.str ""))

def PluginsTyped (v : Value) : Prop := ∀ items, v = .list items → PluginNamesTyped [] items

/-- The names of the servers can be looked up, if all servers can be built. -/
def ServersTyped (d : Dict) : Prop :=
  ∀ raw, d.getD "servers" (.list []) = .list raw → ∀ servers,
    (raw.zipIdx.mapM fun (v, i) => Loader.buildServer v i) = .ok servers →
      NamesTyped [] (servers.map (·.name))

/-- The effect of a rule can be written. -/
def EffectTyped (v : Value) : Prop :=
  ∀ d, v = .dict d → (Dict.getD d "effect" (.str "allow")).prints = true

/-- The effects of the rules can be written, up to a rule that cannot be built, and their ids can
be looked up, if all rules can be built. -/
def PoliciesTyped (d : Dict) : Prop :=
  ∀ raw, d.getD "policies" (.list []) = .list raw →
    Reached (fun x => ∃ rule, Loader.buildPolicyRule x.1 x.2 = .ok rule) (fun x => EffectTyped x.1)
      raw.zipIdx ∧
    ∀ rules, (raw.zipIdx.mapM fun (v, i) => Loader.buildPolicyRule v i) = .ok rules →
      NamesTyped [] (rules.map (·.id))

namespace Loader

/-- The check raises no exception but a `GovernanceError`. -/
def Documented {α : Type} (r : Except LoadError α) : Prop := Avoids LoadError.IsEscaped r

variable {α β : Type}

theorem documented_ok {a : α} : Documented (.ok a) := avoids_ok

theorem documented_pure {a : α} : Documented (pure a) := avoids_pure

theorem documented_bind {x : Except LoadError α} {f : α → Except LoadError β} :
    Documented (x >>= f) ↔ Documented x ∧ ∀ a, x = .ok a → Documented (f a) := avoids_bind

theorem documented_mapM {γ : Type} {f : γ → Except LoadError α} {items : List γ} :
    Documented (items.mapM f) ↔
      Reached (fun x => ∃ a, f x = .ok a) (fun x => Documented (f x)) items := avoids_mapM

theorem documented_catching {field : String} {r : Except Exc α} :
    Documented (catching field r) ↔ ∀ e, r = .error e → IsValueError e := by
  unfold catching
  cases r with
  | ok a => exact ⟨fun _ => nofun, fun _ => documented_ok⟩
  | error e =>
    simp only [Except.mapError, Documented, avoids_error, Except.error.injEq, forall_eq']
    split
    · simp [LoadError.IsEscaped, IsValueError]
    · rename_i hother
      simp only [LoadError.IsEscaped, not_true_eq_false, false_iff]
      intro h
      obtain ⟨m, rfl⟩ := h
      exact hother m rfl

theorem documented_escaping {r : Except Exc α} :
    Documented (escaping r) ↔ ∃ a, r = .ok a := by
  unfold escaping
  cases r with
  | ok a => exact ⟨fun _ => ⟨a, rfl⟩, fun _ => documented_ok⟩
  | error e => simp [Except.mapError, Documented, avoids_error, LoadError.IsEscaped]

theorem documented_mapping (v : Value) (message field : String) :
    Documented (mapping v message field) := by
  intro e he
  unfold mapping at he
  split at he
  · cases he
  · cases he
    exact id

theorem documented_sequence (v : Value) (message field : String) :
    Documented (sequence v message field) := by
  intro e he
  unfold sequence at he
  split at he
  · cases he
  · cases he
    exact id

theorem worded_isEscaped_iff {values : List Value} {error : LoadError} (h : ¬ error.IsEscaped) :
    ¬ (worded values error).IsEscaped ↔ ∀ v ∈ values, v.prints = true := by
  unfold worded
  rw [← List.all_eq_true]
  cases values.all (·.prints) with
  | true => exact iff_of_true h rfl
  | false => exact iff_of_false (fun hnot => hnot trivial) Bool.false_ne_true

theorem worded_one_isEscaped_iff {v : Value} {error : LoadError} (h : ¬ error.IsEscaped) :
    ¬ (worded [v] error).IsEscaped ↔ v.prints = true :=
  (worded_isEscaped_iff h).trans List.forall_mem_singleton

theorem documented_effect {v : Value} {field : String} :
    Documented (effect v field) ↔ v.prints = true := by
  unfold effect
  cases heffect : PolicyEffect.ofValue? v with
  | some e =>
    unfold PolicyEffect.ofValue? at heffect
    split at heffect
    · exact iff_of_true documented_ok rfl
    · exact iff_of_true documented_ok rfl
    · cases heffect
  | none =>
    exact avoids_error.trans (worded_one_isEscaped_iff id)

/-- A section that is a mapping or is refused. -/
theorem documented_of_mapping {v : Value} {message field : String} {f : Dict → Except LoadError α} :
    Documented (mapping v message field >>= f) ↔ ∀ d, v = .dict d → Documented (f d) := by
  rw [documented_bind]
  simp only [documented_mapping, true_and, mapping_eq_ok]

theorem documented_seenBefore {seen : List Scalar} {v : Value} :
    Documented (seenBefore seen v) ↔ IsScalar v := by
  cases v with
  | scalar a => exact ⟨fun _ => ⟨a, rfl⟩, fun _ => documented_ok⟩
  | list items => simp [seenBefore, Documented, avoids_error, LoadError.IsEscaped, IsScalar]
  | group kind items => simp [seenBefore, Documented, avoids_error, LoadError.IsEscaped, IsScalar]
  | dict entries => simp [seenBefore, Documented, avoids_error, LoadError.IsEscaped, IsScalar]

theorem seenBefore_eq_ok {seen : List Scalar} {v : Value} {a : Scalar} {b : Bool} :
    seenBefore seen v = .ok (a, b) ↔ v = .scalar a ∧ b = seen.any (·.pyEq a) := by
  cases v with
  | scalar c =>
    simp only [seenBefore, Except.ok.injEq, Prod.mk.injEq, Value.scalar.injEq]
    constructor
    · intro h
      obtain ⟨rfl, rfl⟩ := h
      exact ⟨rfl, rfl⟩
    · intro h
      obtain ⟨rfl, rfl⟩ := h
      exact ⟨rfl, rfl⟩
  | list items => simp [seenBefore]
  | group kind items => simp [seenBefore]
  | dict entries => simp [seenBefore]

theorem documented_section? {data : Dict} {key : String} {build : Value → Except LoadError α} :
    Documented (section? data key build) ↔
      ∀ v, data.get? key = some v → Documented (build v) := by
  unfold section?
  cases data.get? key with
  | none => simp [documented_ok]
  | some v =>
    simp only [documented_bind, documented_pure, implies_true, and_true, Option.some.injEq,
      forall_eq']

theorem documented_buildVersion (data : Dict) : Documented (buildVersion data) := by
  intro e he
  unfold buildVersion at he
  split at he
  · cases he
    exact id
  · split at he
    · cases he
    · cases he
      exact id

/-- The error for a duplicate is documented if it can be written. -/
theorem documented_duplicate {v : Value} {message field : String} {r : PUnit → Except LoadError α} :
    Documented (throw (worded [v] (.validation message field)) >>= r) ↔ v.prints = true :=
  avoids_error.trans (worded_one_isEscaped_iff id)

theorem documented_checkDistinct {what field : String} {seen : List Scalar} {names : List Value} :
    Documented (checkDistinct what field seen names) ↔ NamesTyped seen names := by
  induction names generalizing seen with
  | nil =>
    refine ⟨fun _ before v after h => ?_, fun _ => documented_ok⟩
    simp at h
  | cons v names ih =>
    unfold checkDistinct
    rw [documented_bind, documented_seenBefore]
    constructor
    · intro h before w after hsplit as hbefore hfresh
      cases before with
      | nil =>
        obtain ⟨rfl, -⟩ := List.cons.inj hsplit
        obtain rfl : as = [] := List.map_eq_nil_iff.mp hbefore.symm
        rw [List.append_nil]
        refine ⟨h.1, fun a ha hseen => ?_⟩
        have hstep := h.2 (a, true) (seenBefore_eq_ok.mpr ⟨ha, hseen.symm⟩)
        exact documented_duplicate.mp hstep
      | cons u before =>
        obtain ⟨rfl, hrest⟩ := List.cons.inj hsplit
        cases as with
        | nil => cases hbefore
        | cons a as =>
          obtain ⟨rfl, htail⟩ := List.cons.inj hbefore
          have hstep := h.2 (a, false) (by rw [seenBefore, hfresh.1])
          rw [List.append_cons]
          exact ih.mp hstep before w after hrest as htail hfresh.2
    · intro h
      have hname := h [] v names rfl [] rfl trivial
      rw [List.append_nil] at hname
      refine ⟨hname.1, fun x hx => ?_⟩
      obtain ⟨a, duplicate⟩ := x
      obtain ⟨rfl, rfl⟩ := seenBefore_eq_ok.mp hx
      cases hseen : seen.any (·.pyEq a) with
      | true => exact documented_duplicate.mpr (hname.2 a rfl hseen)
      | false =>
        apply ih.mpr
        intro before w after hsplit as hbefore hfresh
        rw [List.append_assoc, List.singleton_append]
        apply h (.scalar a :: before) w after (by rw [hsplit, List.cons_append]) (a :: as)
        · rw [hbefore, List.map_cons]
        · exact ⟨hseen, hfresh⟩

theorem valueError_isValueError {m : String} (e : Exc)
    (h : (.error (Value.valueError m) : Except Exc α) = .error e) : IsValueError e := by
  cases h
  exact ⟨m, rfl⟩

theorem throw_isValueError {m : String} {f : PUnit → Except Exc α} (e : Exc)
    (h : (throw (Value.valueError m) >>= f) = .error e) : IsValueError e := by
  cases h
  exact ⟨m, rfl⟩

theorem requireHttps_error (url : Value) (fieldName : String) :
    (∀ e, requireHttps url fieldName = .error e → IsValueError e) ↔ IsStr url := by
  unfold requireHttps
  split
  · refine ⟨fun _ => ⟨_, rfl⟩, fun _ e he => ?_⟩
    split_ifs at he
    exact valueError_isValueError e he
  · constructor
    · intro h
      obtain ⟨m, hm⟩ := h _ rfl
      simp [Value.bytesAffix, Value.typeError] at hm
    · intro h
      obtain ⟨s, hs⟩ := h
      cases hs
  · rename_i v hstr _
    constructor
    · intro h
      obtain ⟨m, hm⟩ := h _ rfl
      simp [Value.noAttribute] at hm
    · intro h
      obtain ⟨s, rfl⟩ := h
      exact absurd rfl (hstr s)

theorem documented_buildIdentity (v : Value) : Documented (buildIdentity v) ↔ IdentityTyped v := by
  unfold buildIdentity IdentityTyped
  rw [documented_of_mapping]
  apply forall₂_congr
  intro d _
  rw [documented_catching]
  unfold IdentityProviderConfig.postInit
  cases hprovider : (Dict.getD d "provider" (.str "")).truthy with
  | false => simpa using valueError_isValueError (α := IdentityProviderConfig)
  | true =>
    cases hissuer : (Dict.getD d "issuer" (.str "")).truthy with
    | false => simpa using valueError_isValueError (α := IdentityProviderConfig)
    | true =>
      cases haudience : (Dict.getD d "audience" (.str "")).truthy with
      | false => simpa using valueError_isValueError (α := IdentityProviderConfig)
      | true =>
        cases hinsecure : (Dict.getD d "allow_insecure" (.bool false)).truthy with
        | true => simp
        | false =>
          rw [← requireHttps_error _ "identity.issuer"]
          simp only [Bool.not_true, Bool.not_false, Bool.false_eq_true, if_false, if_true,
            forall_const]
          cases requireHttps (Dict.getD d "issuer" (.str "")) "identity.issuer" with
          | error e => simp [bind, Except.bind]
          | ok u => simp [bind, Except.bind, pure, Except.pure]

theorem documented_buildServer (v : Value) (i : ℕ) : Documented (buildServer v i) := by
  unfold buildServer
  apply documented_of_mapping.mpr
  intro d _
  apply documented_catching.mpr
  intro e he
  unfold ServerDefinition.postInit at he
  split_ifs at he
  · exact valueError_isValueError e he
  · exact valueError_isValueError e he

theorem documented_buildAccess (i : ℕ) (v : Value) (j : ℕ) : Documented (buildAccess i v j) := by
  unfold buildAccess
  apply documented_of_mapping.mpr
  intro d _
  apply documented_catching.mpr
  intro e he
  unfold PolicyServerAccess.postInit at he
  split_ifs at he
  exact valueError_isValueError e he

theorem documented_buildSubjects (d : Dict) (i : ℕ) : Documented (buildSubjects d i) := by
  unfold buildSubjects
  split
  · exact documented_ok
  · apply documented_of_mapping.mpr
    intro s _
    exact documented_pure

theorem documented_buildPolicyRule (v : Value) (i : ℕ) :
    Documented (buildPolicyRule v i) ↔ EffectTyped v := by
  unfold buildPolicyRule EffectTyped
  rw [documented_of_mapping]
  apply forall₂_congr
  intro d _
  rw [documented_bind, documented_effect]
  refine and_iff_left fun ruleEffect _ => ?_
  apply documented_bind.mpr ⟨documented_buildSubjects d i, fun subjects _ => ?_⟩
  apply documented_bind.mpr ⟨documented_sequence _ _ _, fun raw _ => ?_⟩
  apply documented_bind.mpr ⟨?_, fun mcpServers _ => ?_⟩
  · exact documented_mapM.mpr (reached_of_forall fun x _ => documented_buildAccess i x.1 x.2)
  · apply documented_catching.mpr
    intro e he
    unfold PolicyRule.postInit at he
    split_ifs at he
    · exact valueError_isValueError e he
    · exact valueError_isValueError e he

theorem documented_buildServers (d : Dict) : Documented (buildServers d) ↔ ServersTyped d := by
  have hitems : ∀ raw : List Value,
      Documented (raw.zipIdx.mapM fun (v, i) => buildServer v i) := by
    intro raw
    exact documented_mapM.mpr (reached_of_forall fun x _ => documented_buildServer x.1 x.2)
  unfold buildServers ServersTyped
  simp only [documented_bind, documented_sequence, sequence_eq_ok, true_and, hitems,
    documented_checkDistinct, documented_pure, implies_true, and_true]

theorem documented_buildPolicies (d : Dict) :
    Documented (buildPolicies d) ↔ PoliciesTyped d := by
  have hitems : ∀ raw : List Value,
      Documented (raw.zipIdx.mapM fun (v, i) => buildPolicyRule v i) ↔
        Reached (fun x => ∃ rule, buildPolicyRule x.1 x.2 = .ok rule) (fun x => EffectTyped x.1)
          raw.zipIdx := by
    intro raw
    rw [documented_mapM]
    exact reached_congr (fun _ => Iff.rfl) fun x => documented_buildPolicyRule x.1 x.2
  unfold buildPolicies PoliciesTyped
  simp only [documented_bind, documented_sequence, sequence_eq_ok, true_and, hitems,
    documented_checkDistinct, documented_pure, implies_true, and_true]

theorem oneOf_error {convert : Char → Char} {method : String} {choices : List String} {v : Value} :
    (∀ e, oneOf convert method choices v = .error e → IsValueError e) ↔ IsText v := by
  unfold oneOf
  split
  · exact ⟨fun _ => .inl ⟨_, rfl⟩, fun _ => nofun⟩
  · exact ⟨fun _ => .inr ⟨_, rfl⟩, fun _ => nofun⟩
  · rename_i v hstr hbytes
    constructor
    · intro h
      obtain ⟨m, hm⟩ := h _ rfl
      simp [Value.noAttribute] at hm
    · intro h
      rcases h with ⟨s, rfl⟩ | ⟨bs, rfl⟩
      · exact absurd rfl (hstr s)
      · exact absurd rfl (hbytes bs)

/-- A computation and its follow-up raise nothing but value errors. -/
theorem valueErrors_bind {x : Except Exc α} {f : α → Except Exc β} :
    (∀ e, (x >>= f) = .error e → IsValueError e) ↔
      (∀ e, x = .error e → IsValueError e) ∧
        ∀ a, x = .ok a → ∀ e, f a = .error e → IsValueError e := by
  have h : Avoids (fun e => ¬ IsValueError e) (x >>= f) ↔ _ := avoids_bind
  simpa only [Avoids, not_not] using h

theorem documented_buildLogging (v : Value) : Documented (buildLogging v) ↔ LoggingTyped v := by
  unfold buildLogging LoggingTyped
  rw [documented_of_mapping]
  apply forall₂_congr
  intro d _
  rw [documented_catching]
  unfold LoggingConfig.postInit
  rw [valueErrors_bind, oneOf_error]
  apply and_congr_right
  intro _
  constructor
  · intro h hlevel
    have hformat := h true hlevel
    simp only [Bool.not_true, Bool.false_eq_true, if_false] at hformat
    exact oneOf_error.mp (valueErrors_bind.mp hformat).1
  · intro h level hlevel
    cases level with
    | false => exact throw_isValueError
    | true =>
      simp only [Bool.not_true, Bool.false_eq_true, if_false]
      refine valueErrors_bind.mpr ⟨oneOf_error.mpr (h hlevel), fun format _ => ?_⟩
      cases format with
      | false => exact throw_isValueError
      | true => exact nofun

theorem documented_buildMasking (v : Value) : Documented (buildMasking v) := by
  unfold buildMasking
  apply documented_of_mapping.mpr
  intro d _
  split
  · exact documented_pure
  · apply documented_of_mapping.mpr
    intro p _
    exact documented_pure

theorem documented_buildRedis (d : Dict) : Documented (buildRedis d) ↔
    ∀ r, d.get? "redis" = some (.dict r) →
      (Dict.getD r "socket_timeout" (.int 5)).checkFloat = .ok () := by
  unfold buildRedis
  cases d.get? "redis" with
  | none => simp [documented_ok]
  | some v =>
    simp only [Option.some.injEq]
    rw [documented_of_mapping]
    apply forall₂_congr
    intro r _
    simp only [documented_bind, documented_escaping, documented_pure, implies_true, and_true]
    exact ⟨fun ⟨_, h⟩ => h, fun h => ⟨(), h⟩⟩

theorem exists_buildRedis_eq_ok {d : Dict} (h : Documented (buildRedis d)) :
    (∃ redis, buildRedis d = .ok redis) ↔ ∀ r, d.get? "redis" = some r → IsDict r := by
  rw [documented_buildRedis] at h
  unfold buildRedis
  cases hredis : d.get? "redis" with
  | none => simp
  | some v =>
    rw [hredis] at h
    simp only [bind_eq_ok, mapping_eq_ok, escaping_eq_ok, pure_eq_ok, Option.some.injEq,
      forall_eq'] at h ⊢
    constructor
    · intro hok
      obtain ⟨_, d, hd, -⟩ := hok
      exact ⟨d, hd⟩
    · intro hdict
      obtain ⟨r, rfl⟩ := hdict
      exact ⟨_, r, rfl, (), h r rfl, rfl⟩

theorem documented_buildAnalytics (v : Value) :
    Documented (buildAnalytics v) ↔ AnalyticsTyped v := by
  unfold buildAnalytics AnalyticsTyped
  rw [documented_of_mapping]
  apply forall₂_congr
  intro d _
  rw [documented_bind, ← documented_buildRedis]
  apply and_congr_right
  intro hredis
  rw [← exists_buildRedis_eq_ok hredis, exists_imp]
  apply forall₂_congr
  intro redis _
  simp only [documented_bind, documented_escaping, documented_pure, escaping_eq_ok, implies_true,
    and_true]
  constructor
  · intro h
    obtain ⟨⟨bucket, hbucket⟩, h⟩ := h
    obtain ⟨⟨retention, hretention⟩, h⟩ := h bucket hbucket
    obtain ⟨⟨heartbeat, hheartbeat⟩, h⟩ := h retention hretention
    obtain ⟨⟨queue, hqueue⟩, h⟩ := h heartbeat hheartbeat
    obtain ⟨⟨⟩, hflush⟩ := h queue hqueue
    exact ⟨⟨bucket, hbucket⟩, ⟨retention, hretention⟩, ⟨heartbeat, hheartbeat⟩, ⟨queue, hqueue⟩,
      hflush⟩
  · intro h
    exact ⟨h.bucketSeconds, fun _ _ => ⟨h.retentionSeconds, fun _ _ => ⟨h.heartbeatSeconds,
      fun _ _ => ⟨h.queueSize, fun _ _ => ⟨(), h.flushInterval⟩⟩⟩⟩⟩

theorem intOfLiteral_error {literal : List Char} {repr : String} (e : Exc)
    (h : Value.intOfLiteral literal repr = .error e) : IsValueError e := by
  unfold Value.intOfLiteral at h
  simp only at h
  split at h
  · cases h
    exact ⟨_, rfl⟩
  · split_ifs at h
    cases h
    exact ⟨_, rfl⟩

theorem toInt_error {v : Value} : (∀ e, v.toInt = .error e → IsValueError e) ↔ IsNumberLike v := by
  match v with
  | .int n => simp [Value.toInt, IsNumberLike]
  | .bool b => simp [Value.toInt, IsNumberLike]
  | .scalar (.float x) =>
    simp only [Value.toInt, IsNumberLike]
    cases x.value with
    | finite q => simp
    | inf negative => simp [IsValueError]
    | nan => simp [IsValueError, Value.valueError]
  | .str s =>
    simp only [Value.toInt, IsNumberLike, iff_true]
    exact intOfLiteral_error
  | .bytes bs =>
    simp only [Value.toInt, IsNumberLike, iff_true]
    exact intOfLiteral_error
  | .scalar .none | .scalar (.other _ _) | .list _ | .group _ _ | .dict _ =>
    simp [Value.toInt, IsNumberLike, IsValueError, Value.typeError]

theorem hasStr_error {v : Value} {s : String} :
    (∀ e, v.hasStr s = .error e → IsValueError e) ↔ IsCollection v := by
  match v with
  | .str t => simp [Value.hasStr, IsCollection]
  | .list items => simp [Value.hasStr, IsCollection]
  | .group kind items => simp [Value.hasStr, IsCollection]
  | .dict entries => simp [Value.hasStr, IsCollection]
  | .scalar .none | .scalar (.bool _) | .scalar (.int _) | .scalar (.float _) | .bytes _
  | .scalar (.other _ _) =>
    simp [Value.hasStr, IsCollection, IsValueError, Value.typeError]

theorem corsPostInit_error (c : CorsConfig) :
    (∀ e, c.postInit = .error e → IsValueError e) ↔
      (c.allowOrigins.truthy → IsCollection c.allowOrigins) := by
  unfold CorsConfig.postInit
  cases c.allowOrigins.truthy with
  | false =>
    simp only [Bool.not_false, if_true, Bool.false_eq_true, false_implies, iff_true]
    exact throw_isValueError
  | true =>
    simp only [Bool.not_true, Bool.false_eq_true, if_false, forall_const]
    rw [valueErrors_bind, hasStr_error]
    refine and_iff_left fun everyOrigin _ => ?_
    by_cases horigin : (everyOrigin && c.allowCredentials.truthy) = true
    · simp only [horigin, if_true]
      exact throw_isValueError
    · simp only [horigin]
      by_cases hage : c.maxAge < 0
      · simp only [hage, if_true]
        exact throw_isValueError
      · simp only [hage, if_false]
        exact nofun

theorem documented_buildCors (v : Value) : Documented (buildCors v) ↔ CorsTyped v := by
  unfold buildCors CorsTyped
  rw [documented_of_mapping]
  apply forall₂_congr
  intro d _
  rw [documented_catching, valueErrors_bind, toInt_error, exists_imp]
  apply and_congr_right
  intro _
  apply forall₂_congr
  intro maxAge _
  exact corsPostInit_error _

theorem documented_pluginDeclaration {field : String} {c : PluginDeclaration} :
    Documented (catching field (PluginDeclaration.postInit c)) := by
  apply documented_catching.mpr
  intro e he
  unfold PluginDeclaration.postInit at he
  split_ifs at he
  exact valueError_isValueError e he

theorem pluginDeclaration_eq_ok {c decl : PluginDeclaration} :
    PluginDeclaration.postInit c = .ok decl ↔ c.name.truthy ∧ decl = c := by
  unfold PluginDeclaration.postInit
  cases c.name.truthy with
  | false => simp [Value.valueError]
  | true =>
    simp only [Bool.not_true, Bool.false_eq_true, if_false, Except.ok.injEq, true_and]
    exact eq_comm

theorem pluginNamesTyped_cons {seen : List Scalar} {v : Value} {items : List Value} :
    PluginNamesTyped seen (v :: items) ↔
      ∀ d, v = .dict d → (Dict.getD d "name" (.str "")).truthy →
        LooksUp seen (Dict.getD d "name" (.str "")) ∧
          ∀ a, Dict.getD d "name" (.str "") = .scalar a → seen.any (·.pyEq a) = false →
            PluginNamesTyped (seen ++ [a]) items := by
  constructor
  · intro h d hd htruthy
    have hname := h [] v items rfl [] .nil trivial d hd htruthy
    rw [List.append_nil] at hname
    refine ⟨hname, fun a ha hseen before w after hsplit as hbefore hfresh => ?_⟩
    rw [ha] at htruthy
    rw [List.append_assoc, List.singleton_append]
    exact h (v :: before) w after (by rw [hsplit, List.cons_append]) (a :: as)
      (.cons ⟨d, hd, ha, htruthy⟩ hbefore) ⟨hseen, hfresh⟩
  · intro h before w after hsplit as hbefore hfresh
    cases hbefore with
    | nil =>
      obtain ⟨rfl, -⟩ := List.cons.inj hsplit
      intro d hd htruthy
      rw [List.append_nil]
      exact (h d hd htruthy).1
    | cons hfirst hrest =>
      obtain ⟨rfl, htail⟩ := List.cons.inj hsplit
      obtain ⟨d, hd, hname, htruthy⟩ := hfirst
      have hvalue : (Dict.getD d "name" (.str "")).truthy = true := by
        rw [hname]
        exact htruthy
      rw [List.append_cons]
      exact (h d hd hvalue).2 _ hname hfresh.1 _ w after htail _ hrest hfresh.2

theorem documented_buildPluginsFrom {i : ℕ} {seen : List Scalar} {items : List Value} :
    Documented (buildPluginsFrom i seen items) ↔ PluginNamesTyped seen items := by
  induction items generalizing i seen with
  | nil =>
    refine ⟨fun _ before w after h => ?_, fun _ => documented_ok⟩
    simp at h
  | cons v items ih =>
    unfold buildPluginsFrom
    rw [documented_of_mapping, pluginNamesTyped_cons]
    apply forall₂_congr
    intro d _
    simp only [documented_bind, documented_pluginDeclaration, true_and, catching_eq_ok,
      pluginDeclaration_eq_ok, documented_seenBefore]
    constructor
    · intro h htruthy
      obtain ⟨hscalar, hrest⟩ := h _ ⟨htruthy, rfl⟩
      refine ⟨⟨hscalar, fun a ha hseen => ?_⟩, fun a ha hseen => ?_⟩
      · have hstep := hrest (a, true) (seenBefore_eq_ok.mpr ⟨ha, hseen.symm⟩)
        exact documented_duplicate.mp hstep
      · have hstep := hrest (a, false) (seenBefore_eq_ok.mpr ⟨ha, hseen.symm⟩)
        simp only [Bool.false_eq_true, if_false] at hstep
        exact ih.mp (documented_bind.mp hstep).1
    · intro h decl hdecl
      obtain ⟨htruthy, rfl⟩ := hdecl
      obtain ⟨⟨hscalar, hprints⟩, hitems⟩ := h htruthy
      refine ⟨hscalar, fun x hx => ?_⟩
      obtain ⟨a, duplicate⟩ := x
      obtain ⟨ha, hseen⟩ := seenBefore_eq_ok.mp hx
      cases duplicate with
      | true => exact documented_duplicate.mpr (hprints a ha hseen.symm)
      | false =>
        simp only [Bool.false_eq_true, if_false]
        apply documented_bind.mpr
        exact ⟨ih.mpr (hitems a ha hseen.symm), fun _ _ => documented_pure⟩

theorem documented_buildPlugins (v : Value) : Documented (buildPlugins v) ↔ PluginsTyped v := by
  unfold buildPlugins PluginsTyped
  simp only [documented_bind, documented_sequence, sequence_eq_ok, true_and,
    documented_buildPluginsFrom]

end Loader

end McpZero.Governance
