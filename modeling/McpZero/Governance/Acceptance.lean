import McpZero.Governance.PolicyFile

/-! Which documents the loader accepts, said of the document alone. -/
namespace McpZero.Governance
open Python Lib

/-- A list of mappings that all satisfy `P`. -/
def Mappings (P : Dict → Prop) (v : Value) : Prop :=
  ∃ ds : List Dict, v = .list (ds.map .dict) ∧ ∀ d ∈ ds, P d

/-- The field of every mapping in a list is hashable, and no two of them have the same. -/
def Distinct (key : String) (v : Value) : Prop :=
  ∀ ds : List Dict, v = .list (ds.map .dict) → ∃ as : List Scalar,
    (ds.map fun d => d.getD key (.str "")) = as.map .scalar ∧
      as.Pairwise fun a b => a.pyEq b = false

def IsEffect (v : Value) : Prop := v = .str "allow" ∨ v = .str "deny"

def IdentityAccepted (v : Value) : Prop :=
  ∃ d : Dict, v = .dict d ∧ (d.getD "provider" (.str "")).truthy ∧
    (d.getD "issuer" (.str "")).truthy ∧ (d.getD "audience" (.str "")).truthy ∧
      ((d.getD "allow_insecure" (.bool false)).truthy = false → IsHttps (d.getD "issuer" (.str "")))

def ServerAccepted (d : Dict) : Prop :=
  (d.getD "name" (.str "")).truthy ∧ isTransport (d.getD "transport" (.str ""))

def AccessAccepted (d : Dict) : Prop := (d.getD "name" (.str "")).truthy

structure RuleAccepted (d : Dict) : Prop where
  effect : IsEffect (d.getD "effect" (.str "allow"))
  subjects : Field IsDict "subjects" d
  mcpServers : Mappings AccessAccepted (d.getD "mcp_servers" (.list []))
  id : (d.getD "id" (.str "")).truthy
  description : (d.getD "description" (.str "")).truthy

def LoggingAccepted (v : Value) : Prop :=
  ∃ d : Dict, v = .dict d ∧ isLevel (d.getD "level" (.str "INFO")) = .ok true ∧
    oneOf Char.toLower "lower" ["json", "text"] (d.getD "format" (.str "json")) = .ok true

def MaskingAccepted (v : Value) : Prop := ∃ d : Dict, v = .dict d ∧ Field IsDict "presidio" d

def RedisAccepted (v : Value) : Prop :=
  ∃ d : Dict, v = .dict d ∧ (d.getD "socket_timeout" (.int 5)).checkFloat = .ok ()

def AnalyticsAccepted (v : Value) : Prop :=
  ∃ d : Dict, v = .dict d ∧ Field RedisAccepted "redis" d ∧ Converts d

def CorsAccepted (v : Value) : Prop :=
  ∃ d : Dict, v = .dict d ∧ ∃ maxAge, (d.getD "max_age" (.int 600)).toInt = .ok maxAge ∧
    0 ≤ maxAge ∧ (d.getD "allow_origins" (.list [])).truthy ∧
    ∃ everyOrigin, (d.getD "allow_origins" (.list [])).hasStr "*" = .ok everyOrigin ∧
      (everyOrigin → (d.getD "allow_credentials" (.bool false)).truthy = false)

def PluginAccepted (d : Dict) : Prop := (d.getD "name" (.str "")).truthy

/-- A server with the name stands in the document. -/
def DeclaresServer (d : Dict) (s : String) : Prop :=
  ∃ ds : List Dict, d.getD "servers" (.list []) = .list (ds.map .dict) ∧
    ∃ e ∈ ds, e.getD "name" (.str "") = .str s

/-- The name of a server in a rule holds a wildcard or is that of a server. -/
def RefersIn (d : Dict) (name : Value) : Prop :=
  name.hasStr "*" = .ok true ∨ ∃ s, name = .str s ∧ DeclaresServer d s

/-- The fields and sections of a document are as the loader wants them. Nothing is said of the
types of users, groups and tools, as far as the tools can be run over. -/
structure Accepted (d : Dict) : Prop where
  version : ∃ v, d.get? "version" = some v ∧ isVersionOne v
  default : IsEffect (d.getD "default" (.str "deny"))
  identity : Field IdentityAccepted "identity" d
  servers : Mappings ServerAccepted (d.getD "servers" (.list []))
  serverNames : Distinct "name" (d.getD "servers" (.list []))
  policies : Mappings RuleAccepted (d.getD "policies" (.list []))
  ruleIds : Distinct "id" (d.getD "policies" (.list []))
  logging : Field LoggingAccepted "logging" d
  masking : Field MaskingAccepted "masking" d
  analytics : Field AnalyticsAccepted "analytics" d
  cors : Field CorsAccepted "cors" d
  plugins : Field (fun v => Mappings PluginAccepted v ∧ Distinct "name" v) "plugins" d
  references : Items (Items (fun a => RefersIn d (a.getD "name" (.str ""))) "mcp_servers")
    "policies" d
  tools : Items (Items (fun a => ¬ ToolsTrip (a.getD "tools" (.list []))) "mcp_servers")
    "policies" d

theorem fresh_iff {seen as : List Scalar} : Fresh seen as ↔
    (∀ s ∈ seen, ∀ a ∈ as, s.pyEq a = false) ∧ as.Pairwise fun a b => a.pyEq b = false := by
  induction as generalizing seen with
  | nil => simp [Fresh]
  | cons a as ih =>
    rw [Fresh, ih, List.pairwise_cons, List.any_eq_false]
    simp only [List.mem_append, List.mem_singleton, List.forall_mem_cons, Bool.not_eq_true]
    constructor
    · intro h
      obtain ⟨hfirst, hseen, hrest⟩ := h
      exact ⟨fun s hs => ⟨hfirst s hs, hseen s (.inl hs)⟩, hseen a (.inr rfl), hrest⟩
    · intro h
      obtain ⟨hseen, hfirst, hrest⟩ := h
      refine ⟨fun s hs => (hseen s hs).1, fun s hs => ?_, hrest⟩
      rcases hs with hs | rfl
      · exact (hseen s hs).2
      · exact hfirst

theorem mappings_cons {P : Dict → Prop} {v : Value} {items : List Value} :
    Mappings P (.list (v :: items)) ↔ (∃ d, v = .dict d ∧ P d) ∧ Mappings P (.list items) := by
  constructor
  · intro h
    obtain ⟨ds, hds, hall⟩ := h
    cases ds with
    | nil => cases hds
    | cons d ds =>
      obtain ⟨rfl, rfl⟩ := List.cons.inj (Value.list.inj hds)
      obtain ⟨hd, hall⟩ := List.forall_mem_cons.mp hall
      exact ⟨⟨d, rfl, hd⟩, ds, rfl, hall⟩
  · intro h
    obtain ⟨⟨d, rfl, hd⟩, ds, hds, hall⟩ := h
    obtain rfl := Value.list.inj hds
    exact ⟨d :: ds, rfl, List.forall_mem_cons.mpr ⟨hd, hall⟩⟩

theorem mappings_iff {P : Dict → Prop} {items : List Value} :
    Mappings P (.list items) ↔ ∀ v ∈ items, ∃ d, v = .dict d ∧ P d := by
  induction items with
  | nil => exact ⟨fun _ => List.forall_mem_nil _, fun _ => ⟨[], rfl, List.forall_mem_nil _⟩⟩
  | cons v items ih => rw [mappings_cons, List.forall_mem_cons, ih]

theorem exists_list_of_mappings {P : Dict → Prop} {v : Value} (h : Mappings P v) :
    ∃ items, v = .list items := by
  obtain ⟨ds, hds, -⟩ := h
  exact ⟨_, hds⟩

theorem isEffect_iff {v : Value} : (∃ e, PolicyEffect.ofValue? v = some e) ↔ IsEffect v := by
  unfold PolicyEffect.ofValue? IsEffect
  split
  · simp
  · simp
  · rename_i hallow hdeny
    simp only [reduceCtorEq, exists_false, false_iff]
    rintro (rfl | rfl)
    · exact hallow rfl
    · exact hdeny rfl

namespace Loader

theorem checkDistinct_eq_ok {what field : String} {seen : List Scalar} {names : List Value} :
    checkDistinct what field seen names = .ok () ↔
      ∃ as : List Scalar, names = as.map .scalar ∧ Fresh seen as := by
  induction names generalizing seen with
  | nil =>
    simp only [checkDistinct, true_iff]
    exact ⟨[], rfl, trivial⟩
  | cons v names ih =>
    unfold checkDistinct
    simp only [bind_eq_ok, Prod.exists, seenBefore_eq_ok]
    constructor
    · intro h
      obtain ⟨a, duplicate, ⟨rfl, hseen⟩, h⟩ := h
      cases duplicate with
      | true =>
        obtain ⟨_, h, -⟩ := bind_eq_ok.mp h
        cases h
      | false =>
        obtain ⟨as, rfl, hfresh⟩ := ih.mp h
        exact ⟨a :: as, rfl, hseen.symm, hfresh⟩
    · intro h
      obtain ⟨as, has, hfresh⟩ := h
      cases as with
      | nil => cases has
      | cons a as =>
        obtain ⟨rfl, rfl⟩ := List.cons.inj has
        exact ⟨a, false, ⟨rfl, hfresh.1.symm⟩, ih.mpr ⟨as, rfl, hfresh.2⟩⟩

section Items
variable {β : Type} {build : Value → ℕ → Except LoadError β} {P : Dict → Prop}

/-- A list of items can be built exactly if all of them are mappings from which one can. -/
theorem exists_mapM_iff (hbuild : ∀ v i, (∃ b, build v i = .ok b) ↔ ∃ d, v = .dict d ∧ P d)
    {items : List Value} :
    (∃ bs, (items.zipIdx.mapM fun (v, i) => build v i) = .ok bs) ↔ Mappings P (.list items) := by
  rw [exists_mapM_eq_ok_iff, mappings_iff]
  constructor
  · intro h v hv
    obtain ⟨i, hi⟩ := List.mem_iff_getElem?.mp hv
    exact (hbuild v i).mp (h (v, i) (List.mk_mem_zipIdx_iff_getElem?.mpr hi))
  · intro h x hx
    exact (hbuild x.1 x.2).mpr (h x.1 (List.fst_mem_of_mem_zipIdx hx))

/-- The names of the items are those of the mappings that they are built from. -/
theorem map_name {name : β → Value} {key : String}
    (hname : ∀ d i b, build (.dict d) i = .ok b → name b = Dict.getD d key (.str ""))
    {ds : List Dict} {bs : List β}
    (h : ((ds.map Value.dict).zipIdx.mapM fun (v, i) => build v i) = .ok bs) :
    bs.map name = ds.map fun d => Dict.getD d key (.str "") := by
  have hpairs := forall₂_of_zipIdx_mapM h
  rw [List.forall₂_map_left_iff] at hpairs
  clear h
  induction hpairs with
  | nil => rfl
  | cons hb _ ih =>
    obtain ⟨i, hi⟩ := hb
    rw [List.map_cons, List.map_cons, hname _ i _ hi, ih]

/-- A list of items with names that are looked for in a set. -/
theorem exists_distinct_iff {name : β → Value} {key what field : String}
    (hbuild : ∀ v i, (∃ b, build v i = .ok b) ↔ ∃ d, v = .dict d ∧ P d)
    (hname : ∀ d i b, build (.dict d) i = .ok b → name b = Dict.getD d key (.str "")) {v : Value} :
    (∃ items, v = .list items ∧ ∃ bs, (items.zipIdx.mapM fun (v, i) => build v i) = .ok bs ∧
      checkDistinct what field [] (bs.map name) = .ok ()) ↔ Mappings P v ∧ Distinct key v := by
  constructor
  · intro h
    obtain ⟨items, rfl, bs, hbs, hdistinct⟩ := h
    refine ⟨(exists_mapM_iff hbuild).mp ⟨bs, hbs⟩, fun ds hds => ?_⟩
    obtain rfl := Value.list.inj hds
    obtain ⟨as, has, hfresh⟩ := checkDistinct_eq_ok.mp hdistinct
    rw [map_name hname hbs] at has
    exact ⟨as, has, (fresh_iff.mp hfresh).2⟩
  · intro h
    obtain ⟨hall, hdistinct⟩ := h
    obtain ⟨ds, rfl, -⟩ := id hall
    obtain ⟨bs, hbs⟩ := (exists_mapM_iff hbuild).mpr hall
    obtain ⟨as, has, hpairwise⟩ := hdistinct ds rfl
    refine ⟨_, rfl, bs, hbs, checkDistinct_eq_ok.mpr ⟨as, ?_, fresh_iff.mpr ⟨nofun, hpairwise⟩⟩⟩
    rw [map_name hname hbs, has]

end Items

theorem exists_section?_iff {α : Type} {P : Value → Prop} {data : Dict} {key : String}
    {build : Value → Except LoadError α} (h : ∀ v, (∃ a, build v = .ok a) ↔ P v) :
    (∃ a, section? data key build = .ok a) ↔ Field P key data := by
  unfold section? Field
  cases data.get? key with
  | none => simp
  | some v =>
    dsimp only
    rw [exists_bind_eq_ok]
    simp [pure_eq_ok, ← h]

theorem exists_buildVersion_iff {d : Dict} :
    (∃ v, buildVersion d = .ok v ∧ isVersionOne v = true) ↔
      ∃ v, d.get? "version" = some v ∧ isVersionOne v = true := by
  unfold buildVersion
  cases d.get? "version" with
  | none => simp
  | some v =>
    constructor
    · intro h
      obtain ⟨w, hw, hone⟩ := h
      dsimp only at hw
      split_ifs at hw
      obtain rfl := Except.ok.inj hw
      exact ⟨v, rfl, hone⟩
    · intro h
      obtain ⟨w, hw, hone⟩ := h
      obtain rfl := Option.some.inj hw
      refine ⟨v, ?_, hone⟩
      unfold isVersionOne at hone
      split at hone
      · rfl
      · rfl
      · cases hone

/-- A section that has to be a mapping. -/
theorem exists_of_mapping {α : Type} {v : Value} {message field : String}
    {f : Dict → Except LoadError α} : (∃ a, (mapping v message field >>= f) = .ok a) ↔
      ∃ d, v = .dict d ∧ ∃ a, f d = .ok a := by
  rw [exists_bind_eq_ok]
  simp only [mapping_eq_ok]

theorem exists_buildIdentity_iff (v : Value) :
    (∃ c, buildIdentity v = .ok c) ↔ IdentityAccepted v := by
  unfold buildIdentity IdentityAccepted IdentityProviderConfig.postInit
  rw [exists_of_mapping]
  refine exists_congr fun d => and_congr_right fun _ => ?_
  simp only [catching_eq_ok]
  cases (Dict.getD d "provider" (.str "")).truthy with
  | false => simp
  | true =>
    cases (Dict.getD d "issuer" (.str "")).truthy with
    | false => simp
    | true =>
      cases (Dict.getD d "audience" (.str "")).truthy with
      | false => simp
      | true =>
        cases (Dict.getD d "allow_insecure" (.bool false)).truthy with
        | true => simp
        | false =>
          rw [← @requireHttps_eq_ok _ "identity.issuer"]
          cases requireHttps (Dict.getD d "issuer" (.str "")) "identity.issuer" <;> simp

theorem exists_buildServer_iff (v : Value) (i : ℕ) :
    (∃ c, buildServer v i = .ok c) ↔ ∃ d, v = .dict d ∧ ServerAccepted d := by
  unfold buildServer ServerAccepted ServerDefinition.postInit
  rw [exists_of_mapping]
  refine exists_congr fun d => and_congr_right fun _ => ?_
  simp only [catching_eq_ok]
  cases (Dict.getD d "name" (.str "")).truthy with
  | false => simp
  | true => cases isTransport (Dict.getD d "transport" (.str "")) <;> simp

theorem buildServer_name (d : Dict) (i : ℕ) (c : ServerDefinition)
    (h : buildServer (.dict d) i = .ok c) : c.name = d.getD "name" (.str "") := by
  unfold buildServer ServerDefinition.postInit at h
  simp only [bind_eq_ok, mapping_eq_ok, catching_eq_ok] at h
  obtain ⟨d', hd, hinit⟩ := h
  cases hd
  split_ifs at hinit
  cases hinit
  rfl

theorem exists_buildServers_iff {d : Dict} : (∃ servers, buildServers d = .ok servers) ↔
    Mappings ServerAccepted (d.getD "servers" (.list [])) ∧
      Distinct "name" (d.getD "servers" (.list [])) := by
  rw [← exists_distinct_iff exists_buildServer_iff buildServer_name]
  unfold buildServers
  simp only [bind_eq_ok, sequence_eq_ok, pure_eq_ok]
  constructor
  · intro h
    obtain ⟨servers, raw, hraw, cs, hcs, ⟨⟩, hdistinct, -⟩ := h
    exact ⟨raw, hraw, cs, hcs, hdistinct⟩
  · intro h
    obtain ⟨raw, hraw, cs, hcs, hdistinct⟩ := h
    exact ⟨cs, raw, hraw, cs, hcs, (), hdistinct, rfl⟩

theorem exists_buildSubjects_iff {d : Dict} {i : ℕ} :
    (∃ s, buildSubjects d i = .ok s) ↔ Field IsDict "subjects" d := by
  unfold buildSubjects Field IsDict
  cases d.get? "subjects" with
  | none => simp
  | some v =>
    dsimp only
    rw [exists_of_mapping]
    simp [pure_eq_ok]

theorem exists_buildAccess_iff (i : ℕ) (v : Value) (j : ℕ) :
    (∃ a, buildAccess i v j = .ok a) ↔ ∃ ms, v = .dict ms ∧ AccessAccepted ms := by
  simp only [buildAccess_eq_ok, AccessAccepted]
  constructor
  · intro h
    obtain ⟨a, ms, rfl, rfl, htruthy⟩ := h
    exact ⟨ms, rfl, htruthy⟩
  · intro h
    obtain ⟨ms, rfl, htruthy⟩ := h
    exact ⟨_, ms, rfl, rfl, htruthy⟩

theorem exists_buildPolicyRule_iff (v : Value) (i : ℕ) :
    (∃ r, buildPolicyRule v i = .ok r) ↔ ∃ d, v = .dict d ∧ RuleAccepted d := by
  have hinit {c : PolicyRule} : (∃ r, c.postInit = .ok r) ↔ c.id.truthy ∧ c.description.truthy := by
    unfold PolicyRule.postInit
    cases c.id.truthy with
    | false => simp
    | true => cases c.description.truthy <;> simp
  unfold buildPolicyRule
  rw [exists_of_mapping]
  refine exists_congr fun d => and_congr_right fun _ => ?_
  simp only [exists_bind_eq_ok, effect_eq_ok, sequence_eq_ok, catching_eq_ok, hinit]
  constructor
  · intro h
    obtain ⟨e, he, s, hs, raw, hraw, as, has, hid, hdescription⟩ := h
    refine ⟨isEffect_iff.mp ⟨e, he⟩, exists_buildSubjects_iff.mp ⟨s, hs⟩, ?_, hid, hdescription⟩
    rw [hraw]
    exact (exists_mapM_iff (exists_buildAccess_iff i)).mp ⟨as, has⟩
  · intro h
    obtain ⟨e, he⟩ := isEffect_iff.mpr h.effect
    obtain ⟨s, hs⟩ := exists_buildSubjects_iff (i := i).mpr h.subjects
    obtain ⟨raw, hraw⟩ := exists_list_of_mappings h.mcpServers
    have hservers := h.mcpServers
    rw [hraw] at hservers
    obtain ⟨as, has⟩ := (exists_mapM_iff (exists_buildAccess_iff i)).mpr hservers
    exact ⟨e, he, s, hs, raw, hraw, as, has, h.id, h.description⟩

theorem buildPolicyRule_id (d : Dict) (i : ℕ) (r : PolicyRule)
    (h : buildPolicyRule (.dict d) i = .ok r) : r.id = d.getD "id" (.str "") := by
  obtain ⟨d', _, hd, -, -, -, -, hid, -⟩ := buildPolicyRule_eq_ok h
  cases hd
  exact hid

theorem exists_buildPolicies_iff {d : Dict} : (∃ rules, buildPolicies d = .ok rules) ↔
    Mappings RuleAccepted (d.getD "policies" (.list [])) ∧
      Distinct "id" (d.getD "policies" (.list [])) := by
  rw [← exists_distinct_iff exists_buildPolicyRule_iff buildPolicyRule_id]
  unfold buildPolicies
  simp only [bind_eq_ok, sequence_eq_ok, pure_eq_ok]
  constructor
  · intro h
    obtain ⟨rules, raw, hraw, rs, hrs, ⟨⟩, hdistinct, -⟩ := h
    exact ⟨raw, hraw, rs, hrs, hdistinct⟩
  · intro h
    obtain ⟨raw, hraw, rs, hrs, hdistinct⟩ := h
    exact ⟨rs, raw, hraw, rs, hrs, (), hdistinct, rfl⟩

theorem exists_buildLogging_iff (v : Value) :
    (∃ c, buildLogging v = .ok c) ↔ LoggingAccepted v := by
  unfold buildLogging LoggingAccepted LoggingConfig.postInit isLevel
  rw [exists_of_mapping]
  refine exists_congr fun d => and_congr_right fun _ => ?_
  simp only [catching_eq_ok, exists_bind_eq_ok]
  constructor
  · intro h
    obtain ⟨level, hlevel, c, h⟩ := h
    cases level with
    | false =>
      obtain ⟨_, h, -⟩ := bind_eq_ok.mp h
      cases h
    | true =>
      simp only [Bool.not_true, Bool.false_eq_true, if_false] at h
      obtain ⟨format, hformat, h⟩ := bind_eq_ok.mp h
      cases format with
      | false =>
        obtain ⟨_, h, -⟩ := bind_eq_ok.mp h
        cases h
      | true => exact ⟨hlevel, hformat⟩
  · intro h
    refine ⟨true, h.1, ?_⟩
    simp [h.2, exists_bind_eq_ok, pure_eq_ok]

theorem exists_buildMasking_iff (v : Value) :
    (∃ c, buildMasking v = .ok c) ↔ MaskingAccepted v := by
  unfold buildMasking MaskingAccepted Field IsDict
  rw [exists_of_mapping]
  refine exists_congr fun d => and_congr_right fun _ => ?_
  cases Dict.get? d "presidio" with
  | none => simp [pure_eq_ok]
  | some p =>
    dsimp only
    rw [exists_of_mapping]
    simp [pure_eq_ok]

theorem exists_buildRedis_iff {d : Dict} :
    (∃ redis, buildRedis d = .ok redis) ↔ Field RedisAccepted "redis" d := by
  unfold buildRedis Field RedisAccepted
  cases d.get? "redis" with
  | none => simp
  | some v =>
    dsimp only
    rw [exists_of_mapping]
    simp only [exists_bind_eq_ok, escaping_eq_ok, pure_eq_ok, exists_eq', Option.some.injEq,
      forall_eq']
    refine exists_congr fun d => and_congr_right fun _ => ?_
    constructor
    · intro h
      obtain ⟨⟨⟩, h, -⟩ := h
      exact h
    · intro h
      exact ⟨(), h, trivial⟩

theorem exists_buildAnalytics_iff (v : Value) :
    (∃ c, buildAnalytics v = .ok c) ↔ AnalyticsAccepted v := by
  unfold buildAnalytics AnalyticsAccepted
  rw [exists_of_mapping]
  refine exists_congr fun d => and_congr_right fun _ => ?_
  rw [exists_bind_eq_ok, ← exists_buildRedis_iff]
  simp only [exists_bind_eq_ok, escaping_eq_ok, pure_eq_ok, exists_eq', and_true]
  constructor
  · intro h
    obtain ⟨redis, hredis, bucket, hbucket, retention, hretention, heartbeat, hheartbeat, queue,
      hqueue, ⟨⟩, hflush⟩ := h
    exact ⟨⟨redis, hredis⟩, ⟨bucket, hbucket⟩, ⟨retention, hretention⟩, ⟨heartbeat, hheartbeat⟩,
      ⟨queue, hqueue⟩, hflush⟩
  · intro h
    obtain ⟨⟨redis, hredis⟩, hconverts⟩ := h
    obtain ⟨bucket, hbucket⟩ := hconverts.bucketSeconds
    obtain ⟨retention, hretention⟩ := hconverts.retentionSeconds
    obtain ⟨heartbeat, hheartbeat⟩ := hconverts.heartbeatSeconds
    obtain ⟨queue, hqueue⟩ := hconverts.queueSize
    exact ⟨redis, hredis, bucket, hbucket, retention, hretention, heartbeat, hheartbeat, queue,
      hqueue, (), hconverts.flushInterval⟩

theorem exists_corsPostInit_iff {c : CorsConfig} : (∃ c', c.postInit = .ok c') ↔
    0 ≤ c.maxAge ∧ c.allowOrigins.truthy ∧ ∃ everyOrigin, c.allowOrigins.hasStr "*" =
      .ok everyOrigin ∧ (everyOrigin → c.allowCredentials.truthy = false) := by
  unfold CorsConfig.postInit
  cases c.allowOrigins.truthy with
  | false =>
    simp only [Bool.not_false, if_true, Bool.false_eq_true, false_and, and_false, iff_false]
    rintro ⟨_, h⟩
    obtain ⟨_, h, -⟩ := bind_eq_ok.mp h
    cases h
  | true =>
    simp only [Bool.not_true, Bool.false_eq_true, if_false, exists_bind_eq_ok, true_and]
    constructor
    · intro h
      obtain ⟨every, hevery, c', h⟩ := h
      by_cases hboth : (every && c.allowCredentials.truthy) = true
      · simp only [hboth, if_true] at h
        obtain ⟨_, h, -⟩ := bind_eq_ok.mp h
        cases h
      · simp only [hboth] at h
        by_cases hage : c.maxAge < 0
        · simp only [hage, if_true, Bool.false_eq_true, if_false] at h
          obtain ⟨_, h, -⟩ := bind_eq_ok.mp h
          cases h
        · refine ⟨Int.not_lt.mp hage, every, hevery, ?_⟩
          rintro rfl
          simpa using hboth
    · intro h
      obtain ⟨hage, every, hevery, hcredentials⟩ := h
      have hboth : (every && c.allowCredentials.truthy) = false := by
        cases every with
        | false => rfl
        | true => simpa using hcredentials rfl
      refine ⟨every, hevery, ?_⟩
      simp [hboth, Int.not_lt.mpr hage, pure_eq_ok]

theorem exists_buildCors_iff (v : Value) : (∃ c, buildCors v = .ok c) ↔ CorsAccepted v := by
  unfold buildCors CorsAccepted
  rw [exists_of_mapping]
  refine exists_congr fun d => and_congr_right fun _ => ?_
  simp only [catching_eq_ok, exists_bind_eq_ok, exists_corsPostInit_iff]

theorem exists_buildPluginsFrom_iff {i : ℕ} {seen : List Scalar} {items : List Value} :
    (∃ decls, buildPluginsFrom i seen items = .ok decls) ↔
      ∃ (ds : List Dict) (as : List Scalar), items = ds.map .dict ∧ (∀ d ∈ ds, PluginAccepted d) ∧
        (ds.map fun d => d.getD "name" (.str "")) = as.map .scalar ∧ Fresh seen as := by
  induction items generalizing i seen with
  | nil =>
    simp only [buildPluginsFrom, Except.ok.injEq, exists_eq', true_iff]
    exact ⟨[], [], rfl, List.forall_mem_nil _, rfl, trivial⟩
  | cons v items ih =>
    unfold buildPluginsFrom
    simp only [bind_eq_ok, mapping_eq_ok, catching_eq_ok, pluginDeclaration_eq_ok, Prod.exists,
      seenBefore_eq_ok]
    constructor
    · intro h
      obtain ⟨decls, d, rfl, decl, ⟨htruthy, rfl⟩, a, duplicate, ⟨hname, hseen⟩, h⟩ := h
      cases duplicate with
      | true =>
        obtain ⟨_, h, -⟩ := bind_eq_ok.mp h
        cases h
      | false =>
        obtain ⟨rest, hrest, -⟩ := bind_eq_ok.mp h
        obtain ⟨ds, as, rfl, hall, hnames, hfresh⟩ := ih.mp ⟨rest, hrest⟩
        exact ⟨d :: ds, a :: as, rfl, List.forall_mem_cons.mpr ⟨htruthy, hall⟩,
          congrArg₂ List.cons hname hnames, hseen.symm, hfresh⟩
    · intro h
      obtain ⟨ds, as, hitems, hall, hnames, hfresh⟩ := h
      cases ds with
      | nil => cases hitems
      | cons d ds =>
        obtain ⟨rfl, rfl⟩ := List.cons.inj hitems
        cases as with
        | nil => cases hnames
        | cons a as =>
          obtain ⟨hname, hnames⟩ := List.cons.inj hnames
          obtain ⟨htruthy, hall⟩ := List.forall_mem_cons.mp hall
          obtain ⟨rest, hrest⟩ := ih.mpr ⟨ds, as, rfl, hall, hnames, hfresh.2⟩
          exact ⟨_, d, rfl, _, ⟨htruthy, rfl⟩, a, false, ⟨hname, hfresh.1.symm⟩,
            bind_eq_ok.mpr ⟨rest, hrest, rfl⟩⟩

theorem exists_buildPlugins_iff (v : Value) : (∃ decls, buildPlugins v = .ok decls) ↔
    Mappings PluginAccepted v ∧ Distinct "name" v := by
  unfold buildPlugins
  simp only [bind_eq_ok, sequence_eq_ok]
  constructor
  · intro h
    obtain ⟨decls, items, rfl, h⟩ := h
    obtain ⟨ds, as, rfl, hall, hnames, hfresh⟩ := exists_buildPluginsFrom_iff.mp ⟨decls, h⟩
    refine ⟨⟨ds, rfl, hall⟩, fun ds' hds' => ⟨as, ?_, (fresh_iff.mp hfresh).2⟩⟩
    have hinj : Function.Injective Value.dict := fun _ _ h => Value.dict.inj h
    rw [← List.map_injective_iff.mpr hinj (Value.list.inj hds'), hnames]
  · intro h
    obtain ⟨⟨ds, rfl, hall⟩, hdistinct⟩ := h
    obtain ⟨as, hnames, hpairwise⟩ := hdistinct ds rfl
    obtain ⟨decls, hdecls⟩ := exists_buildPluginsFrom_iff (i := 0).mpr
      ⟨ds, as, rfl, hall, hnames, fresh_iff.mpr ⟨List.forall_mem_nil _, hpairwise⟩⟩
    exact ⟨decls, _, rfl, hdecls⟩

/-- The sections of a document can be built. -/
structure Buildable (d : Dict) : Prop where
  version : ∃ v, d.get? "version" = some v ∧ isVersionOne v
  default : IsEffect (d.getD "default" (.str "deny"))
  identity : Field IdentityAccepted "identity" d
  servers : Mappings ServerAccepted (d.getD "servers" (.list [])) ∧
    Distinct "name" (d.getD "servers" (.list []))
  policies : Mappings RuleAccepted (d.getD "policies" (.list [])) ∧
    Distinct "id" (d.getD "policies" (.list []))
  logging : Field LoggingAccepted "logging" d
  masking : Field MaskingAccepted "masking" d
  analytics : Field AnalyticsAccepted "analytics" d
  cors : Field CorsAccepted "cors" d
  plugins : Field (fun v => Mappings PluginAccepted v ∧ Distinct "name" v) "plugins" d

theorem exists_buildPolicyConfig_iff {d : Dict} :
    (∃ p, buildPolicyConfig d = .ok p) ↔ Buildable d := by
  unfold buildPolicyConfig PolicyConfig.postInit
  simp only [exists_bind_eq_ok, effect_eq_ok, catching_eq_ok]
  constructor
  · intro h
    obtain ⟨version, hversion, default, hdefault, identity, hidentity, servers, hservers,
      policies, hpolicies, logging, hlogging, masking, hmasking, analytics, hanalytics, cors,
      hcors, plugins, hplugins, p, hinit⟩ := h
    split_ifs at hinit with hone
    exact {
      version := exists_buildVersion_iff.mp ⟨version, hversion, by simpa using hone⟩
      default := isEffect_iff.mp ⟨default, hdefault⟩
      identity := (exists_section?_iff exists_buildIdentity_iff).mp ⟨identity, hidentity⟩
      servers := exists_buildServers_iff.mp ⟨servers, hservers⟩
      policies := exists_buildPolicies_iff.mp ⟨policies, hpolicies⟩
      logging := (exists_section?_iff exists_buildLogging_iff).mp ⟨logging, hlogging⟩
      masking := (exists_section?_iff exists_buildMasking_iff).mp ⟨masking, hmasking⟩
      analytics := (exists_section?_iff exists_buildAnalytics_iff).mp ⟨analytics, hanalytics⟩
      cors := (exists_section?_iff exists_buildCors_iff).mp ⟨cors, hcors⟩
      plugins := (exists_section?_iff exists_buildPlugins_iff).mp ⟨plugins, hplugins⟩ }
  · intro h
    obtain ⟨version, hversion, hone⟩ := exists_buildVersion_iff.mpr h.version
    obtain ⟨default, hdefault⟩ := isEffect_iff.mpr h.default
    obtain ⟨identity, hidentity⟩ := (exists_section?_iff exists_buildIdentity_iff).mpr h.identity
    obtain ⟨servers, hservers⟩ := exists_buildServers_iff.mpr h.servers
    obtain ⟨policies, hpolicies⟩ := exists_buildPolicies_iff.mpr h.policies
    obtain ⟨logging, hlogging⟩ := (exists_section?_iff exists_buildLogging_iff).mpr h.logging
    obtain ⟨masking, hmasking⟩ := (exists_section?_iff exists_buildMasking_iff).mpr h.masking
    obtain ⟨analytics, hanalytics⟩ :=
      (exists_section?_iff exists_buildAnalytics_iff).mpr h.analytics
    obtain ⟨cors, hcors⟩ := (exists_section?_iff exists_buildCors_iff).mpr h.cors
    obtain ⟨plugins, hplugins⟩ := (exists_section?_iff exists_buildPlugins_iff).mpr h.plugins
    refine ⟨version, hversion, default, hdefault, identity, hidentity, servers, hservers,
      policies, hpolicies, logging, hlogging, masking, hmasking, analytics, hanalytics, cors,
      hcors, plugins, hplugins, ?_⟩
    simp [hone]

theorem declares_iff {d : Dict} {p : PolicyConfig} (h : buildPolicyConfig d = .ok p) {s : String} :
    p.Declares s ↔ DeclaresServer d s := by
  obtain ⟨-, hservers, -⟩ := buildPolicyConfig_eq_ok h
  have hmappings := (exists_buildServers_iff.mp ⟨p.servers, hservers⟩).1
  unfold buildServers at hservers
  simp only [bind_eq_ok, sequence_eq_ok, pure_eq_ok] at hservers
  obtain ⟨raw, hraw, cs, hcs, -, -, rfl⟩ := hservers
  obtain ⟨ds, hds, -⟩ := hmappings
  rw [hraw] at hds
  obtain rfl := Value.list.inj hds
  have hnames := map_name buildServer_name hcs
  have hdeclares : p.Declares s ↔ .str s ∈ p.servers.map (·.name) := by
    unfold PolicyConfig.Declares
    rw [List.mem_map]
  rw [hdeclares, hnames, List.mem_map]
  unfold DeclaresServer
  rw [hraw]
  constructor
  · intro h
    exact ⟨ds, rfl, h⟩
  · intro h
    obtain ⟨ds', hds', h⟩ := h
    have hinj : Function.Injective Value.dict := fun _ _ h => Value.dict.inj h
    rwa [List.map_injective_iff.mpr hinj (Value.list.inj hds')]

theorem access_iff {d : Dict} {p : PolicyConfig} (h : buildPolicyConfig d = .ok p)
    {P : Dict → Prop} {Q : PolicyServerAccess → Prop}
    (hPQ : ∀ i ms j a, buildAccess i (.dict ms) j = .ok a → (P ms ↔ Q a)) :
    Items (Items P "mcp_servers") "policies" d ↔ ∀ r ∈ p.policies, ∀ a ∈ r.mcpServers, Q a := by
  apply document_forall_iff h
  intro e i r hr
  obtain ⟨d', raw, hd, -, -, hraw, haccess, -⟩ := buildPolicyRule_eq_ok hr
  cases hd
  rw [items_iff hraw]
  exact access_forall_iff haccess (hPQ i)

/-- A document is accepted exactly if it is as the loader wants it. -/
theorem exists_loadPolicy_iff {d : Dict} : (∃ p, loadPolicy (.dict d) = .ok p) ↔ Accepted d := by
  have hreferences {p : PolicyConfig} (h : buildPolicyConfig d = .ok p) :
      Items (Items (fun a => RefersIn d (a.getD "name" (.str ""))) "mcp_servers") "policies" d ↔
        ∀ r ∈ p.policies, ∀ a ∈ r.mcpServers, p.Refers a.name := by
    apply access_iff h
    intro i ms j a ha
    obtain ⟨ms', hms, rfl, -⟩ := buildAccess_eq_ok.mp ha
    cases hms
    simp only [RefersIn, PolicyConfig.Refers, declares_iff h]
  have htools {p : PolicyConfig} (h : buildPolicyConfig d = .ok p) :
      Items (Items (fun a => ¬ ToolsTrip (a.getD "tools" (.list []))) "mcp_servers") "policies" d ↔
        ∀ r ∈ p.policies, ∀ a ∈ r.mcpServers, ¬ ToolsTrip a.tools := by
    apply access_iff h
    intro i ms j a ha
    obtain ⟨ms', hms, rfl, -⟩ := buildAccess_eq_ok.mp ha
    cases hms
    rfl
  constructor
  · intro h
    obtain ⟨p, hp⟩ := h
    obtain ⟨hbuild, hcross, hpatterns⟩ := loadPolicy_eq_ok.mp hp
    have hbuildable := exists_buildPolicyConfig_iff.mp ⟨p, hbuild⟩
    rw [validateCrossReferences_eq_ok] at hcross
    exact {
      version := hbuildable.version
      default := hbuildable.default
      identity := hbuildable.identity
      servers := hbuildable.servers.1
      serverNames := hbuildable.servers.2
      policies := hbuildable.policies.1
      ruleIds := hbuildable.policies.2
      logging := hbuildable.logging
      masking := hbuildable.masking
      analytics := hbuildable.analytics
      cors := hbuildable.cors
      plugins := hbuildable.plugins
      references := (hreferences hbuild).mpr fun r hr a ha =>
        checkReference_eq_ok.mp (hcross r hr a ha)
      tools := (htools hbuild).mpr (validateToolPatterns_eq_ok.mp hpatterns) }
  · intro h
    obtain ⟨p, hbuild⟩ := exists_buildPolicyConfig_iff.mpr {
      version := h.version
      default := h.default
      identity := h.identity
      servers := ⟨h.servers, h.serverNames⟩
      policies := ⟨h.policies, h.ruleIds⟩
      logging := h.logging
      masking := h.masking
      analytics := h.analytics
      cors := h.cors
      plugins := h.plugins }
    refine ⟨p, loadPolicy_eq_ok.mpr ⟨hbuild, ?_, ?_⟩⟩
    · apply validateCrossReferences_eq_ok.mpr
      intro r hr a ha
      exact checkReference_eq_ok.mpr ((hreferences hbuild).mp h.references r hr a ha)
    · exact validateToolPatterns_eq_ok.mpr ((htools hbuild).mp h.tools)

end Loader

end McpZero.Governance
