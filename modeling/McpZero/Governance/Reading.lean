import McpZero.Governance.Loader
import McpZero.Governance.Engine
import McpZero.Lib.Except
import McpZero.Lib.Glob

/-! What a policy document means by its documentation: every field of a rule has the type its
dataclass declares, and the decision is deny-overrides over the rules that apply. The reading
is taken from the document itself, and by the same words from a loaded policy. -/
namespace McpZero.Governance
open Python Lib

structure AccessReading where
  server : String
  tools : List String

structure RuleReading where
  effect : PolicyEffect
  users : List String
  groups : List String
  access : List AccessReading

structure Reading where
  default : PolicyEffect
  rules : List RuleReading

/-- An entry without tools grants every tool of its server. -/
def AccessReading.Applies (a : AccessReading) (i : PolicyInput) : Prop :=
  Glob '*' a.server.toList i.mcpServer.toList ∧
    (a.tools = [] ∨ ∃ p ∈ a.tools, Glob '*' p.toList i.tool.toList)

namespace RuleReading

variable (r : RuleReading) (i : PolicyInput)

/-- The caller is selected without the help of a `*` among the users. A rule without subjects
selects everyone. -/
def Selects : Prop :=
  (r.users = [] ∧ r.groups = []) ∨ i.userId ∈ r.users ∨ "*" ∈ r.groups ∨
    ∃ g ∈ i.groups, g ∈ r.groups

/-- A `*` stands for everyone, among the users as among the groups. -/
def Concerns : Prop := "*" ∈ r.users ∨ r.Selects i

def Grants : Prop := ∃ a ∈ r.access, a.Applies i

/-- The documented meaning of a rule. -/
def Applies : Prop := r.Concerns i ∧ r.Grants i

/-- The rule as it is with a `*` among its users taken for a name. -/
def Matches : Prop := r.Selects i ∧ r.Grants i

end RuleReading

namespace Reading

variable (R : Reading) (i : PolicyInput)

open Classical in
/-- Deny overrides allow, and without an applying rule the default stands. -/
noncomputable def decideBy (applies : RuleReading → Prop) : PolicyEffect :=
  if ∃ r ∈ R.rules, r.effect = .deny ∧ applies r then .deny
  else if ∃ r ∈ R.rules, r.effect = .allow ∧ applies r then .allow
  else R.default

noncomputable def decision : PolicyEffect := R.decideBy (·.Applies i)

/-- The rules that apply only by a `*` among their users decide nothing: a deny rule among them
stands beside one that selects the caller, or denies what is denied without it, and an allow rule
stands beside a deny rule or allows what is allowed without it. -/
structure StarsIdle : Prop where
  deny : ∀ r ∈ R.rules, r.effect = .deny → r.Applies i → ¬ r.Matches i →
    (∃ r' ∈ R.rules, r'.effect = .deny ∧ r'.Matches i) ∨
      (R.default = .deny ∧ ∀ r' ∈ R.rules, r'.effect = .allow → ¬ r'.Matches i)
  allow : ∀ r ∈ R.rules, r.effect = .allow → r.Applies i → ¬ r.Matches i →
    (∃ r' ∈ R.rules, r'.effect = .deny ∧ r'.Applies i) ∨
      (∃ r' ∈ R.rules, r'.effect = .allow ∧ r'.Matches i) ∨ R.default = .allow

end Reading

theorem RuleReading.Matches.applies {r : RuleReading} {i : PolicyInput} (h : r.Matches i) :
    r.Applies i := ⟨.inr h.1, h.2⟩

/-- The stars among the users make no difference to a decision exactly when they are idle. -/
theorem Reading.decideBy_matches_iff {R : Reading} {i : PolicyInput} :
    R.decideBy (·.Matches i) = R.decision i ↔ R.StarsIdle i := by
  unfold decision decideBy
  dsimp only
  constructor
  · intro h
    constructor
    · intro r hr heffect happlies _
      have hdeny : ∃ r' ∈ R.rules, r'.effect = .deny ∧ r'.Applies i := ⟨r, hr, heffect, happlies⟩
      rw [if_pos hdeny] at h
      split_ifs at h with hnamed hallow
      · exact .inl hnamed
      · push Not at hallow
        exact .inr ⟨h, hallow⟩
    · intro r hr heffect happlies _
      have hallowed : ∃ r' ∈ R.rules, r'.effect = .allow ∧ r'.Applies i :=
        ⟨r, hr, heffect, happlies⟩
      by_cases hdeny : ∃ r' ∈ R.rules, r'.effect = .deny ∧ r'.Applies i
      · exact .inl hdeny
      · rw [if_pos hallowed, if_neg hdeny] at h
        split_ifs at h with hnamed hallow
        · exact .inr (.inl hallow)
        · exact .inr (.inr h)
  · intro h
    by_cases hnamed : ∃ r' ∈ R.rules, r'.effect = .deny ∧ r'.Matches i
    · obtain ⟨r, hr, heffect, hmatches⟩ := hnamed
      rw [if_pos ⟨r, hr, heffect, hmatches⟩, if_pos ⟨r, hr, heffect, hmatches.applies⟩]
    · rw [if_neg hnamed]
      by_cases hdeny : ∃ r' ∈ R.rules, r'.effect = .deny ∧ r'.Applies i
      · rw [if_pos hdeny]
        obtain ⟨r, hr, heffect, happlies⟩ := hdeny
        have hstar : ¬ r.Matches i := fun hmatches => hnamed ⟨r, hr, heffect, hmatches⟩
        obtain ⟨hdefault, hallow⟩ := (h.deny r hr heffect happlies hstar).resolve_left hnamed
        have hnone : ¬ ∃ r' ∈ R.rules, r'.effect = .allow ∧ r'.Matches i :=
          fun ⟨r', hr', heffect', hmatches⟩ => hallow r' hr' heffect' hmatches
        rw [if_neg hnone, hdefault]
      · rw [if_neg hdeny]
        by_cases hallow : ∃ r' ∈ R.rules, r'.effect = .allow ∧ r'.Matches i
        · obtain ⟨r, hr, heffect, hmatches⟩ := hallow
          rw [if_pos ⟨r, hr, heffect, hmatches⟩, if_pos ⟨r, hr, heffect, hmatches.applies⟩]
        · rw [if_neg hallow]
          split_ifs with happlying
          · obtain ⟨r, hr, heffect, happlies⟩ := happlying
            have hstar : ¬ r.Matches i := fun hmatches => hallow ⟨r, hr, heffect, hmatches⟩
            exact ((h.allow r hr heffect happlies hstar).resolve_left hdeny).resolve_left hallow
          · rfl

def readAccess (v : Value) : Option AccessReading := do
  let ms ← v.asDict?
  let server ← (ms.getD "name" (.str "")).asStr?
  let tools ← (ms.getD "tools" (.list [])).asStrings?
  return { server, tools }

/-- The subjects of a rule. A rule without them is one with empty subjects. -/
def readSubjects (d : Dict) : Option Dict :=
  match d.get? "subjects" with
  | none => some []
  | some v => v.asDict?

def readRule (v : Value) : Option RuleReading := do
  let d ← v.asDict?
  let effect ← PolicyEffect.ofValue? (d.getD "effect" (.str "allow"))
  let subjects ← readSubjects d
  let users ← (subjects.getD "users" (.list [])).asStrings?
  let groups ← (subjects.getD "groups" (.list [])).asStrings?
  let raw ← (d.getD "mcp_servers" (.list [])).asList?
  let access ← raw.mapM readAccess
  return { effect, users, groups, access }

/-- The documented reading of a document, if its fields have the documented types. -/
def readDocument (d : Dict) : Option Reading := do
  let default ← PolicyEffect.ofValue? (d.getD "default" (.str "deny"))
  let raw ← (d.getD "policies" (.list [])).asList?
  let rules ← raw.mapM readRule
  return { default, rules }

def PolicyServerAccess.reading (a : PolicyServerAccess) : Option AccessReading := do
  let server ← a.name.asStr?
  let tools ← a.tools.asStrings?
  return { server, tools }

def PolicyRule.reading (r : PolicyRule) : Option RuleReading := do
  let users ← r.subjects.users.asStrings?
  let groups ← r.subjects.groups.asStrings?
  let access ← r.mcpServers.mapM PolicyServerAccess.reading
  return { effect := r.effect, users, groups, access }

def PolicyConfig.reading (p : PolicyConfig) : Option Reading := do
  let rules ← p.policies.mapM PolicyRule.reading
  return { default := p.default, rules }

namespace Loader

theorem catching_eq_ok {α : Type} {field : String} {r : Except Exc α} {a : α} :
    catching field r = .ok a ↔ r = .ok a := map_error_eq_ok

theorem escaping_eq_ok {α : Type} {r : Except Exc α} {a : α} :
    escaping r = .ok a ↔ r = .ok a := map_error_eq_ok

theorem mapping_eq_ok {v : Value} {m f : String} {d : Dict} :
    mapping v m f = .ok d ↔ v = .dict d := by
  cases v <;> simp [mapping]

theorem sequence_eq_ok {v : Value} {m f : String} {items : List Value} :
    sequence v m f = .ok items ↔ v = .list items := by
  cases v <;> simp [sequence]

theorem effect_eq_ok {v : Value} {f : String} {e : PolicyEffect} :
    effect v f = .ok e ↔ PolicyEffect.ofValue? v = some e := by
  unfold effect
  split <;> simp_all

/-- An accepted entry is the entry of the document, with a truthy name. -/
theorem buildAccess_eq_ok {i j : ℕ} {v : Value} {a : PolicyServerAccess} :
    buildAccess i v j = .ok a ↔ ∃ ms, v = .dict ms ∧
      a = { name := Dict.getD ms "name" (.str ""), tools := Dict.getD ms "tools" (.list []) } ∧
        a.name.truthy = true := by
  unfold buildAccess
  simp only [bind_eq_ok, mapping_eq_ok, catching_eq_ok, PolicyServerAccess.postInit]
  constructor
  · intro h
    obtain ⟨ms, rfl, hinit⟩ := h
    split_ifs at hinit with htruthy
    cases hinit
    exact ⟨ms, rfl, rfl, by simpa using htruthy⟩
  · intro h
    obtain ⟨ms, rfl, rfl, htruthy⟩ := h
    exact ⟨ms, rfl, by simp [htruthy]⟩

theorem buildSubjects_eq_ok {d : Dict} {i : ℕ} {s : PolicySubjects}
    (h : buildSubjects d i = .ok s) : ∃ sd, readSubjects d = some sd ∧
      s = { users := Dict.getD sd "users" (.list []), groups := Dict.getD sd "groups" (.list []) }
    := by
  unfold buildSubjects at h
  unfold readSubjects
  cases hsub : d.get? "subjects" with
  | none =>
    rw [hsub] at h
    cases h
    exact ⟨[], rfl, rfl⟩
  | some v =>
    simp only [hsub, bind_eq_ok, mapping_eq_ok, pure_eq_ok] at h
    obtain ⟨sd, rfl, rfl⟩ := h
    exact ⟨sd, rfl, rfl⟩

/-- What an accepted rule takes from the document. -/
theorem buildPolicyRule_eq_ok {v : Value} {i : ℕ} {r : PolicyRule}
    (h : buildPolicyRule v i = .ok r) :
    ∃ (d : Dict) (raw : List Value), v = .dict d ∧
      PolicyEffect.ofValue? (d.getD "effect" (.str "allow")) = some r.effect ∧
      buildSubjects d i = .ok r.subjects ∧ d.getD "mcp_servers" (.list []) = .list raw ∧
      List.Forall₂ (fun v a => ∃ j, buildAccess i v j = .ok a) raw r.mcpServers ∧
      r.id = d.getD "id" (.str "") ∧ r.id.truthy = true := by
  unfold buildPolicyRule at h
  simp only [bind_eq_ok, mapping_eq_ok, effect_eq_ok, sequence_eq_ok, catching_eq_ok] at h
  obtain ⟨d, rfl, e, heffect, s, hsub, raw, hraw, as, has, hinit⟩ := h
  unfold PolicyRule.postInit at hinit
  split_ifs at hinit with hid hdesc
  cases hinit
  exact ⟨d, raw, rfl, heffect, hsub, hraw, forall₂_of_zipIdx_mapM has, rfl, by simpa using hid⟩

/-- What an accepted document takes its rules and its servers from. -/
theorem buildPolicyConfig_eq_ok {d : Dict} {p : PolicyConfig}
    (h : buildPolicyConfig d = .ok p) :
    PolicyEffect.ofValue? (d.getD "default" (.str "deny")) = some p.default ∧
      buildServers d = .ok p.servers ∧ buildPolicies d = .ok p.policies := by
  unfold buildPolicyConfig at h
  simp only [bind_eq_ok, effect_eq_ok, catching_eq_ok] at h
  obtain ⟨_, -, _, hdefault, _, -, _, hservers, _, hpolicies, _, -, _, -, _, -, _, -, _, -,
    hinit⟩ := h
  unfold PolicyConfig.postInit at hinit
  split_ifs at hinit
  cases hinit
  exact ⟨hdefault, hservers, hpolicies⟩

theorem buildPolicies_eq_ok {d : Dict} {rules : List PolicyRule}
    (h : buildPolicies d = .ok rules) : ∃ raw, d.getD "policies" (.list []) = .list raw ∧
      List.Forall₂ (fun v r => ∃ i, buildPolicyRule v i = .ok r) raw rules := by
  unfold buildPolicies at h
  simp only [bind_eq_ok, sequence_eq_ok, pure_eq_ok] at h
  obtain ⟨raw, hraw, rs, hrs, -, -, rfl⟩ := h
  exact ⟨raw, hraw, forall₂_of_zipIdx_mapM hrs⟩

theorem buildPolicyConfig_policies {d : Dict} {p : PolicyConfig}
    (h : buildPolicyConfig d = .ok p) : ∃ raw, d.getD "policies" (.list []) = .list raw ∧
      List.Forall₂ (fun v r => ∃ i, buildPolicyRule v i = .ok r) raw p.policies ∧
      PolicyEffect.ofValue? (d.getD "default" (.str "deny")) = some p.default := by
  obtain ⟨hdefault, -, hpolicies⟩ := buildPolicyConfig_eq_ok h
  obtain ⟨raw, hraw, hrules⟩ := buildPolicies_eq_ok hpolicies
  exact ⟨raw, hraw, hrules, hdefault⟩

end Loader

open Loader in
theorem readAccess_of_build {i j : ℕ} {v : Value} {a : PolicyServerAccess}
    (h : buildAccess i v j = .ok a) : readAccess v = a.reading := by
  obtain ⟨ms, rfl, rfl, -⟩ := buildAccess_eq_ok.mp h
  rfl

open Loader in
theorem readRule_of_build {i : ℕ} {v : Value} {r : PolicyRule}
    (h : buildPolicyRule v i = .ok r) : readRule v = r.reading := by
  obtain ⟨d, raw, rfl, heffect, hsub, hraw, haccess, -⟩ := buildPolicyRule_eq_ok h
  have haccess' : raw.mapM readAccess = r.mcpServers.mapM PolicyServerAccess.reading :=
    mapM_eq_of_forall₂ haccess fun _ _ hva => readAccess_of_build hva.choose_spec
  obtain ⟨sd, hsd, hs⟩ := buildSubjects_eq_ok hsub
  unfold readRule PolicyRule.reading
  rw [hs]
  simp only [Value.asDict?, Value.asList?, heffect, hsd, hraw, haccess', Option.bind_eq_bind,
    Option.bind_some]

/-- The reading of an accepted document is the reading of the policy it is loaded as. -/
theorem readDocument_of_build {d : Dict} {p : PolicyConfig}
    (h : Loader.buildPolicyConfig d = .ok p) : readDocument d = p.reading := by
  obtain ⟨raw, hraw, hrules, hdefault⟩ := Loader.buildPolicyConfig_policies h
  have hrules' : raw.mapM readRule = p.policies.mapM PolicyRule.reading :=
    mapM_eq_of_forall₂ hrules fun _ _ hvr => readRule_of_build hvr.choose_spec
  unfold readDocument PolicyConfig.reading
  simp only [Value.asList?, hdefault, hraw, hrules', Option.bind_eq_bind, Option.bind_some]

end McpZero.Governance
