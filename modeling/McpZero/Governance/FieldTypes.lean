import McpZero.Governance.Decision

/-! The types of the fields of a rule. The builders copy the users, the groups and the tools as
they are; only the test of the tool patterns runs over the tools, and strings, mappings and other
collections can be run over, too. -/
namespace McpZero.Governance
open Python Lib

/-- A list of strings. -/
def IsStrings (v : Value) : Prop := ∃ xs, v = .ofStrings xs

def IsStr (v : Value) : Prop := ∃ s, v = .str s

/-- A field of a mapping that is there satisfies `P`. -/
def Field (P : Value → Prop) (key : String) (d : Dict) : Prop := ∀ v, d.get? key = some v → P v

/-- Every mapping in a list field satisfies `P`. -/
def Items (P : Dict → Prop) (key : String) (d : Dict) : Prop :=
  ∀ items, d.get? key = some (.list items) → ∀ e, .dict e ∈ items → P e

/-- The users, the groups and the tools of a rule are lists of strings where they are given. -/
def RuleTyped (d : Dict) : Prop :=
  (∀ s, d.get? "subjects" = some (.dict s) →
    Field IsStrings "users" s ∧ Field IsStrings "groups" s) ∧
  Items (Field IsStrings "tools") "mcp_servers" d

def DocumentTyped (d : Dict) : Prop := Items RuleTyped "policies" d

/-- The server names in the rules are strings where they are given. -/
def ServersNamed (d : Dict) : Prop := Items (Items (Field IsStr "name") "mcp_servers") "policies" d

def PolicyRule.Typed (r : PolicyRule) : Prop :=
  IsStrings r.subjects.users ∧ IsStrings r.subjects.groups ∧
    ∀ a ∈ r.mcpServers, IsStrings a.tools

def PolicyConfig.Typed (p : PolicyConfig) : Prop := ∀ r ∈ p.policies, r.Typed

/-- An element at which the test of the tool patterns raises: a string with a misplaced
wildcard, a container that holds `"*"`, or a value in which nothing can be looked up. -/
def Trips : Value → Prop
  | .str s => '*' ∈ s.toList ∧ Loader.matchesWildcardRe s = false
  | .scalar _ => True
  | .list items => .str "*" ∈ items
  | .group _ items => .str "*" ∈ items
  | .dict entries => .str "*" ∈ entries.map Prod.fst

/-- Tools at which the test of the tool patterns raises. A string is run over character by
character and never trips. Bytes are run over as numbers, which trip. -/
def ToolsTrip : Value → Prop
  | .str _ => False
  | .bytes bs => bs ≠ []
  | .scalar _ => True
  | .list items => ∃ item ∈ items, Trips item
  | .group _ items => ∃ item ∈ items, Trips item
  | .dict entries => ∃ e ∈ entries, Trips (.scalar e.1)

theorem field_isStrings_iff {key : String} {d : Dict} :
    Field IsStrings key d ↔ IsStrings (d.getD key (.list [])) := by
  unfold Field Dict.getD
  cases d.get? key with
  | none =>
    simp only [reduceCtorEq, false_implies, implies_true, Option.getD_none, true_iff]
    exact ⟨[], rfl⟩
  | some v => simp

/-- A list field that defaults to the empty list. -/
theorem items_iff {P : Dict → Prop} {key : String} {d : Dict} {raw : List Value}
    (h : d.getD key (.list []) = .list raw) : Items P key d ↔ ∀ e, .dict e ∈ raw → P e := by
  unfold Items
  unfold Dict.getD at h
  cases hkey : d.get? key with
  | none =>
    rw [hkey] at h
    cases h
    simp
  | some v =>
    rw [hkey, Option.getD_some] at h
    rw [h]
    simp

namespace Loader

theorem access_typed_iff {i j : ℕ} {ms : Dict} {a : PolicyServerAccess}
    (h : buildAccess i (.dict ms) j = .ok a) :
    Field IsStrings "tools" ms ↔ IsStrings a.tools := by
  obtain ⟨ms', hms, rfl, -⟩ := buildAccess_eq_ok.mp h
  cases hms
  exact field_isStrings_iff

theorem access_named_iff {i j : ℕ} {ms : Dict} {a : PolicyServerAccess}
    (h : buildAccess i (.dict ms) j = .ok a) : Field IsStr "name" ms ↔ IsStr a.name := by
  obtain ⟨ms', hms, rfl, htruthy⟩ := buildAccess_eq_ok.mp h
  cases hms
  unfold Field Dict.getD
  unfold Dict.getD at htruthy
  cases hname : Dict.get? ms "name" with
  | none =>
    rw [hname] at htruthy
    cases htruthy
  | some v => simp

theorem exists_dict_of_buildAccess {i j : ℕ} {v : Value} {a : PolicyServerAccess}
    (h : buildAccess i v j = .ok a) : ∃ ms, v = .dict ms := by
  obtain ⟨ms, hv, -⟩ := buildAccess_eq_ok.mp h
  exact ⟨ms, hv⟩

/-- A property of the entries of a document, read off the rule that was built from them. -/
theorem access_forall_iff {i : ℕ} {raw : List Value} {as : List PolicyServerAccess}
    (h : List.Forall₂ (fun v a => ∃ j, buildAccess i v j = .ok a) raw as)
    {P : Dict → Prop} {Q : PolicyServerAccess → Prop}
    (hPQ : ∀ ms j a, buildAccess i (.dict ms) j = .ok a → (P ms ↔ Q a)) :
    (∀ ms, .dict ms ∈ raw → P ms) ↔ ∀ a ∈ as, Q a := by
  rw [← forall_mem_iff_of_forall₂ (P := fun v => ∀ ms, v = .dict ms → P ms) h]
  · constructor
    · intro hall v hv ms hms
      exact hall ms (hms ▸ hv)
    · intro hall ms hms
      exact hall _ hms ms rfl
  · intro v a hva
    obtain ⟨j, hj⟩ := hva
    obtain ⟨ms, rfl⟩ := exists_dict_of_buildAccess hj
    simpa using hPQ ms j a hj

theorem rule_typed_iff {i : ℕ} {d : Dict} {r : PolicyRule}
    (h : buildPolicyRule (.dict d) i = .ok r) : RuleTyped d ↔ r.Typed := by
  obtain ⟨d', raw, hd, -, hsub, hraw, haccess, -⟩ := buildPolicyRule_eq_ok h
  cases hd
  obtain ⟨sd, hsd, hs⟩ := buildSubjects_eq_ok hsub
  have htools := access_forall_iff haccess
    (fun ms j a hj => access_typed_iff hj)
  unfold RuleTyped PolicyRule.Typed
  rw [items_iff hraw, htools, hs, ← and_assoc, ← field_isStrings_iff, ← field_isStrings_iff]
  refine and_congr_left fun _ => ?_
  unfold readSubjects at hsd
  cases hkey : d.get? "subjects" with
  | none =>
    simp only [hkey, Option.some.injEq] at hsd
    rw [← hsd]
    simp [Field, Dict.get?]
  | some v =>
    simp only [hkey, asDict?_eq_some] at hsd
    rw [hsd]
    simp

theorem rule_named_iff {i : ℕ} {d : Dict} {r : PolicyRule}
    (h : buildPolicyRule (.dict d) i = .ok r) :
    Items (Field IsStr "name") "mcp_servers" d ↔ ∀ a ∈ r.mcpServers, IsStr a.name := by
  obtain ⟨d', raw, hd, -, -, hraw, haccess, -⟩ := buildPolicyRule_eq_ok h
  cases hd
  rw [items_iff hraw]
  exact access_forall_iff haccess fun ms j a hj => access_named_iff hj

/-- A property of the rules of a document, read off the policy that was built from it. -/
theorem document_forall_iff {d : Dict} {p : PolicyConfig} (h : buildPolicyConfig d = .ok p)
    {P : Dict → Prop} {Q : PolicyRule → Prop}
    (hPQ : ∀ e i r, buildPolicyRule (.dict e) i = .ok r → (P e ↔ Q r)) :
    Items P "policies" d ↔ ∀ r ∈ p.policies, Q r := by
  obtain ⟨raw, hraw, hrules, -⟩ := buildPolicyConfig_policies h
  rw [items_iff hraw, ← forall_mem_iff_of_forall₂ (P := fun v => ∀ e, v = .dict e → P e) hrules]
  · constructor
    · intro hall v hv e he
      exact hall e (he ▸ hv)
    · intro hall e he
      exact hall _ he e rfl
  · intro v r hvr
    obtain ⟨i, hi⟩ := hvr
    obtain ⟨e, _, rfl, -⟩ := buildPolicyRule_eq_ok hi
    simpa using hPQ e i r hi

theorem documentTyped_iff {d : Dict} {p : PolicyConfig} (h : buildPolicyConfig d = .ok p) :
    DocumentTyped d ↔ p.Typed := document_forall_iff h fun _ _ _ => rule_typed_iff

theorem serversNamed_iff {d : Dict} {p : PolicyConfig} (h : buildPolicyConfig d = .ok p) :
    ServersNamed d ↔ ∀ r ∈ p.policies, ∀ a ∈ r.mcpServers, IsStr a.name :=
  document_forall_iff h fun _ _ _ => rule_named_iff

theorem hasSubstring_star (s : String) : hasSubstring s "*" = true ↔ '*' ∈ s.toList := by
  unfold hasSubstring
  rw [decide_eq_true_iff]
  exact List.singleton_infix_iff '*' s.toList

theorem checkTool_eq_ok {r : PolicyRule} {a : PolicyServerAccess} {v : Value} :
    checkTool r a v = .ok () ↔ ¬ Trips v := by
  unfold checkTool
  match v with
  | .str s =>
    simp only [Value.hasStr, escaping, Except.mapError, bind, Except.bind, Trips]
    by_cases hs : '*' ∈ s.toList
    · rw [(hasSubstring_star s).mpr hs]
      cases hre : matchesWildcardRe s with
      | true => simp [pure, Except.pure]
      | false => simp [hs, throw, throwThe, MonadExceptOf.throw]
    · rw [Bool.eq_false_iff.mpr (mt (hasSubstring_star s).mp hs)]
      simp [hs, pure, Except.pure]
  | .scalar .none | .scalar (.bool _) | .scalar (.int _) | .scalar (.float _) | .bytes _
  | .scalar (.other _ _) =>
    simp [Value.hasStr, escaping, Except.mapError, bind, Except.bind, Trips]
  | .list items | .group _ items =>
    have hstar : items.any (Value.eqStr "*") = true ↔ .str "*" ∈ items := any_eqStr_value items "*"
    simp only [Value.hasStr, escaping, Except.mapError, bind, Except.bind, Trips]
    rw [← hstar]
    cases items.any (Value.eqStr "*") <;> simp [pure, Except.pure, throw, throwThe,
      MonadExceptOf.throw]
  | .dict entries =>
    have hstar : entries.any (fun e => e.1 == .str "*") = true ↔
        .str "*" ∈ entries.map Prod.fst := by
      simp [List.any_eq_true]
    simp only [Value.hasStr, escaping, Except.mapError, bind, Except.bind, Trips]
    rw [← hstar]
    cases entries.any (fun e => e.1 == .str "*") <;> simp [pure, Except.pure, throw, throwThe,
      MonadExceptOf.throw]

theorem checkTools_eq_ok {r : PolicyRule} {a : PolicyServerAccess} :
    (escaping a.tools.iter >>= fun tools => tools.forM (checkTool r a)) = .ok () ↔
      ¬ ToolsTrip a.tools := by
  simp only [bind_eq_ok, escaping_eq_ok, forM_eq_ok, checkTool_eq_ok]
  cases a.tools with
  | list items => simp [Value.iter, ToolsTrip]
  | group kind items => simp [Value.iter, ToolsTrip]
  | dict entries =>
    have hkeys : (∀ k ∈ entries.map (fun e => Value.scalar e.1), ¬ Trips k) ↔
        ∀ e ∈ entries, ¬ Trips (.scalar e.1) := List.forall_mem_map
    simp only [Value.iter, Except.ok.injEq, exists_eq_left', ToolsTrip, hkeys]
    push Not
    rfl
  | scalar x =>
    cases x with
    | str s =>
      have hchar : ∀ c : Char, ¬ Trips (.str c.toString) := by
        intro c hc
        have hmem : '*' ∈ [c] := by simpa using hc.1
        have hstar : c = '*' := (List.mem_singleton.mp hmem).symm
        rw [hstar] at hc
        exact absurd hc.2 (by decide)
      have hchars : ∀ v ∈ s.toList.map (fun c => Value.str c.toString), ¬ Trips v :=
        List.forall_mem_map.mpr fun c _ => hchar c
      simp only [Value.iter, Except.ok.injEq, exists_eq_left', ToolsTrip, not_false_eq_true,
        iff_true]
      exact hchars
    | bytes bs =>
      have hbyte : ∀ b : UInt8, Trips (.int b.toNat) := fun _ => trivial
      simp [Value.iter, ToolsTrip, hbyte, List.eq_nil_iff_forall_not_mem]
    | _ => simp [Value.iter, ToolsTrip]

/-- The test of the tool patterns passes exactly when no tools of an entry trip it. -/
theorem validateToolPatterns_eq_ok {p : PolicyConfig} :
    validateToolPatterns p = .ok () ↔
      ∀ r ∈ p.policies, ∀ a ∈ r.mcpServers, ¬ ToolsTrip a.tools := by
  unfold validateToolPatterns
  rw [forM_eq_ok]
  refine forall₂_congr fun r _ => ?_
  rw [forM_eq_ok]
  exact forall₂_congr fun a _ => checkTools_eq_ok

theorem loadPolicy_eq_ok {d : Dict} {p : PolicyConfig} :
    loadPolicy (.dict d) = .ok p ↔ buildPolicyConfig d = .ok p ∧
      validateCrossReferences p = .ok () ∧ validateToolPatterns p = .ok () := by
  unfold loadPolicy
  simp only [bind_eq_ok, pure_eq_ok]
  constructor
  · intro h
    obtain ⟨p', hp, ⟨⟩, hcross, ⟨⟩, htools, rfl⟩ := h
    exact ⟨hp, hcross, htools⟩
  · intro h
    exact ⟨p, h.1, (), h.2.1, (), h.2.2, rfl⟩

end Loader

/-- A policy has a documented reading exactly when its fields have the documented types. -/
theorem PolicyConfig.reading_isSome_iff {p : PolicyConfig} :
    (∃ R, p.reading = some R) ↔
      p.Typed ∧ ∀ r ∈ p.policies, ∀ a ∈ r.mcpServers, IsStr a.name := by
  have haccess : ∀ a : PolicyServerAccess,
      (∃ A, a.reading = some A) ↔ IsStr a.name ∧ IsStrings a.tools := by
    intro a
    unfold PolicyServerAccess.reading IsStr IsStrings
    simp only [Option.bind_eq_bind, Option.bind_eq_some_iff, asStr?_eq_some, asStrings?_eq_some,
      Option.pure_def, Option.some.injEq]
    constructor
    · intro h
      obtain ⟨A, s, hs, xs, hxs, -⟩ := h
      exact ⟨⟨s, hs⟩, xs, hxs⟩
    · intro h
      obtain ⟨⟨s, hs⟩, xs, hxs⟩ := h
      exact ⟨_, s, hs, xs, hxs, rfl⟩
  have hrule : ∀ r : PolicyRule,
      (∃ R, r.reading = some R) ↔ r.Typed ∧ ∀ a ∈ r.mcpServers, IsStr a.name := by
    intro r
    unfold PolicyRule.reading PolicyRule.Typed
    simp only [Option.bind_eq_bind, Option.bind_eq_some_iff, asStrings?_eq_some, Option.pure_def,
      Option.some.injEq]
    constructor
    · intro h
      obtain ⟨R, us, hus, gs, hgs, as, has, -⟩ := h
      have hall := (exists_mapM_eq_some_iff).mp ⟨as, has⟩
      exact ⟨⟨⟨us, hus⟩, ⟨gs, hgs⟩, fun a ha => ((haccess a).mp (hall a ha)).2⟩,
        fun a ha => ((haccess a).mp (hall a ha)).1⟩
    · intro h
      obtain ⟨⟨⟨us, hus⟩, ⟨gs, hgs⟩, htools⟩, hnames⟩ := h
      obtain ⟨as, has⟩ := exists_mapM_eq_some_iff.mpr
        fun a ha => (haccess a).mpr ⟨hnames a ha, htools a ha⟩
      exact ⟨_, us, hus, gs, hgs, as, has, rfl⟩
  unfold PolicyConfig.reading PolicyConfig.Typed
  simp only [Option.bind_eq_bind, Option.bind_eq_some_iff, Option.pure_def, Option.some.injEq]
  constructor
  · intro h
    obtain ⟨R, rs, hrs, -⟩ := h
    have hall := exists_mapM_eq_some_iff.mp ⟨rs, hrs⟩
    exact ⟨fun r hr => ((hrule r).mp (hall r hr)).1, fun r hr => ((hrule r).mp (hall r hr)).2⟩
  · intro h
    obtain ⟨rs, hrs⟩ := exists_mapM_eq_some_iff.mpr
      fun r hr => (hrule r).mpr ⟨h.1 r hr, h.2 r hr⟩
    exact ⟨_, rs, hrs, rfl⟩

end McpZero.Governance
