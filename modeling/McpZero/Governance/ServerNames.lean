import McpZero.Governance.ToolPatterns

/-! The server names in the rules. The loader looks up a name only if it holds no star, and the
engine takes a star inside a name literally. -/
namespace McpZero.Governance
open Python Lib

def PolicyConfig.Declares (p : PolicyConfig) (s : String) : Prop :=
  ∃ server ∈ p.servers, server.name = .str s

/-- What a server name stands for: a wildcard form for the names it covers, any other name for
itself. -/
def NameMeaning (s value : String) : Prop :=
  (StarAtEnd '*' s.toList ∧ Substitutes '*' s.toList value.toList) ∨
    (¬ StarAtEnd '*' s.toList ∧ value = s)

/-- The name is a declared server or a wildcard form, the engine matches it by its meaning, and
some server name matches it. -/
def PolicyConfig.LiveName (p : PolicyConfig) (name : Value) : Prop :=
  ∃ s, name = .str s ∧ (p.Declares s ∨ StarAtEnd '*' s.toList) ∧
    (∀ value, Decides (matchesPattern name value) (NameMeaning s value)) ∧
    ∃ value, matchesPattern name value = .ok true

/-- No rule names a server that the loader does not know and the engine cannot match. -/
def PolicyConfig.NoDeadServer (p : PolicyConfig) : Prop :=
  ∀ r ∈ p.policies, ∀ a ∈ r.mcpServers, p.LiveName a.name

/-- The name is a string, and a star in it is its only one and stands at an end, or the name is
that of a declared server and has its stars inside. -/
def PolicyConfig.PlainName (p : PolicyConfig) (name : Value) : Prop :=
  ∃ s, name = .str s ∧ ('*' ∈ s.toList → StarAtEnd '*' s.toList ∨
    (p.Declares s ∧ s.toList.head? ≠ some '*' ∧ s.toList.getLast? ≠ some '*'))

namespace Loader

theorem pyEq_str {a : Scalar} {s : String} : a.pyEq (.str s) = true ↔ a = .str s := by
  cases a with
  | none => simp [Scalar.pyEq, Scalar.number?]
  | bool b => simp [Scalar.pyEq, Scalar.number?]
  | int n => simp [Scalar.pyEq, Scalar.number?]
  | float x => simp [Scalar.pyEq, Scalar.number?]
  | str t => simp [Scalar.pyEq, Scalar.number?]
  | bytes bs => simp [Scalar.pyEq, Scalar.number?]
  | other t x => simp [Scalar.pyEq, Scalar.number?]

theorem serverNames_any {p : PolicyConfig} {s : String} :
    ((serverNames p).any (·.pyEq (.str s))) = true ↔ p.Declares s := by
  unfold serverNames PolicyConfig.Declares
  simp only [List.any_eq_true, pyEq_str, exists_eq_right, List.mem_filterMap]
  apply exists_congr
  intro server
  apply and_congr_right
  intro _
  cases server.name with
  | scalar a => simp [Value.asScalar?]
  | list items => simp [Value.asScalar?]
  | group kind items => simp [Value.asScalar?]
  | dict entries => simp [Value.asScalar?]

/-- A string passes the look-up if it holds a star or is declared. -/
theorem checkReference_str {p : PolicyConfig} {r : PolicyRule} {a : PolicyServerAccess} {s : String}
    (h : checkReference (serverNames p) r a = .ok ()) (hname : a.name = .str s) :
    '*' ∈ s.toList ∨ p.Declares s := by
  unfold checkReference at h
  rw [hname] at h
  simp only [Value.hasStr, escaping, Except.mapError, bind, Except.bind, isKnown, seenBefore,
    pure, Except.pure] at h
  by_cases hstar : '*' ∈ s.toList
  · exact .inl hstar
  · rw [Bool.eq_false_iff.mpr (mt (hasSubstring_star s).mp hstar)] at h
    cases hknown : (serverNames p).any (·.pyEq (.str s)) with
    | true => exact .inr (serverNames_any.mp hknown)
    | false =>
      rw [hknown] at h
      simp [throw, throwThe, MonadExceptOf.throw] at h

theorem validateCrossReferences_eq_ok {p : PolicyConfig} :
    validateCrossReferences p = .ok () ↔ ∀ r ∈ p.policies, ∀ a ∈ r.mcpServers,
      checkReference (serverNames p) r a = .ok () := by
  unfold validateCrossReferences
  simp only [forM_eq_ok]

end Loader

open Loader

theorem nameMeaning_literal {s value : String} (h : ¬ StarAtEnd '*' s.toList) :
    NameMeaning s value ↔ s.toList = value.toList := by
  unfold NameMeaning
  rw [String.toList_inj]
  constructor
  · intro hmeaning
    rcases hmeaning with ⟨hend, -⟩ | ⟨-, heq⟩
    · exact absurd hend h
    · exact heq.symm
  · intro heq
    exact .inr ⟨h, heq.symm⟩

/-- A name that is read literally has no star at an end. -/
theorem ends_of_literal {s : String} (h : ¬ StarAtEnd '*' s.toList)
    (hmatch : ∀ value, Decides (matchesPattern (.str s) value) (NameMeaning s value)) :
    s.toList.head? ≠ some '*' ∧ s.toList.getLast? ≠ some '*' := by
  have hliteral : ∀ value : String, Glob '*' s.toList value.toList ↔ s.toList = value.toList := by
    intro value
    rw [← nameMeaning_literal h]
    exact (matchesPattern_str s value).unique (hmatch value)
  have hlast : s.toList.getLast? ≠ some '*' := by
    intro hlast
    have hlonger := (hliteral (String.ofList (s.toList ++ ['*']))).mp
    rw [glob_of_getLast hlast, String.toList_ofList] at hlonger
    have heq := hlonger ((List.dropLast_prefix _).trans (List.prefix_append _ _))
    simpa using congrArg List.length heq
  refine ⟨fun hhead => ?_, hlast⟩
  have hlonger := (hliteral (String.ofList ('*' :: s.toList))).mp
  rw [glob_of_head hlast hhead, String.toList_ofList] at hlonger
  have heq := hlonger ((List.tail_suffix _).trans (List.suffix_cons _ _))
  simpa using congrArg List.length heq

/-- Every string is among those its own wildcard covers. -/
theorem substitutes_self {s : String} (h : StarAtEnd '*' s.toList) :
    Substitutes '*' s.toList s.toList := by
  rcases h with ⟨pre, hpre, hs⟩ | ⟨suf, hsuf, hs⟩
  · exact .inr ⟨pre, [], ['*'], hs, hpre, List.not_mem_nil, by rw [hs, List.append_nil]⟩
  · exact .inr ⟨[], suf, ['*'], hs, List.not_mem_nil, hsuf, hs⟩

/-- A name that stands for itself alone. -/
theorem liveName_literal {p : PolicyConfig} {s : String} (hdeclared : p.Declares s)
    (hend : ¬ StarAtEnd '*' s.toList) (hhead : s.toList.head? ≠ some '*')
    (hlast : s.toList.getLast? ≠ some '*') : p.LiveName (.str s) := by
  have hmatch : ∀ value, Decides (matchesPattern (.str s) value) (NameMeaning s value) := by
    intro value
    apply (matchesPattern_str s value).congr
    rw [nameMeaning_literal hend]
    exact glob_exact hlast hhead
  exact ⟨s, rfl, .inl hdeclared, hmatch, s, (hmatch s).eq_true ((nameMeaning_literal hend).mpr rfl)⟩

theorem liveName_wildcard {p : PolicyConfig} {s : String} (hend : StarAtEnd '*' s.toList) :
    p.LiveName (.str s) := by
  have hmatch : ∀ value, Decides (matchesPattern (.str s) value) (NameMeaning s value) := by
    intro value
    apply (matchesPattern_of_supported (.inr hend) value).congr
    simp [NameMeaning, hend]
  exact ⟨s, rfl, .inr hend, hmatch, s, (hmatch s).eq_true (.inl ⟨hend, substitutes_self hend⟩)⟩

theorem liveName_iff {p : PolicyConfig} {r : PolicyRule} {a : PolicyServerAccess}
    (h : checkReference (serverNames p) r a = .ok ()) : p.LiveName a.name ↔ p.PlainName a.name := by
  constructor
  · intro hlive
    obtain ⟨s, hname, hknown, hmatch, -⟩ := hlive
    refine ⟨s, hname, fun _ => ?_⟩
    by_cases hend : StarAtEnd '*' s.toList
    · exact .inl hend
    · rw [hname] at hmatch
      exact .inr ⟨hknown.resolve_right hend, ends_of_literal hend hmatch⟩
  · intro hplain
    obtain ⟨s, hname, hstars⟩ := hplain
    have hknown := checkReference_str h hname
    rw [hname]
    by_cases hend : StarAtEnd '*' s.toList
    · exact liveName_wildcard hend
    · by_cases hstar : '*' ∈ s.toList
      · obtain ⟨hdeclared, hhead, hlast⟩ := (hstars hstar).resolve_left hend
        exact liveName_literal hdeclared hend hhead hlast
      · have hhead : s.toList.head? ≠ some '*' := fun h => hstar (List.mem_of_head? h)
        have hlast : s.toList.getLast? ≠ some '*' := fun h => hstar (List.mem_of_getLast? h)
        exact liveName_literal (hknown.resolve_left hstar) hend hhead hlast

/-- An accepted policy has no dead server exactly when its server names are plain. -/
theorem noDeadServer_iff {data : Value} {p : PolicyConfig} (h : loadPolicy data = .ok p) :
    p.NoDeadServer ↔ ∀ r ∈ p.policies, ∀ a ∈ r.mcpServers, p.PlainName a.name := by
  have hdict : ∃ d, data = .dict d := by
    cases data with
    | dict d => exact ⟨d, rfl⟩
    | scalar a => cases h
    | list items => cases h
    | group kind items => cases h
  obtain ⟨d, rfl⟩ := hdict
  have hcross := validateCrossReferences_eq_ok.mp (loadPolicy_eq_ok.mp h).2.1
  apply forall₂_congr
  intro r hr
  apply forall₂_congr
  intro a ha
  exact liveName_iff (hcross r hr a ha)

/-- A deny rule for the server `d*b`, and what is not denied is allowed. -/
def deadServerDocument (name : String) : Dict :=
  [(.str "version", .int 1),
   (.str "default", .str "allow"),
   (.str "servers", .list [.dict [(.str "name", .str "db"), (.str "transport", .str "http")]]),
   (.str "policies", .list [.dict
     [(.str "id", .str "no-db"), (.str "description", .str "nobody"),
      (.str "effect", .str "deny"),
      (.str "mcp_servers", .list [.dict [(.str "name", .str name)]])]])]

/-- The rule with `d*b` is accepted and denies nothing on the only server. -/
theorem deadServerDocument_not_live :
    ∃ p, loadPolicy (.dict (deadServerDocument "d*b")) = .ok p ∧
      (PolicyEngine.evaluate p { userId := "u", mcpServer := "db" }).effect = .allow ∧
      ¬ p.NoDeadServer := by
  refine ⟨_, rfl, rfl, fun h => ?_⟩
  obtain ⟨s, hs, hknown, -⟩ := h _ List.mem_cons_self _ List.mem_cons_self
  have htext : some "d*b" = some s := congrArg Value.asStr? hs
  obtain rfl := Option.some.inj htext
  rcases hknown with ⟨server, hserver, hname⟩ | ⟨pre, -, hpre⟩ | ⟨suf, -, hsuf⟩
  · rw [List.mem_singleton.mp hserver] at hname
    have hdb : some "db" = some "d*b" := congrArg Value.asStr? hname
    exact absurd hdb (by decide)
  · have hlast := congrArg List.getLast? hpre
    simp at hlast
  · have hhead := congrArg List.head? hsuf
    simp at hhead

theorem deadServerDocument_live :
    ∃ p, loadPolicy (.dict (deadServerDocument "d*")) = .ok p ∧ p.NoDeadServer := by
  have hload : ∃ p, loadPolicy (.dict (deadServerDocument "d*")) = .ok p ∧
      ∀ r ∈ p.policies, ∀ a ∈ r.mcpServers, a.name = .str "d*" := by
    refine ⟨_, rfl, ?_⟩
    intro r hr a ha
    rw [List.mem_singleton.mp hr] at ha
    rw [List.mem_singleton.mp ha]
    rfl
  obtain ⟨p, hp, hnames⟩ := hload
  refine ⟨p, hp, (noDeadServer_iff hp).mpr ?_⟩
  intro r hr a ha
  exact ⟨"d*", hnames r hr a ha, fun _ => .inl (.inl ⟨['d'], by decide, rfl⟩)⟩

end McpZero.Governance
