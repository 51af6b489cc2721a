import McpZero.Governance.FieldTypes

/-! The two readings of a tool pattern. The loader tests a pattern with a regular expression
over word characters, the engine matches any text. -/
namespace McpZero.Governance
open Python Lib

namespace Loader

/-- `[a-zA-Z0-9_]*`. -/
def IsName (cs : List Char) : Prop := ∀ c ∈ cs, isNameChar c = true

/-- `_validate_tool_patterns` lets the pattern pass. -/
def Accepts (s : String) : Prop := ∀ rule access, checkTool rule access (.str s) = .ok ()

theorem isName_nil : IsName [] := nofun

theorem star_notMem_of_isName {cs : List Char} (h : IsName cs) : '*' ∉ cs := by
  intro hstar
  have hname := h '*' hstar
  exact absurd hname (by decide)

theorem isWildcard_iff {cs : List Char} :
    isWildcard cs = true ↔
      (∃ name, IsName name ∧ cs = name ++ ['*']) ∨ ∃ name, IsName name ∧ cs = '*' :: name := by
  unfold isWildcard
  simp only [Bool.or_eq_true, Bool.and_eq_true, beq_iff_eq, Bool.not_eq_true',
    List.isEmpty_eq_false_iff, List.all_eq_true]
  constructor
  · intro h
    rcases h with (heq | ⟨⟨hhead, -⟩, hname⟩) | ⟨⟨hlast, -⟩, hname⟩
    · exact .inl ⟨[], isName_nil, heq⟩
    · exact .inr ⟨cs.tail, hname, List.eq_cons_of_mem_head? hhead⟩
    · obtain ⟨name, rfl⟩ := List.getLast?_eq_some_iff.mp hlast
      rw [List.dropLast_concat] at hname
      exact .inl ⟨name, hname, rfl⟩
  · intro h
    rcases h with ⟨name, hname, rfl⟩ | ⟨name, hname, rfl⟩
    · by_cases hempty : name = []
      · exact .inl (.inl (by rw [hempty]; rfl))
      · refine .inr ⟨⟨List.getLast?_concat, ?_⟩, ?_⟩
        · rwa [List.dropLast_concat]
        · rwa [List.dropLast_concat]
    · by_cases hempty : name = []
      · exact .inl (.inl (by rw [hempty]))
      · exact .inl (.inr ⟨⟨rfl, hempty⟩, hname⟩)

theorem accepts_iff_not_trips {s : String} : Accepts s ↔ ¬ Trips (.str s) := by
  constructor
  · intro h
    exact checkTool_eq_ok.mp (h ⟨.none, .none, .allow, ⟨.none, .none⟩, []⟩ ⟨.none, .none⟩)
  · intro h rule access
    exact checkTool_eq_ok.mpr h

/-- The whole test passes exactly when every tool pattern of the policy does. -/
theorem validateToolPatterns_iff_accepts {p : PolicyConfig} (h : p.Typed) :
    validateToolPatterns p = .ok () ↔ ∀ r ∈ p.policies, ∀ a ∈ r.mcpServers,
      ∀ xs, a.tools = .ofStrings xs → ∀ s ∈ xs, Accepts s := by
  rw [validateToolPatterns_eq_ok]
  apply forall₂_congr
  intro r hr
  apply forall₂_congr
  intro a ha
  obtain ⟨xs, hxs⟩ := (h r hr).2.2 a ha
  have hinj : ∀ ys, a.tools = .ofStrings ys → ys = xs := by
    intro ys hys
    rw [hxs] at hys
    exact Option.some.inj ((asStrings?_eq_some.mpr hys).symm.trans (asStrings?_eq_some.mpr rfl))
  have htrip : ¬ ToolsTrip a.tools ↔ ∀ s ∈ xs, Accepts s := by
    rw [hxs]
    simp only [accepts_iff_not_trips, ToolsTrip, Value.ofStrings]
    push Not
    exact List.forall_mem_map
  rw [htrip]
  constructor
  · intro hall ys hys
    rw [hinj ys hys]
    exact hall
  · intro hall
    exact hall xs hxs

theorem accepts_iff {s : String} :
    Accepts s ↔ '*' ∉ s.toList ∨ isWildcard s.toList = true ∨
      ∃ cs, s.toList = cs ++ ['\n'] ∧ isWildcard cs = true := by
  have hre : matchesWildcardRe s = true ↔ isWildcard s.toList = true ∨
      ∃ cs, s.toList = cs ++ ['\n'] ∧ isWildcard cs = true := by
    unfold matchesWildcardRe
    rw [Bool.or_eq_true, Bool.and_eq_true, beq_iff_eq, List.getLast?_eq_some_iff]
    apply or_congr_right
    constructor
    · intro h
      obtain ⟨⟨cs, hcs⟩, hwild⟩ := h
      rw [hcs, List.dropLast_concat] at hwild
      exact ⟨cs, hcs, hwild⟩
    · intro h
      obtain ⟨cs, hcs, hwild⟩ := h
      rw [hcs, List.dropLast_concat]
      exact ⟨⟨cs, rfl⟩, hwild⟩
  rw [accepts_iff_not_trips, ← hre, ← Bool.not_eq_false, ← not_and_or]
  rfl

end Loader

open Loader

/-- The documented patterns: an exact name, or one wildcard at an end. -/
def SupportedPattern (s : String) : Prop := '*' ∉ s.toList ∨ StarAtEnd '*' s.toList

/-- The loader accepts a pattern exactly when it is a documented one, and the engine matches an
accepted pattern by its documented meaning. -/
def PatternSound (s : String) : Prop :=
  (Accepts s ↔ SupportedPattern s) ∧
  (Accepts s → ∀ v : String, Decides (matchesPattern (.str s) v) (Substitutes '*' s.toList v.toList))

/-- Around a wildcard at an end stand word characters, but for a newline at the very end; and no
such newline follows a wildcard that has a word before it. -/
structure PlainPattern (s : String) : Prop where
  prefixStar : ∀ pre, '*' ∉ pre → s.toList = pre ++ ['*'] → IsName pre
  starSuffix : ∀ suf, '*' ∉ suf → s.toList = '*' :: suf →
    IsName suf ∨ ∃ name, IsName name ∧ suf = name ++ ['\n']
  newline : ∀ name, IsName name → name ≠ [] → s.toList ≠ name ++ ['*', '\n']

/-- The engine gives a documented pattern its meaning, whatever characters it is made of. -/
theorem matchesPattern_of_supported {s : String} (h : SupportedPattern s) (v : String) :
    Decides (matchesPattern (.str s) v) (Substitutes '*' s.toList v.toList) := by
  apply (matchesPattern_str s v).congr
  rcases h with hnone | hstar
  · rw [glob_of_notMem hnone, substitutes_exact hnone]
    exact eq_comm
  · exact glob_iff_substitutes hstar

/-- An accepted pattern with a wildcard has one of four shapes. -/
theorem accepts_cases {s : String} (h : Accepts s) :
    SupportedPattern s ∨ ∃ name, IsName name ∧ name ≠ [] ∧ s.toList = name ++ ['*', '\n'] := by
  rcases accepts_iff.mp h with hnone | hwild | ⟨cs, hcs, hwild⟩
  · exact .inl (.inl hnone)
  · rcases isWildcard_iff.mp hwild with ⟨name, hname, heq⟩ | ⟨name, hname, heq⟩
    · exact .inl (.inr (.inl ⟨name, star_notMem_of_isName hname, heq⟩))
    · exact .inl (.inr (.inr ⟨name, star_notMem_of_isName hname, heq⟩))
  · rcases isWildcard_iff.mp hwild with ⟨name, hname, rfl⟩ | ⟨name, hname, rfl⟩
    · rw [List.append_assoc] at hcs
      by_cases hempty : name = []
      · subst hempty
        exact .inl (.inr (.inr ⟨['\n'], by decide, hcs⟩))
      · exact .inr ⟨name, hname, hempty, hcs⟩
    · have hstar : '*' ∉ name ++ ['\n'] := by
        rw [List.mem_append, not_or]
        exact ⟨star_notMem_of_isName hname, by decide⟩
      exact .inl (.inr (.inr ⟨name ++ ['\n'], hstar, hcs⟩))

theorem not_supported_of_newline {s : String} {name : List Char} (hname : IsName name)
    (hempty : name ≠ []) (hs : s.toList = name ++ ['*', '\n']) : ¬ SupportedPattern s := by
  intro h
  rcases h with hnone | ⟨pre, -, hpre⟩ | ⟨suf, -, hsuf⟩
  · rw [hs] at hnone
    exact hnone (List.mem_append_right name List.mem_cons_self)
  · have hlast := congrArg List.getLast? (hs.symm.trans hpre)
    simp at hlast
  · obtain ⟨c, rest, rfl⟩ := List.exists_cons_of_ne_nil hempty
    rw [hs] at hsuf
    obtain ⟨rfl, -⟩ := List.cons.inj hsuf
    exact star_notMem_of_isName hname List.mem_cons_self

/-- The loader accepts a pattern with its wildcard at the end only behind word characters. -/
theorem isName_of_accepts_concat {s : String} (h : Accepts s) {pre : List Char}
    (hstar : '*' ∉ pre) (hs : s.toList = pre ++ ['*']) : IsName pre := by
  rcases accepts_iff.mp h with hnone | hwild | ⟨cs, hcs, -⟩
  · rw [hs] at hnone
    exact absurd (List.mem_append_right pre List.mem_cons_self) hnone
  · rw [hs] at hwild
    rcases isWildcard_iff.mp hwild with ⟨name, hname, heq⟩ | ⟨name, hname, heq⟩
    · rw [List.append_cancel_right heq]
      exact hname
    · cases pre with
      | nil => exact isName_nil
      | cons c pre =>
        obtain ⟨rfl, -⟩ := List.cons.inj heq
        exact absurd List.mem_cons_self hstar
  · have hlast := congrArg List.getLast? (hs.symm.trans hcs)
    simp at hlast

/-- The loader accepts a pattern with its wildcard at the start only before word characters. -/
theorem isName_of_accepts_cons {s : String} (h : Accepts s) {suf : List Char}
    (hs : s.toList = '*' :: suf) :
    IsName suf ∨ ∃ name, IsName name ∧ suf = name ++ ['\n'] := by
  -- a wildcard behind a name is the one at the start, so the name is empty
  have hnil : ∀ {name rest : List Char}, IsName name → '*' :: suf = name ++ '*' :: rest →
      suf = rest := by
    intro name rest hname heq
    cases name with
    | nil => exact (List.cons.inj heq).2
    | cons c name =>
      obtain ⟨rfl, -⟩ := List.cons.inj heq
      exact absurd List.mem_cons_self (star_notMem_of_isName hname)
  rcases accepts_iff.mp h with hnone | hwild | ⟨cs, hcs, hwild⟩
  · rw [hs] at hnone
    exact absurd List.mem_cons_self hnone
  · rw [hs] at hwild
    rcases isWildcard_iff.mp hwild with ⟨name, hname, heq⟩ | ⟨name, hname, heq⟩
    · rw [hnil hname heq]
      exact .inl isName_nil
    · rw [(List.cons.inj heq).2]
      exact .inl hname
  · rcases isWildcard_iff.mp hwild with ⟨name, hname, rfl⟩ | ⟨name, hname, rfl⟩
    · rw [List.append_assoc] at hcs
      exact .inr ⟨[], isName_nil, hnil hname (hs.symm.trans hcs)⟩
    · exact .inr ⟨name, hname, (List.cons.inj (hs.symm.trans hcs)).2⟩

theorem accepts_of_plain {s : String} (hplain : PlainPattern s) (h : SupportedPattern s) :
    Accepts s := by
  apply accepts_iff.mpr
  rcases h with hnone | ⟨pre, hpre, hs⟩ | ⟨suf, hsuf, hs⟩
  · exact .inl hnone
  · have hname := hplain.prefixStar pre hpre hs
    exact .inr (.inl (isWildcard_iff.mpr (.inl ⟨pre, hname, hs⟩)))
  · rcases hplain.starSuffix suf hsuf hs with hname | ⟨name, hname, rfl⟩
    · exact .inr (.inl (isWildcard_iff.mpr (.inr ⟨suf, hname, hs⟩)))
    · exact .inr (.inr ⟨'*' :: name, hs, isWildcard_iff.mpr (.inr ⟨name, hname, rfl⟩)⟩)

/-- The two readings of a pattern agree with its documented meaning exactly on plain patterns. -/
theorem patternSound_iff (s : String) : PatternSound s ↔ PlainPattern s := by
  constructor
  · intro h
    obtain ⟨haccepts, -⟩ := h
    constructor
    · intro pre hpre hs
      exact isName_of_accepts_concat (haccepts.mpr (.inr (.inl ⟨pre, hpre, hs⟩))) hpre hs
    · intro suf hsuf hs
      exact isName_of_accepts_cons (haccepts.mpr (.inr (.inr ⟨suf, hsuf, hs⟩))) hs
    · intro name hname hempty hs
      have hwild : isWildcard (name ++ ['*']) = true := isWildcard_iff.mpr (.inl ⟨name, hname, rfl⟩)
      have hnewline : Accepts s :=
        accepts_iff.mpr (.inr (.inr ⟨name ++ ['*'], by simp [hs], hwild⟩))
      exact not_supported_of_newline hname hempty hs (haccepts.mp hnewline)
  · intro hplain
    have hsupported : Accepts s → SupportedPattern s := by
      intro h
      rcases accepts_cases h with hs | ⟨name, hname, hempty, hs⟩
      · exact hs
      · exact absurd hs (hplain.newline name hname hempty)
    exact ⟨⟨hsupported, accepts_of_plain hplain⟩, fun h => matchesPattern_of_supported (hsupported h)⟩

/-- A hyphen before the wildcard is refused, and a newline behind it makes it a literal star. -/
theorem readDash_not_patternSound :
    (SupportedPattern "read-*" ∧ ¬ Accepts "read-*") ∧
      (Accepts "read_*\n" ∧ matchesPattern (.str "read_*\n") "read_file\n" = .ok false) ∧
      ¬ PatternSound "read-*" ∧ ¬ PatternSound "read_*\n" := by
  have hdash : SupportedPattern "read-*" := .inr (.inl ⟨"read-".toList, by decide, by decide⟩)
  have hrefused : ¬ Accepts "read-*" := by
    intro h
    have hname : IsName "read-".toList :=
      isName_of_accepts_concat h (by decide) (by decide)
    exact absurd (hname '-' (by decide)) (by decide)
  have hname : IsName "read_".toList := List.all_eq_true.mp (by decide)
  have hwild : isWildcard "read_*".toList = true := by decide
  have hnewline : Accepts "read_*\n" := accepts_iff.mpr (.inr (.inr ⟨_, by decide, hwild⟩))
  refine ⟨⟨hdash, hrefused⟩, ⟨hnewline, rfl⟩, fun h => hrefused (h.1.mpr hdash), fun h => ?_⟩
  exact not_supported_of_newline (s := "read_*\n") hname (by decide) (by decide) (h.1.mp hnewline)

end McpZero.Governance
