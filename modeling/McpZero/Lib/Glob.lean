import Mathlib.Data.List.Basic
import Mathlib.Data.List.Infix

/-! Patterns with a wildcard at one end. A wildcard at the end is read first. -/
namespace McpZero.Lib

variable {α : Type} (star : α)

/-- What a pattern matches: the values that start with what stands before a wildcard at its
end, the values that end with what stands behind a wildcard at its start, or itself. -/
def Glob (pattern value : List α) : Prop :=
  (∃ pre, pattern = pre ++ [star] ∧ pre <+: value) ∨
  (pattern.getLast? ≠ some star ∧ ∃ suf, pattern = star :: suf ∧ suf <:+ value) ∨
  (pattern.getLast? ≠ some star ∧ pattern.head? ≠ some star ∧ pattern = value)

/-- The value is the pattern with something else in the place of its only wildcard. -/
def Substitutes (pattern value : List α) : Prop :=
  (star ∉ pattern ∧ value = pattern) ∨
  ∃ pre suf mid, pattern = pre ++ star :: suf ∧ star ∉ pre ∧ star ∉ suf ∧ value = pre ++ mid ++ suf

/-- One wildcard, which stands at an end. -/
def StarAtEnd (pattern : List α) : Prop :=
  (∃ pre, star ∉ pre ∧ pattern = pre ++ [star]) ∨ ∃ suf, star ∉ suf ∧ pattern = star :: suf

variable {star}

theorem glob_of_getLast {pattern value : List α} (h : pattern.getLast? = some star) :
    Glob star pattern value ↔ pattern.dropLast <+: value := by
  obtain ⟨pre, rfl⟩ := List.getLast?_eq_some_iff.mp h
  constructor
  · intro hg
    rcases hg with ⟨pre', heq, hpre⟩ | ⟨hne, -⟩ | ⟨hne, -⟩
    · rw [List.dropLast_concat, List.append_cancel_right heq]
      exact hpre
    · exact absurd h hne
    · exact absurd h hne
  · intro hpre
    rw [List.dropLast_concat] at hpre
    exact .inl ⟨pre, rfl, hpre⟩

theorem glob_of_head {pattern value : List α} (hlast : pattern.getLast? ≠ some star)
    (hhead : pattern.head? = some star) :
    Glob star pattern value ↔ pattern.tail <:+ value := by
  constructor
  · intro hg
    rcases hg with ⟨pre, rfl, -⟩ | ⟨-, suf, rfl, hsuf⟩ | ⟨-, hne, -⟩
    · exact absurd List.getLast?_concat hlast
    · exact hsuf
    · exact absurd hhead hne
  · intro hsuf
    refine .inr (.inl ⟨hlast, pattern.tail, ?_, hsuf⟩)
    exact List.eq_cons_of_mem_head? (by rw [hhead]; rfl)

theorem glob_exact {pattern value : List α} (hlast : pattern.getLast? ≠ some star)
    (hhead : pattern.head? ≠ some star) : Glob star pattern value ↔ pattern = value := by
  constructor
  · intro hg
    rcases hg with ⟨pre, rfl, -⟩ | ⟨-, suf, rfl, -⟩ | ⟨-, -, h⟩
    · exact absurd List.getLast?_concat hlast
    · exact absurd rfl hhead
    · exact h
  · intro h
    exact .inr (.inr ⟨hlast, hhead, h⟩)

theorem substitutes_exact {pattern value : List α} (h : star ∉ pattern) :
    Substitutes star pattern value ↔ value = pattern := by
  constructor
  · intro hs
    rcases hs with ⟨-, heq⟩ | ⟨pre, suf, mid, rfl, -⟩
    · exact heq
    · exact absurd (List.mem_append_right pre List.mem_cons_self) h
  · intro heq
    exact .inl ⟨h, heq⟩

theorem substitutes_split {pre suf value : List α} (hpre : star ∉ pre) (hsuf : star ∉ suf) :
    Substitutes star (pre ++ star :: suf) value ↔ ∃ mid, value = pre ++ mid ++ suf := by
  constructor
  · intro hs
    rcases hs with ⟨hnone, -⟩ | ⟨pre', suf', mid, heq, hpre', -, hvalue⟩
    · exact absurd (List.mem_append_right pre List.mem_cons_self) hnone
    · obtain ⟨rfl, -, rfl⟩ := (List.append_cons_inj_of_notMem hpre hsuf).mp heq
      exact ⟨mid, hvalue⟩
  · intro hmid
    obtain ⟨mid, hvalue⟩ := hmid
    exact .inr ⟨pre, suf, mid, rfl, hpre, hsuf, hvalue⟩

/-- A pattern with one wildcard at an end matches what can stand for its wildcard. -/
theorem glob_iff_substitutes {pattern value : List α} (h : StarAtEnd star pattern) :
    Glob star pattern value ↔ Substitutes star pattern value := by
  rcases h with ⟨pre, hpre, rfl⟩ | ⟨suf, hsuf, rfl⟩
  · have hsplit : Substitutes star (pre ++ [star]) value ↔ _ :=
      substitutes_split hpre List.not_mem_nil
    rw [glob_of_getLast List.getLast?_concat, List.dropLast_concat, hsplit]
    simp only [List.append_nil]
    exact exists_congr fun _ => eq_comm
  · have hsplit : Substitutes star ([] ++ star :: suf) value ↔ _ :=
      substitutes_split List.not_mem_nil hsuf
    rw [List.nil_append] at hsplit
    rw [hsplit]
    by_cases hempty : suf = []
    · subst hempty
      rw [glob_of_getLast rfl]
      simp
    · have hlast : (star :: suf).getLast? ≠ some star := by
        intro hstar
        rw [List.getLast?_cons_of_ne_nil hempty] at hstar
        exact hsuf (List.mem_of_getLast? hstar)
      rw [glob_of_head hlast rfl]
      simp only [List.tail_cons, List.nil_append]
      exact exists_congr fun _ => eq_comm

theorem glob_of_notMem {pattern value : List α} (h : star ∉ pattern) :
    Glob star pattern value ↔ pattern = value :=
  glob_exact (fun hlast => h (List.mem_of_getLast? hlast))
    (fun hhead => h (List.mem_of_head? hhead))

end McpZero.Lib
