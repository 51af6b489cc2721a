import Mathlib.Data.List.Infix

/-! Splitting a list at the first occurrence of a separator or of an element. -/
namespace McpZero.Lib

variable {α : Type} [DecidableEq α]

/-- The parts before and after the first occurrence of `sep`. -/
def splitOnce (sep : List α) : List α → Option (List α × List α)
  | [] => if sep.isPrefixOf [] then some ([], []) else none
  | x :: xs =>
    if sep.isPrefixOf (x :: xs) then some ([], (x :: xs).drop sep.length)
    else (splitOnce sep xs).map fun (a, b) => (x :: a, b)

omit [DecidableEq α] in
/-- An occurrence of the separator that starts inside `a` shows in `a` followed by all of
the separator but its last element. -/
private theorem prefix_join_iff {sep a b : List α} {x : α} (hs : sep ≠ []) :
    sep <+: x :: (a ++ sep ++ b) ↔ sep <+: x :: (a ++ sep.dropLast) := by
  have hsub : x :: (a ++ sep.dropLast) <+: x :: (a ++ sep ++ b) := by
    rw [List.prefix_cons_inj, List.append_assoc, List.prefix_append_right_inj]
    exact (List.dropLast_prefix sep).trans (List.prefix_append sep b)
  have hlen : sep.length ≤ (x :: (a ++ sep.dropLast)).length := by
    have := List.length_pos_of_ne_nil hs
    simp only [List.length_cons, List.length_append, List.length_dropLast]
    omega
  exact ⟨fun h => List.prefix_of_prefix_length_le h hsub hlen, fun h => h.trans hsub⟩

/-- Splitting undoes the join exactly when the separator does not start inside the first
part. -/
theorem splitOnce_join_iff {sep : List α} (hs : sep ≠ []) (a b : List α) :
    splitOnce sep (a ++ sep ++ b) = some (a, b) ↔ ¬ sep <:+: a ++ sep.dropLast := by
  induction a with
  | nil =>
    have hshort : ¬ sep <:+: sep.dropLast := by
      intro h
      have := h.length_le
      have := List.length_pos_of_ne_nil hs
      simp only [List.length_dropLast] at *
      omega
    obtain ⟨y, ys, rfl⟩ := List.exists_cons_of_ne_nil hs
    have hp : (y :: ys).isPrefixOf (y :: (ys ++ b)) = true :=
      List.isPrefixOf_iff_prefix.mpr (List.prefix_append (y :: ys) b)
    simp only [List.nil_append, List.cons_append, splitOnce, hp, if_true, hshort,
      not_false_eq_true, iff_true]
    simp
  | cons x a ih =>
    rw [List.cons_append, List.cons_append, List.cons_append, List.infix_cons_iff, not_or, ← ih,
      ← prefix_join_iff (b := b) hs]
    generalize a ++ sep ++ b = xs
    rw [splitOnce]
    by_cases hp : sep <+: x :: xs
    · rw [if_pos (List.isPrefixOf_iff_prefix.mpr hp)]
      simp [hp]
    · rw [if_neg (fun h => hp (List.isPrefixOf_iff_prefix.mp h))]
      simp [hp]

omit [DecidableEq α] in
/-- A list falls apart in one way at the first occurrence of an element. -/
theorem append_cons_inj_of_first {a : α} {xs xs' ys ys' : List α} (hxs : a ∉ xs)
    (hxs' : a ∉ xs') : xs ++ a :: ys = xs' ++ a :: ys' ↔ xs = xs' ∧ ys = ys' := by
  constructor
  · intro heq
    induction xs generalizing xs' with
    | nil =>
      cases xs' with
      | nil => exact ⟨rfl, (List.cons.inj heq).2⟩
      | cons x xs' =>
        obtain ⟨rfl, -⟩ := List.cons.inj heq
        exact absurd List.mem_cons_self hxs'
    | cons x xs ih =>
      rw [List.mem_cons, not_or] at hxs
      cases xs' with
      | nil => exact absurd (List.cons.inj heq).1.symm hxs.1
      | cons x' xs' =>
        obtain ⟨rfl, htail⟩ := List.cons.inj heq
        rw [List.mem_cons, not_or] at hxs'
        obtain ⟨rfl, rfl⟩ := ih hxs.2 hxs'.2 htail
        exact ⟨rfl, rfl⟩
  · rintro ⟨rfl, rfl⟩
    rfl

omit [DecidableEq α] in
/-- A list falls apart in one way at the last occurrence of an element. -/
theorem append_cons_inj_of_last {a : α} {xs xs' ys ys' : List α} (hys : a ∉ ys)
    (hys' : a ∉ ys') : xs ++ a :: ys = xs' ++ a :: ys' ↔ xs = xs' ∧ ys = ys' := by
  have hreverse (as bs : List α) : (as ++ a :: bs).reverse = bs.reverse ++ a :: as.reverse := by
    simp
  rw [← List.reverse_inj, hreverse, hreverse,
    append_cons_inj_of_first (by simpa using hys) (by simpa using hys'), List.reverse_inj,
    List.reverse_inj, and_comm]

omit [DecidableEq α] in
/-- Behind the first of two occurrences of an element, the second one is left. -/
theorem exists_eq_append_of_first {a : α} {xs ys us vs ws : List α} (hxs : a ∉ xs)
    (heq : xs ++ a :: ys = us ++ a :: (vs ++ a :: ws)) : ∃ zs, ys = zs ++ a :: ws := by
  by_cases hus : a ∈ us
  · obtain ⟨before, after, rfl, hbefore⟩ := List.eq_append_cons_of_mem hus
    rw [List.append_assoc, List.cons_append, append_cons_inj_of_first hxs hbefore] at heq
    exact ⟨after ++ a :: vs, by simp [heq.2]⟩
  · rw [append_cons_inj_of_first hxs hus] at heq
    exact ⟨vs, heq.2⟩

end McpZero.Lib
