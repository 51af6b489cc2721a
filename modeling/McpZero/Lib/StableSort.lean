import Mathlib.Data.List.Sort

/-! A stable sort commutes with leaving out some of the items. -/
namespace McpZero.Lib

variable {α β : Type}

/-- A list is cut in one way only where the items before the cut fail the test and the items
after it pass. -/
theorem eq_of_append_eq_of_cut {p : α → Bool} {xs ys xs' ys' : List α} (h : xs ++ ys = xs' ++ ys')
    (hxs : ∀ a ∈ xs, p a = false) (hys : ∀ a ∈ ys, p a = true)
    (hxs' : ∀ a ∈ xs', p a = false) (hys' : ∀ a ∈ ys', p a = true) : xs = xs' ∧ ys = ys' := by
  have hfirst := congrArg (List.filter fun a => !p a) h
  have hlast := congrArg (List.filter p) h
  have hnone {zs : List α} (hzs : ∀ a ∈ zs, p a = false) : zs.filter p = [] := by
    rw [List.filter_eq_nil_iff]
    intro a ha
    rw [hzs a ha]
    exact Bool.false_ne_true
  have hall {zs : List α} (hzs : ∀ a ∈ zs, p a = true) : zs.filter (fun a => !p a) = [] := by
    rw [List.filter_eq_nil_iff]
    intro a ha
    rw [hzs a ha]
    exact Bool.false_ne_true
  have hkeep {zs : List α} (hzs : ∀ a ∈ zs, p a = false) : zs.filter (fun a => !p a) = zs :=
    List.filter_eq_self.mpr fun a ha => by rw [hzs a ha]; rfl
  rw [List.filter_append, List.filter_append, hkeep hxs, hkeep hxs', hall hys, hall hys',
    List.append_nil, List.append_nil] at hfirst
  rw [List.filter_append, List.filter_append, hnone hxs, hnone hxs', List.nil_append,
    List.nil_append, List.filter_eq_self.mpr hys, List.filter_eq_self.mpr hys'] at hlast
  exact ⟨hfirst, hlast⟩

section
variable {le : α → α → Bool} {le' : β → β → Bool} {f : α → Option β}
  (trans : ∀ a b c, le a b = true → le b c = true → le a c = true)
  (total : ∀ a b, (le a b || le b a) = true)
  (trans' : ∀ a b c, le' a b = true → le' b c = true → le' a c = true)
  (total' : ∀ a b, (le' a b || le' b a) = true)
  (hf : ∀ a a' b b', f a = some b → f a' = some b' → le a a' = le' b b')
include trans total trans' total' hf

/-- By induction on the list, of which the sort inserts the first item at its cut. -/
theorem mergeSort_filterMap (l : List α) :
    (l.mergeSort le).filterMap f = (l.filterMap f).mergeSort le' := by
  induction l with
  | nil => simp
  | cons a l ih =>
    obtain ⟨l₁, l₂, hsort, hrest, hbefore⟩ := List.mergeSort_cons trans total a l
    have hsorted := List.pairwise_mergeSort trans total (a :: l)
    rw [hrest] at ih
    rw [hsort] at hsorted
    have hafter : ∀ b ∈ l₂, le a b = true :=
      (List.pairwise_cons.mp (List.pairwise_append.mp hsorted).2.1).1
    rw [hsort, List.filterMap_append, List.filterMap_cons]
    cases hfa : f a with
    | none =>
      rw [List.filterMap_cons_none hfa, ← ih, List.filterMap_append]
    | some b =>
      rw [List.filterMap_cons_some hfa]
      obtain ⟨m₁, m₂, hsort', hrest', hbefore'⟩ := List.mergeSort_cons trans' total' b (l.filterMap f)
      have hsorted' := List.pairwise_mergeSort trans' total' (b :: l.filterMap f)
      rw [hsort'] at hsorted'
      have hafter' : ∀ c ∈ m₂, le' b c = true :=
        (List.pairwise_cons.mp (List.pairwise_append.mp hsorted').2.1).1
      rw [List.filterMap_append, hrest'] at ih
      have hfirst : ∀ c ∈ l₁.filterMap f, le' b c = false := by
        intro c hc
        obtain ⟨a', ha', hfa'⟩ := List.mem_filterMap.mp hc
        have hlt := hbefore a' ha'
        rw [← hf a a' b c hfa hfa']
        simpa using hlt
      have hlast : ∀ c ∈ l₂.filterMap f, le' b c = true := by
        intro c hc
        obtain ⟨a', ha', hfa'⟩ := List.mem_filterMap.mp hc
        rw [← hf a a' b c hfa hfa']
        exact hafter a' ha'
      have hfirst' : ∀ c ∈ m₁, le' b c = false := by
        intro c hc
        simpa using hbefore' c hc
      obtain ⟨h₁, h₂⟩ := eq_of_append_eq_of_cut ih hfirst hlast hfirst' hafter'
      rw [h₁, h₂, hsort']

end

end McpZero.Lib
