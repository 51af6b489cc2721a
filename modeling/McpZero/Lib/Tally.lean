import Mathlib.Algebra.BigOperators.Group.List.Basic
import Mathlib.Data.List.Induction
import Mathlib.Data.List.Nodup

/-! Tallies: amounts that are added up for each key. The keys are in the order in which they first
came. -/
namespace McpZero.Lib.Tally

variable {κ ν : Type} [DecidableEq κ] [AddCommMonoid ν]

/-- What a list of entries comes to for a key. -/
def total (key : κ) (entries : List (κ × ν)) : ν :=
  ((entries.filter fun e => e.1 = key).map Prod.snd).sum

/-- One more amount for a key. -/
def add (key : κ) (amount : ν) : List (κ × ν) → List (κ × ν)
  | [] => [(key, amount)]
  | (k, n) :: rest => if k = key then (k, n + amount) :: rest else (k, n) :: add key amount rest

def tally (entries : List (κ × ν)) : List (κ × ν) := entries.foldl (fun t e => add e.1 e.2 t) []

omit [AddCommMonoid ν] in
theorem filter_cons_key (key : κ) (e : κ × ν) (entries : List (κ × ν)) :
    (e :: entries).filter (fun e => e.1 = key) =
      if e.1 = key then e :: entries.filter (fun e => e.1 = key)
      else entries.filter fun e => e.1 = key := by
  rw [List.filter_cons]
  simp only [decide_eq_true_eq]

@[simp] theorem total_nil (key : κ) : total key ([] : List (κ × ν)) = 0 := rfl

theorem total_cons (key : κ) (e : κ × ν) (entries : List (κ × ν)) :
    total key (e :: entries) = (if e.1 = key then e.2 else 0) + total key entries := by
  unfold total
  rw [filter_cons_key]
  split_ifs
  · rw [List.map_cons, List.sum_cons]
  · rw [zero_add]

theorem total_append (key : κ) (xs ys : List (κ × ν)) :
    total key (xs ++ ys) = total key xs + total key ys := by
  simp [total]

/-- The order of the entries does not matter. -/
theorem total_perm (key : κ) {xs ys : List (κ × ν)} (h : xs.Perm ys) :
    total key xs = total key ys := ((h.filter _).map _).sum_eq

theorem total_add (key k : κ) (n : ν) (t : List (κ × ν)) :
    total key (add k n t) = total key t + if k = key then n else 0 := by
  induction t with
  | nil => simp [add, total_cons]
  | cons e t ih =>
    obtain ⟨k', m⟩ := e
    unfold add
    by_cases hk : k' = k
    · subst hk
      rw [if_pos rfl, total_cons, total_cons]
      by_cases hkey : k' = key
      · rw [if_pos hkey, if_pos hkey, if_pos hkey]
        exact add_right_comm m n (total key t)
      · rw [if_neg hkey, if_neg hkey, if_neg hkey, add_zero]
    · rw [if_neg hk, total_cons, total_cons, ih, add_assoc]

theorem total_foldl_add (key : κ) (entries t : List (κ × ν)) :
    total key (entries.foldl (fun t e => add e.1 e.2 t) t) = total key t + total key entries := by
  induction entries generalizing t with
  | nil => rw [List.foldl_nil, total_nil, add_zero]
  | cons e entries ih => rw [List.foldl_cons, ih, total_add, total_cons, add_assoc]

/-- A tally has the totals of what was added up. -/
theorem total_tally (key : κ) (entries : List (κ × ν)) :
    total key (tally entries) = total key entries := by
  rw [tally, total_foldl_add, total_nil, zero_add]

theorem keys_add (k : κ) (n : ν) (t : List (κ × ν)) :
    (add k n t).map Prod.fst =
      if k ∈ t.map Prod.fst then t.map Prod.fst else t.map Prod.fst ++ [k] := by
  induction t with
  | nil => rfl
  | cons e t ih =>
    obtain ⟨k', m⟩ := e
    unfold add
    by_cases hk : k' = k
    · simp [hk]
    · rw [if_neg hk, List.map_cons, ih, List.map_cons]
      by_cases hmem : k ∈ t.map Prod.fst
      · rw [if_pos hmem, if_pos (List.mem_cons_of_mem _ hmem)]
      · rw [if_neg hmem, if_neg]
        · rfl
        · simp only [List.mem_cons, not_or]
          exact ⟨fun heq => hk heq.symm, hmem⟩

/-- The keys that were added to, each once. -/
theorem keys_tally (entries : List (κ × ν)) :
    ((tally entries).map Prod.fst).Nodup ∧
      ∀ key, key ∈ (tally entries).map Prod.fst ↔ key ∈ entries.map Prod.fst := by
  induction entries using List.reverseRecOn with
  | nil => exact ⟨List.nodup_nil, fun key => Iff.rfl⟩
  | append_singleton entries e ih =>
    obtain ⟨hnodup, hmem⟩ := ih
    have hlast : tally (entries ++ [e]) = add e.1 e.2 (tally entries) := by
      rw [tally, List.foldl_append]
      rfl
    rw [hlast, keys_add]
    by_cases hkey : e.1 ∈ (tally entries).map Prod.fst
    · rw [if_pos hkey]
      refine ⟨hnodup, fun key => ?_⟩
      rw [hmem, List.map_append, List.mem_append]
      refine ⟨Or.inl, fun h => h.elim id fun hlast => ?_⟩
      rw [List.map_singleton, List.mem_singleton] at hlast
      rw [hlast, ← hmem]
      exact hkey
    · rw [if_neg hkey]
      refine ⟨?_, fun key => ?_⟩
      · rw [List.nodup_append]
        refine ⟨hnodup, List.nodup_singleton _, fun a ha b hb hab => hkey ?_⟩
        rw [← List.mem_singleton.mp hb, ← hab]
        exact ha
      · rw [List.mem_append, hmem, List.map_append, List.mem_append]
        rfl

/-- With each key once, an entry is the total of its key. -/
theorem lookup_eq_total {t : List (κ × ν)} (hnodup : (t.map Prod.fst).Nodup) (key : κ) :
    (t.lookup key).getD 0 = total key t := by
  induction t with
  | nil => rfl
  | cons e t ih =>
    rw [List.map_cons, List.nodup_cons] at hnodup
    rw [List.lookup_cons, total_cons]
    by_cases hkey : e.1 = key
    · have hnone : total key t = 0 := by
        have hfilter : t.filter (fun e => e.1 = key) = [] := by
          refine List.filter_eq_nil_iff.mpr fun x hx hsame => hnodup.1 ?_
          rw [hkey, ← of_decide_eq_true hsame]
          exact List.mem_map_of_mem hx
        rw [total, hfilter]
        rfl
      simp [hkey, hnone]
    · have hne : (key == e.1) = false := by simpa using Ne.symm hkey
      rw [hne, if_neg hkey, zero_add]
      exact ih hnodup.2

end McpZero.Lib.Tally
