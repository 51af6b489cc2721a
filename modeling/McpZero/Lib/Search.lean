import Mathlib.Data.List.Infix
import Mathlib.Tactic.Common

/-! Searching a list for a pattern, from left to right. A pattern is read at a position and may
look one item back. -/
namespace McpZero.Lib

variable {α β : Type}

/-- What a pattern makes of the item before a position and of the list from there on. -/
abbrev Pattern (α β : Type) := Option α → List α → Option β

/-- The first match. -/
def search (m : Pattern α β) (before : Option α) : List α → Option β
  | [] => m before []
  | a :: as => (m before (a :: as)).or (search m (some a) as)

/-- All matches of a pattern that takes the rest of its token. The flag says that the position
lies within a match. -/
def searchTokens (sep : α → Bool) (m : Pattern α β) (within : Bool) (before : Option α) :
    List α → List β
  | [] => []
  | a :: as =>
    if within && !sep a then searchTokens sep m true (some a) as
    else
      match m before (a :: as) with
      | some b => b :: searchTokens sep m true (some a) as
      | none => searchTokens sep m false (some a) as

theorem getLast?_cons_or (a : α) (as : List α) (before : Option α) :
    (a :: as).getLast?.or before = as.getLast?.or (some a) := by
  rw [List.getLast?_cons, Option.some_or]
  cases as.getLast? <;> rfl

/-- A first match is a match that no shorter prefix is followed by. -/
theorem search_eq_some_iff {m : Pattern α β} {before : Option α} {as : List α} {b : β} :
    search m before as = some b ↔
      ∃ pre rest, as = pre ++ rest ∧ m (pre.getLast?.or before) rest = some b ∧
        ∀ pre' rest', as = pre' ++ rest' → pre'.length < pre.length →
          m (pre'.getLast?.or before) rest' = none := by
  induction as generalizing before with
  | nil =>
    constructor
    · intro h
      exact ⟨[], [], rfl, h, by simp⟩
    · rintro ⟨pre, rest, hsplit, hm, -⟩
      obtain ⟨rfl, rfl⟩ := List.append_eq_nil_iff.mp hsplit.symm
      exact hm
  | cons a as ih =>
    rw [search]
    cases hhere : m before (a :: as) with
    | some b' =>
      rw [Option.some_or, Option.some.injEq]
      constructor
      · rintro rfl
        exact ⟨[], a :: as, rfl, hhere, by simp⟩
      · rintro ⟨pre, rest, hsplit, hm, hfirst⟩
        cases pre with
        | nil =>
          rw [List.nil_append] at hsplit
          subst hsplit
          rw [List.getLast?_nil, Option.none_or, hhere] at hm
          exact Option.some.inj hm
        | cons p pre =>
          have hnone := hfirst [] (a :: as) rfl (by simp)
          rw [List.getLast?_nil, Option.none_or, hhere] at hnone
          cases hnone
    | none =>
      rw [Option.none_or, ih]
      constructor
      · rintro ⟨pre, rest, rfl, hm, hfirst⟩
        refine ⟨a :: pre, rest, rfl, ?_, ?_⟩
        · rw [getLast?_cons_or, hm]
        · intro pre' rest' hsplit hlt
          cases pre' with
          | nil =>
            rw [List.nil_append] at hsplit
            rw [← hsplit, List.getLast?_nil, Option.none_or, hhere]
          | cons p pre' =>
            obtain ⟨rfl, htail⟩ := List.cons.inj hsplit
            have hnone := hfirst pre' rest' htail (by simpa using hlt)
            rw [getLast?_cons_or, hnone]
      · rintro ⟨pre, rest, hsplit, hm, hfirst⟩
        cases pre with
        | nil =>
          rw [List.nil_append] at hsplit
          rw [← hsplit, List.getLast?_nil, Option.none_or, hhere] at hm
          cases hm
        | cons p pre =>
          obtain ⟨rfl, htail⟩ := List.cons.inj hsplit
          refine ⟨pre, rest, htail, ?_, ?_⟩
          · rw [← getLast?_cons_or, hm]
          · intro pre' rest' hsplit' hlt
            have hnone := hfirst (a :: pre') rest' (by rw [hsplit', List.cons_append])
              (by simpa using hlt)
            rw [← getLast?_cons_or, hnone]

/-- The longest run of items that satisfy `p`, at the start of a list. -/
theorem takeWhile_eq_iff {p : α → Bool} {as run : List α} :
    as.takeWhile p = run ↔ ∃ after, as = run ++ after ∧ (∀ a ∈ run, p a = true) ∧
      ∀ a, after.head? = some a → p a = false := by
  induction as generalizing run with
  | nil =>
    constructor
    · rintro rfl
      exact ⟨[], by simp⟩
    · rintro ⟨after, h, -, -⟩
      simp_all
  | cons a as ih =>
    cases ha : p a with
    | true =>
      rw [List.takeWhile_cons_of_pos ha]
      constructor
      · rintro rfl
        obtain ⟨after, hsplit, hrun, hafter⟩ := ih.mp rfl
        refine ⟨after, by rw [List.cons_append, ← hsplit], ?_, hafter⟩
        simpa [ha] using hrun
      · rintro ⟨after, hsplit, hrun, hafter⟩
        cases run with
        | nil =>
          rw [List.nil_append] at hsplit
          have hfalse := hafter a (by rw [← hsplit, List.head?_cons])
          rw [ha] at hfalse
          cases hfalse
        | cons r run =>
          obtain ⟨rfl, htail⟩ := List.cons.inj hsplit
          rw [ih.mpr ⟨after, htail, fun d hd => hrun d (List.mem_cons_of_mem _ hd), hafter⟩]
    | false =>
      rw [List.takeWhile_cons_of_neg (by simp [ha])]
      constructor
      · rintro rfl
        exact ⟨a :: as, rfl, by simp, by simpa using ha⟩
      · rintro ⟨after, hsplit, hrun, -⟩
        cases run with
        | nil => rfl
        | cons r run =>
          obtain ⟨rfl, -⟩ := List.cons.inj hsplit
          have htrue := hrun a List.mem_cons_self
          rw [ha] at htrue
          cases htrue

/-- A pattern within tokens: it reads no further than the separator, it needs an item, and a
separator before it is like the start of the list. -/
structure WithinTokens (sep : α → Bool) (m : Pattern α β) : Prop where
  reads (before : Option α) (as : List α) : m before as = m before (as.takeWhile (! sep ·))
  nonempty (before : Option α) : m before [] = none
  afterSep (a : α) (as : List α) : sep a = true → m (some a) as = m none as

variable {sep : α → Bool} {m : Pattern α β}

theorem WithinTokens.search_afterSep (h : WithinTokens sep m) {a : α} (ha : sep a = true)
    (as : List α) : search m (some a) as = search m none as := by
  cases as with
  | nil => exact h.afterSep a [] ha
  | cons b as => rw [search, search, h.afterSep a _ ha]

theorem head_splitOnP (sep : α → Bool) (as : List α) :
    ∃ tail, as.splitOnP sep = as.takeWhile (! sep ·) :: tail := by
  induction as with
  | nil => exact ⟨[], rfl⟩
  | cons a as ih =>
    obtain ⟨tail, ih⟩ := ih
    rw [List.splitOnP_cons_eq_if_modifyHead]
    cases ha : sep a with
    | true => exact ⟨as.splitOnP sep, by simp [ha]⟩
    | false => exact ⟨tail, by simp [ha, ih]⟩

/-- Searching token by token: the rest of a token that has matched is skipped, the first match
of every other token is found. -/
theorem searchTokens_eq (h : WithinTokens sep m) (as : List α) (before : Option α) :
    searchTokens sep m true before as = (as.splitOnP sep).tail.filterMap (search m none) ∧
      searchTokens sep m false before as =
        (search m before (as.takeWhile (! sep ·))).toList ++
          (as.splitOnP sep).tail.filterMap (search m none) := by
  induction as generalizing before with
  | nil => simp [searchTokens, search, h.nonempty]
  | cons a as ih =>
    obtain ⟨tail, htail⟩ := head_splitOnP sep as
    obtain ⟨ihtrue, ihfalse⟩ := ih (some a)
    cases ha : sep a with
    | true =>
      have hnone : m before (a :: as) = none := by
        rw [h.reads]
        simp [ha, h.nonempty]
      have hrest : searchTokens sep m false (some a) as =
          (as.splitOnP sep).filterMap (search m none) := by
        rw [ihfalse, h.search_afterSep ha, htail]
        cases hhead : search m none (as.takeWhile (! sep ·)) <;> simp [hhead]
      constructor
      · simp [searchTokens, ha, hnone, hrest, List.splitOnP_cons_eq_if_modifyHead]
      · simp [searchTokens, ha, hnone, hrest, List.splitOnP_cons_eq_if_modifyHead, search, h.nonempty]
    | false =>
      have hsplit : ((a :: as).splitOnP sep).tail = (as.splitOnP sep).tail := by
        simp [List.splitOnP_cons_eq_if_modifyHead, ha, htail]
      have hhead : (a :: as).takeWhile (! sep ·) = a :: as.takeWhile (! sep ·) := by simp [ha]
      rw [hsplit, hhead]
      constructor
      · simp [searchTokens, ha, ihtrue]
      · have hreads := h.reads before (a :: as)
        rw [hhead] at hreads
        rw [searchTokens, search, ← hreads]
        cases hm : m before (a :: as) with
        | some b => simp [ha, ihtrue]
        | none => simp [ha, ihfalse]

/-- All matches in a list: the first match of every token. -/
theorem mem_searchTokens (h : WithinTokens sep m) (as : List α) (b : β) :
    b ∈ searchTokens sep m false none as ↔
      ∃ token ∈ as.splitOnP sep, search m none token = some b := by
  obtain ⟨tail, htail⟩ := head_splitOnP sep as
  rw [(searchTokens_eq h as none).2, htail]
  simp [List.mem_filterMap]

end McpZero.Lib
