import Mathlib.Tactic.Common

/-! Chains of stages. A stage takes a value to the next one or stops the chain with an
exception; either way it may change a world that all stages share. -/
namespace McpZero.Lib

variable {α σ ε : Type}

abbrev Stage (α σ ε : Type) := α → σ → Except ε α × σ

/-- Every stage returns, one after the other. -/
inductive Completes : List (Stage α σ ε) → α → σ → α → σ → Prop
  | nil (a : α) (s : σ) : Completes [] a s a s
  | cons {f : Stage α σ ε} {fs : List (Stage α σ ε)} {a b c : α} {s t u : σ} :
      f a s = (.ok b, t) → Completes fs b t c u → Completes (f :: fs) a s c u

/-- Some stage stops the chain with `e`, after all stages before it have returned. -/
inductive Stops : List (Stage α σ ε) → α → σ → ε → σ → Prop
  | here {f : Stage α σ ε} {fs : List (Stage α σ ε)} {a : α} {s u : σ} {e : ε} :
      f a s = (.error e, u) → Stops (f :: fs) a s e u
  | later {f : Stage α σ ε} {fs : List (Stage α σ ε)} {a b : α} {s t u : σ} {e : ε} :
      f a s = (.ok b, t) → Stops fs b t e u → Stops (f :: fs) a s e u

@[simp] theorem completes_nil {a b : α} {s t : σ} :
    Completes ([] : List (Stage α σ ε)) a s b t ↔ b = a ∧ t = s := by
  constructor
  · rintro ⟨⟩
    exact ⟨rfl, rfl⟩
  · rintro ⟨rfl, rfl⟩
    exact .nil _ _

theorem completes_cons {f : Stage α σ ε} {fs : List (Stage α σ ε)} {a c : α} {s u : σ} :
    Completes (f :: fs) a s c u ↔ ∃ b t, f a s = (.ok b, t) ∧ Completes fs b t c u := by
  constructor
  · intro h
    cases h with
    | cons hf hfs => exact ⟨_, _, hf, hfs⟩
  · rintro ⟨b, t, hf, hfs⟩
    exact .cons hf hfs

theorem completes_append {fs gs : List (Stage α σ ε)} {a c : α} {s u : σ} :
    Completes (fs ++ gs) a s c u ↔ ∃ b t, Completes fs a s b t ∧ Completes gs b t c u := by
  induction fs generalizing a s with
  | nil =>
    constructor
    · intro h
      exact ⟨a, s, .nil a s, h⟩
    · rintro ⟨b, t, hnil, h⟩
      obtain ⟨rfl, rfl⟩ := completes_nil.mp hnil
      exact h
  | cons f fs ih =>
    rw [List.cons_append, completes_cons]
    constructor
    · rintro ⟨b, t, hf, h⟩
      obtain ⟨b', t', hfs, hgs⟩ := ih.mp h
      exact ⟨b', t', .cons hf hfs, hgs⟩
    · rintro ⟨b, t, hfs, hgs⟩
      obtain ⟨b', t', hf, hfs'⟩ := completes_cons.mp hfs
      exact ⟨b', t', hf, ih.mpr ⟨b, t, hfs', hgs⟩⟩

@[simp] theorem not_stops_nil {a : α} {s u : σ} {e : ε} :
    ¬ Stops ([] : List (Stage α σ ε)) a s e u := nofun

theorem stops_cons {f : Stage α σ ε} {fs : List (Stage α σ ε)} {a : α} {s u : σ} {e : ε} :
    Stops (f :: fs) a s e u ↔ f a s = (.error e, u) ∨ ∃ b t, f a s = (.ok b, t) ∧ Stops fs b t e u := by
  constructor
  · intro h
    cases h with
    | here hf => exact .inl hf
    | later hf hrest => exact .inr ⟨_, _, hf, hrest⟩
  · intro h
    rcases h with hf | ⟨b, t, hf, hrest⟩
    · exact .here hf
    · exact .later hf hrest

/-- A chain has one outcome: it cannot complete in two ways. -/
theorem Completes.functional {fs : List (Stage α σ ε)} {a b c : α} {s t u : σ}
    (h : Completes fs a s b t) (k : Completes fs a s c u) : b = c ∧ t = u := by
  induction h with
  | nil a s => simpa [eq_comm] using k
  | cons hf _ ih =>
    obtain ⟨b', t', hf', hk⟩ := completes_cons.mp k
    rw [hf] at hf'
    cases hf'
    exact ih hk

theorem Completes.not_stops {fs : List (Stage α σ ε)} {a b : α} {s t u : σ} {e : ε}
    (h : Completes fs a s b t) : ¬ Stops fs a s e u := by
  induction h with
  | nil => exact not_stops_nil
  | cons hf _ ih =>
    intro k
    cases k with
    | here hf' => rw [hf] at hf'; cases hf'
    | later hf' hk =>
      rw [hf] at hf'
      cases hf'
      exact ih hk

theorem Stops.functional {fs : List (Stage α σ ε)} {a : α} {s t u : σ} {e e' : ε}
    (h : Stops fs a s e t) (k : Stops fs a s e' u) : e = e' ∧ t = u := by
  induction h with
  | here hf =>
    cases k with
    | here hf' =>
      rw [hf] at hf'
      cases hf'
      exact ⟨rfl, rfl⟩
    | later hf' _ => rw [hf] at hf'; cases hf'
  | later hf _ ih =>
    cases k with
    | here hf' => rw [hf] at hf'; cases hf'
    | later hf' hk =>
      rw [hf] at hf'
      cases hf'
      exact ih hk

theorem completes_or_stops (fs : List (Stage α σ ε)) (a : α) (s : σ) :
    (∃ b t, Completes fs a s b t) ∨ ∃ e u, Stops fs a s e u := by
  induction fs generalizing a s with
  | nil => exact .inl ⟨a, s, .nil a s⟩
  | cons f fs ih =>
    rcases hf : f a s with ⟨r, t⟩
    cases r with
    | error e => exact .inr ⟨e, t, .here hf⟩
    | ok b =>
      rcases ih b t with ⟨c, u, h⟩ | ⟨e, u, h⟩
      · exact .inl ⟨c, u, .cons hf h⟩
      · exact .inr ⟨e, u, .later hf h⟩

/-- What every stage preserves, a completed chain preserves. -/
theorem Completes.invariant {P : α → Prop} {fs : List (Stage α σ ε)} {a b : α} {s t : σ}
    (h : Completes fs a s b t)
    (hstage : ∀ f ∈ fs, ∀ a s b t, P a → f a s = (.ok b, t) → P b) (ha : P a) : P b := by
  induction h with
  | nil => exact ha
  | cons hf _ ih =>
    exact ih (fun g hg => hstage g (List.mem_cons_of_mem _ hg))
      (hstage _ List.mem_cons_self _ _ _ _ ha hf)

end McpZero.Lib
