import Mathlib.Algebra.Order.Ring.Nat
import Mathlib.Tactic.Common

/-! Runs of a machine with an executable step function. An action that is not enabled in a
state has no step. -/
namespace McpZero.Lib

variable {σ α : Type} (step : σ → α → Option σ)

/-- The state after the actions, when each of them is enabled in its turn. -/
def run : σ → List α → Option σ
  | s, [] => some s
  | s, a :: as => (step s a).bind fun t => run t as

/-- Every step of the run satisfies `P`, up to the first action that is not enabled. -/
def EachStep (P : σ → α → σ → Prop) : σ → List α → Prop
  | _, [] => True
  | s, a :: as => ∀ t, step s a = some t → P s a t ∧ EachStep P t as

variable {step} {P Q : σ → α → σ → Prop} {s t : σ} {a : α} {as : List α}

theorem run_cons (h : step s a = some t) : run step s (a :: as) = run step t as := by
  rw [run, h, Option.bind_some]

theorem eachStep_cons (h : step s a = some t) :
    EachStep step P s (a :: as) ↔ P s a t ∧ EachStep step P t as := by
  constructor
  · intro hrun
    exact hrun t h
  · intro hrun u hu
    obtain rfl : t = u := Option.some.inj (h.symm.trans hu)
    exact hrun

/-- The rule for runs: if `I` holds at first, and a step from `I` that satisfies `P` keeps `I`
and satisfies `Q`, then runs made of `P`-steps are made of `Q`-steps. -/
theorem EachStep.rule {I : σ → Prop} (hI : I s) (h : EachStep step P s as)
    (hstep : ∀ s a t, I s → step s a = some t → P s a t → I t ∧ Q s a t) :
    EachStep step Q s as := by
  induction as generalizing s with
  | nil => trivial
  | cons a as ih =>
    intro t hst
    obtain ⟨hP, hrest⟩ := h t hst
    obtain ⟨hIt, hQ⟩ := hstep s a t hI hst hP
    exact ⟨hQ, ih hIt hrest⟩

theorem eachStep_true : EachStep step (fun _ _ _ => True) s as := by
  induction as generalizing s with
  | nil => trivial
  | cons a as ih => exact fun t _ => ⟨trivial, ih⟩

/-- An invariant of the machine gives what its steps satisfy, in every run. -/
theorem eachStep_of_invariant {I : σ → Prop} (hI : I s)
    (hstep : ∀ s a t, I s → step s a = some t → I t ∧ Q s a t) : EachStep step Q s as :=
  eachStep_true.rule hI fun s a t hs hst _ => hstep s a t hs hst

/-- An invariant of the machine turns one kind of step into another. -/
theorem eachStep_iff {I : σ → Prop} (hI : I s)
    (hstep : ∀ s a t, I s → step s a = some t → P s a t → I t ∧ Q s a t)
    (hback : ∀ s a t, I s → step s a = some t → Q s a t → I t ∧ P s a t) :
    EachStep step P s as ↔ EachStep step Q s as :=
  ⟨fun h => h.rule hI hstep, fun h => h.rule hI hback⟩

/-- What holds after every step of a run, its last state satisfies. -/
theorem EachStep.last {P : σ → Prop} (h : EachStep step (fun _ _ t => P t) s (as ++ [a]))
    (hrun : run step s (as ++ [a]) = some t) : P t := by
  induction as generalizing s with
  | nil =>
    obtain ⟨u, hst, hu⟩ := Option.bind_eq_some_iff.mp hrun
    obtain rfl : u = t := Option.some.inj hu
    exact (h u hst).1
  | cons b as ih =>
    obtain ⟨r, hsr, hrt⟩ := Option.bind_eq_some_iff.mp hrun
    exact ih (h r hsr).2 hrt

/-- What every step keeps, a run keeps. -/
theorem run_invariant {I : σ → Prop} (hstep : ∀ s a t, I s → step s a = some t → I t) (hI : I s)
    (hrun : run step s as = some t) : I t := by
  induction as generalizing s with
  | nil =>
    obtain rfl : s = t := Option.some.inj hrun
    exact hI
  | cons a as ih =>
    obtain ⟨u, hst, hu⟩ := Option.bind_eq_some_iff.mp hrun
    exact ih (hstep s a u hI hst) hu

/-- A run keeps what every step keeps, up to the first step that does not. -/
theorem run_invariant_or {I : σ → Prop} {E : σ → α → Prop}
    (hstep : ∀ s a t, I s → step s a = some t → I t ∨ E s a) (hI : I s)
    (hrun : run step s as = some t) :
    I t ∨ ∃ first a rest u, as = first ++ a :: rest ∧ run step s first = some u ∧ I u ∧ E u a := by
  induction as generalizing s with
  | nil =>
    obtain rfl : s = t := Option.some.inj hrun
    exact .inl hI
  | cons a as ih =>
    obtain ⟨u, hst, hu⟩ := Option.bind_eq_some_iff.mp hrun
    rcases hstep s a u hI hst with hIu | hE
    · rcases ih hIu hu with hIt | ⟨first, b, rest, v, rfl, hfirst, hv, hE⟩
      · exact .inl hIt
      · exact .inr ⟨a :: first, b, rest, v, rfl, (run_cons hst).trans hfirst, hv, hE⟩
    · exact .inr ⟨[], a, as, s, rfl, rfl, hI, hE⟩

/-- What a run does is paid for by a potential: when every step pays for itself from the potential
and from what its action brings in, the payments of a run are at most what its actions bring in. -/
theorem run_potential {I : σ → Prop} (potential : σ → ℕ) (paid income : α → ℕ)
    (hstep : ∀ s a t, a ∈ as → I s → step s a = some t →
      I t ∧ potential t + paid a ≤ potential s + income a) (hI : I s)
    (hrun : run step s as = some t) :
    I t ∧ potential t + (as.map paid).sum ≤ potential s + (as.map income).sum := by
  induction as generalizing s with
  | nil =>
    obtain rfl : s = t := Option.some.inj hrun
    exact ⟨hI, Nat.le_refl _⟩
  | cons a as ih =>
    obtain ⟨u, hst, hu⟩ := Option.bind_eq_some_iff.mp hrun
    obtain ⟨hIu, hpaid⟩ := hstep s a u List.mem_cons_self hI hst
    obtain ⟨hIt, hrest⟩ := ih (fun s a t ha => hstep s a t (List.mem_cons_of_mem _ ha)) hIu hu
    refine ⟨hIt, ?_⟩
    simp only [List.map_cons, List.sum_cons]
    omega

/-- A property that a step keeps exactly when it satisfies `P`, a run keeps exactly when all its
steps satisfy `P`. -/
theorem iff_eachStep_of_run {I J : σ → Prop}
    (hstep : ∀ s a t, I s → step s a = some t → I t ∧ (J t ↔ J s ∧ P s a t)) (hI : I s)
    (hrun : run step s as = some t) : J t ↔ J s ∧ EachStep step P s as := by
  induction as generalizing s with
  | nil =>
    obtain rfl : s = t := Option.some.inj hrun
    exact ⟨fun hJ => ⟨hJ, trivial⟩, And.left⟩
  | cons a as ih =>
    obtain ⟨u, hst, hu⟩ := Option.bind_eq_some_iff.mp hrun
    obtain ⟨hIu, hJ⟩ := hstep s a u hI hst
    rw [ih hIu hu, hJ, eachStep_cons hst, and_assoc]

/-- If every state that is not done has a step that lowers a measure, some run gets done. -/
theorem exists_run_of_measure {I done : σ → Prop} (measure : σ → ℕ)
    (hstep : ∀ s, I s → ¬ done s → ∃ a t, step s a = some t ∧ I t ∧ measure t < measure s)
    (hI : I s) : ∃ as t, run step s as = some t ∧ done t := by
  induction hm : measure s using Nat.strongRecOn generalizing s with
  | ind m ih =>
    by_cases hdone : done s
    · exact ⟨[], s, rfl, hdone⟩
    · obtain ⟨a, u, hst, hIu, hlt⟩ := hstep s hI hdone
      obtain ⟨as, t, hrun, ht⟩ := ih (measure u) (hm ▸ hlt) hIu rfl
      exact ⟨a :: as, t, Option.bind_eq_some_iff.mpr ⟨u, hst, hrun⟩, ht⟩

/-- A run whose steps are all taken from states that satisfy `P`. -/
inductive RunsFrom (step : σ → α → Option σ) (P : σ → Prop) : σ → List α → σ → Prop
  | nil (s : σ) : RunsFrom step P s [] s
  | cons {s t u : σ} {a : α} {as : List α} :
      P s → step s a = some t → RunsFrom step P t as u → RunsFrom step P s (a :: as) u

theorem RunsFrom.invariant {P I : σ → Prop} (h : RunsFrom step P s as t)
    (hstep : ∀ s a t, P s → I s → step s a = some t → I t) (hI : I s) : I t := by
  induction h with
  | nil => exact hI
  | cons hP hst _ ih => exact ih (hstep _ _ _ hP hI hst)

end McpZero.Lib
