import Mathlib.Data.List.Forall2
import Mathlib.Tactic.Common

/-! When a computation that may fail succeeds. -/
namespace McpZero.Lib

variable {ε α β : Type}

theorem bind_eq_ok {x : Except ε α} {g : α → Except ε β} {b : β} :
    (x >>= g) = .ok b ↔ ∃ a, x = .ok a ∧ g a = .ok b := by
  cases x with
  | error e => exact ⟨nofun, nofun⟩
  | ok a => exact ⟨fun h => ⟨a, rfl, h⟩, fun ⟨_, h, hg⟩ => Except.ok.inj h ▸ hg⟩

theorem exists_bind_eq_ok {x : Except ε α} {g : α → Except ε β} :
    (∃ b, (x >>= g) = .ok b) ↔ ∃ a, x = .ok a ∧ ∃ b, g a = .ok b := by
  simp only [bind_eq_ok]
  constructor
  · intro h
    obtain ⟨b, a, ha, hb⟩ := h
    exact ⟨a, ha, b, hb⟩
  · intro h
    obtain ⟨a, ha, b, hb⟩ := h
    exact ⟨b, a, ha, hb⟩

theorem pure_eq_ok {a b : α} : (pure a : Except ε α) = .ok b ↔ a = b :=
  ⟨Except.ok.inj, congrArg _⟩

theorem map_error_eq_ok {ε' : Type} {f : ε → ε'} {x : Except ε α} {a : α} :
    x.mapError f = .ok a ↔ x = .ok a := by
  cases x <;> simp [Except.mapError]

/-- A traversal that succeeds has succeeded on every item. -/
theorem forall₂_of_mapM_eq_ok {f : α → Except ε β} {items : List α} {results : List β}
    (h : items.mapM f = .ok results) : List.Forall₂ (fun a b => f a = .ok b) items results := by
  induction items generalizing results with
  | nil =>
    cases h
    exact .nil
  | cons item items ih =>
    rw [List.mapM_cons] at h
    simp only [bind_eq_ok, pure_eq_ok] at h
    obtain ⟨b, hb, bs, hbs, rfl⟩ := h
    exact .cons hb (ih hbs)

theorem mapM_eq_ok_of_forall₂ {f : α → Except ε β} {items : List α} {results : List β}
    (h : List.Forall₂ (fun a b => f a = .ok b) items results) : items.mapM f = .ok results := by
  induction h with
  | nil => rfl
  | cons hab _ ih =>
    rw [List.mapM_cons, hab, ih]
    rfl

theorem forall₂_of_zipIdx_mapM {f : α → ℕ → Except ε β} {items : List α} {results : List β}
    (h : (items.zipIdx.mapM fun (a, i) => f a i) = .ok results) :
    List.Forall₂ (fun a b => ∃ i, f a i = .ok b) items results := by
  have hpairs := forall₂_of_mapM_eq_ok h
  rw [← List.zipIdx_map_fst 0 items, List.forall₂_map_left_iff]
  exact hpairs.imp fun _ _ hab => ⟨_, hab⟩

theorem forM_eq_ok {f : α → Except ε PUnit} {items : List α} :
    items.forM f = .ok () ↔ ∀ item ∈ items, f item = .ok () := by
  induction items with
  | nil => simp [pure, Except.pure]
  | cons item items ih =>
    have hstep : (item :: items).forM f = (f item >>= fun _ => items.forM f) := rfl
    rw [hstep, bind_eq_ok, List.forall_mem_cons, ih]
    constructor
    · intro h
      obtain ⟨⟨⟩, hitem, hrest⟩ := h
      exact ⟨hitem, hrest⟩
    · intro h
      exact ⟨(), h.1, h.2⟩

theorem exists_of_forM_eq_error {f : α → Except ε PUnit} {items : List α} {e : ε}
    (h : items.forM f = .error e) : ∃ item ∈ items, f item = .error e := by
  induction items with
  | nil => cases h
  | cons item items ih =>
    have hstep : (item :: items).forM f = (f item >>= fun _ => items.forM f) := rfl
    rw [hstep] at h
    cases hitem : f item with
    | error e' =>
      rw [hitem] at h
      cases h
      exact ⟨item, List.mem_cons_self, hitem⟩
    | ok u =>
      rw [hitem] at h
      obtain ⟨item', hmem, hitem'⟩ := ih h
      exact ⟨item', List.mem_cons_of_mem _ hmem, hitem'⟩

/-- A traversal fails with what one of its items fails with. -/
theorem exists_of_mapM_eq_error {f : α → Except ε β} {items : List α} {e : ε}
    (h : items.mapM f = .error e) : ∃ item ∈ items, f item = .error e := by
  induction items with
  | nil => cases h
  | cons item items ih =>
    rw [List.mapM_cons] at h
    cases hitem : f item with
    | error e' =>
      rw [hitem] at h
      cases h
      exact ⟨item, List.mem_cons_self, hitem⟩
    | ok b =>
      rw [hitem] at h
      cases hrest : items.mapM f with
      | error e' =>
        rw [hrest] at h
        cases h
        obtain ⟨item', hmem, hitem'⟩ := ih hrest
        exact ⟨item', List.mem_cons_of_mem _ hmem, hitem'⟩
      | ok bs =>
        rw [hrest] at h
        cases h

/-- A test that returns, and returns whether `p` holds. -/
def Decides (test : Except ε Bool) (p : Prop) : Prop :=
  ∃ b, test = .ok b ∧ (b = true ↔ p)

namespace Decides

variable {r s t : Except ε Bool} {p q u : Prop}

theorem congr (h : Decides r p) (hpq : p ↔ q) : Decides r q := by
  obtain ⟨b, hb, hp⟩ := h
  exact ⟨b, hb, hp.trans hpq⟩

theorem unique (h : Decides r p) (h' : Decides r q) : p ↔ q := by
  obtain ⟨b, hb, hp⟩ := h
  obtain ⟨b', hb', hq⟩ := h'
  have hbool : b = b' := Except.ok.inj (hb.symm.trans hb')
  rw [← hp, hbool, hq]

theorem eq_true (h : Decides r p) (hp : p) : r = .ok true := by
  obtain ⟨b, hb, hiff⟩ := h
  rw [hb, hiff.mpr hp]

theorem of_bool {b : Bool} (h : b = true ↔ p) : Decides (.ok b : Except ε Bool) p :=
  ⟨b, rfl, h⟩

/-- `if ← r then s else t`. -/
theorem ite (hr : Decides r p) (hs : Decides s q) (ht : Decides t u) :
    Decides (r >>= fun b => if b = true then s else t) ((p ∧ q) ∨ (¬ p ∧ u)) := by
  obtain ⟨b, rfl, hb⟩ := hr
  cases b with
  | true =>
    have hp : p := hb.mp rfl
    refine hs.congr ?_
    simp [hp]
  | false =>
    have hp : ¬ p := fun h => absurd (hb.mpr h) Bool.false_ne_true
    refine ht.congr ?_
    simp [hp]

/-- `if ← r then return true`, followed by `t`. -/
theorem or (hr : Decides r p) (ht : Decides t u) :
    Decides (r >>= fun b => if b = true then pure true else t) (p ∨ u) := by
  refine (hr.ite (of_bool (p := True) (by simp)) ht).congr ?_
  by_cases hp : p <;> simp [hp]

/-- `if ← r then s else return false`. -/
theorem and (hr : Decides r p) (hs : Decides s q) :
    Decides (r >>= fun b => if b = true then s else pure false) (p ∧ q) := by
  refine (hr.ite hs (of_bool (p := False) (by simp))).congr ?_
  simp

/-- One entry of a search that goes on with `t` unless both tests hit. -/
theorem search (hr : Decides r p) (hs : Decides s q) (ht : Decides t u) :
    Decides (r >>= fun b => if b = true then s >>= fun c => if c = true then pure true else t
      else t) ((p ∧ q) ∨ u) := by
  refine (hr.ite (hs.or ht) ht).congr ?_
  by_cases hp : p <;> simp [hp]

end Decides

/-- Two properties that agree on related items agree on related lists. -/
theorem forall_mem_iff_of_forall₂ {R : α → β → Prop} {P : α → Prop} {Q : β → Prop}
    {xs : List α} {ys : List β} (h : List.Forall₂ R xs ys) (hPQ : ∀ a b, R a b → (P a ↔ Q b)) :
    (∀ a ∈ xs, P a) ↔ ∀ b ∈ ys, Q b := by
  induction h with
  | nil => simp
  | cons hab _ ih => rw [List.forall_mem_cons, List.forall_mem_cons, hPQ _ _ hab, ih]

theorem exists_mem_iff_of_forall₂ {R : α → β → Prop} {P : α → Prop} {Q : β → Prop}
    {xs : List α} {ys : List β} (h : List.Forall₂ R xs ys) (hPQ : ∀ a b, R a b → (P a ↔ Q b)) :
    (∃ a ∈ xs, P a) ↔ ∃ b ∈ ys, Q b := by
  induction h with
  | nil => simp
  | cons hab _ ih => rw [List.exists_mem_cons_iff, List.exists_mem_cons_iff, hPQ _ _ hab, ih]

theorem exists_right_of_forall₂ {R : α → β → Prop} {xs : List α} {ys : List β}
    (h : List.Forall₂ R xs ys) {a : α} (ha : a ∈ xs) : ∃ b ∈ ys, R a b := by
  induction h with
  | nil => cases ha
  | cons hab _ ih =>
    rcases List.mem_cons.mp ha with rfl | ha
    · exact ⟨_, List.mem_cons_self, hab⟩
    · obtain ⟨b, hb, hR⟩ := ih ha
      exact ⟨b, List.mem_cons_of_mem _ hb, hR⟩

theorem exists_left_of_forall₂ {R : α → β → Prop} {xs : List α} {ys : List β}
    (h : List.Forall₂ R xs ys) {b : β} (hb : b ∈ ys) : ∃ a ∈ xs, R a b :=
  exists_right_of_forall₂ h.flip hb

theorem exists_mapM_eq_ok_iff {f : α → Except ε β} {items : List α} :
    (∃ results, items.mapM f = .ok results) ↔ ∀ item ∈ items, ∃ b, f item = .ok b := by
  constructor
  · intro ⟨results, h⟩ item hitem
    obtain ⟨b, -, hb⟩ := exists_right_of_forall₂ (forall₂_of_mapM_eq_ok h) hitem
    exact ⟨b, hb⟩
  · intro h
    cases hitems : items.mapM f with
    | ok results => exact ⟨results, rfl⟩
    | error e =>
      obtain ⟨item, hmem, hitem⟩ := exists_of_mapM_eq_error hitems
      obtain ⟨b, hb⟩ := h item hmem
      rw [hitem] at hb
      cases hb

theorem forall₂_of_mapM_eq_some {f : α → Option β} {xs : List α} {ys : List β}
    (h : xs.mapM f = some ys) : List.Forall₂ (fun a b => f a = some b) xs ys := by
  induction xs generalizing ys with
  | nil =>
    cases h
    exact .nil
  | cons x xs ih =>
    rw [List.mapM_cons] at h
    simp only [Option.bind_eq_bind, Option.bind_eq_some_iff, Option.pure_def,
      Option.some.injEq] at h
    obtain ⟨b, hb, bs, hbs, rfl⟩ := h
    exact .cons hb (ih hbs)

theorem exists_mapM_eq_some_iff {f : α → Option β} {xs : List α} :
    (∃ ys, xs.mapM f = some ys) ↔ ∀ x ∈ xs, ∃ y, f x = some y := by
  induction xs with
  | nil => simp
  | cons x xs ih =>
    rw [List.forall_mem_cons, ← ih, List.mapM_cons]
    simp only [Option.bind_eq_bind, Option.bind_eq_some_iff, Option.pure_def, Option.some.injEq]
    constructor
    · intro h
      obtain ⟨_, y, hy, ys, hys, -⟩ := h
      exact ⟨⟨y, hy⟩, ys, hys⟩
    · intro h
      obtain ⟨⟨y, hy⟩, ys, hys⟩ := h
      exact ⟨_, y, hy, ys, hys, rfl⟩

/-- Two partial readings that agree on related items agree on related lists. -/
theorem mapM_eq_of_forall₂ {γ : Type} {R : α → β → Prop} {f : α → Option γ} {g : β → Option γ}
    {xs : List α} {ys : List β} (h : List.Forall₂ R xs ys) (hfg : ∀ a b, R a b → f a = g b) :
    xs.mapM f = ys.mapM g := by
  induction h with
  | nil => rfl
  | cons hab _ ih => rw [List.mapM_cons, List.mapM_cons, hfg _ _ hab, ih]

end McpZero.Lib
