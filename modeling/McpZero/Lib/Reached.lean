import McpZero.Lib.Except

/-! Which errors a sequence of checks can end with. A check is reached if all before it pass. -/
namespace McpZero.Lib

variable {ε α β : Type}

/-- The computation does not fail with a bad error. -/
def Avoids (bad : ε → Prop) (r : Except ε α) : Prop := ∀ e, r = .error e → ¬ bad e

variable {bad : ε → Prop}

theorem avoids_ok {a : α} : Avoids bad (.ok a : Except ε α) := nofun

theorem avoids_pure {a : α} : Avoids bad (pure a : Except ε α) := nofun

theorem avoids_error {e : ε} : Avoids bad (.error e : Except ε α) ↔ ¬ bad e := by
  constructor
  · intro h
    exact h e rfl
  · intro h e' he'
    cases he'
    exact h

theorem avoids_throw {e : ε} : Avoids bad (throw e : Except ε α) ↔ ¬ bad e := avoids_error

/-- Where every error is bad, only success avoids one. -/
theorem avoids_iff_exists_ok {r : Except ε α} (h : ∀ e, r = .error e → bad e) :
    Avoids bad r ↔ ∃ a, r = .ok a := by
  cases r with
  | ok a => exact ⟨fun _ => ⟨a, rfl⟩, fun _ => avoids_ok⟩
  | error e =>
    rw [avoids_error]
    exact ⟨fun hnot => absurd (h e rfl) hnot, nofun⟩

theorem avoids_bind {x : Except ε α} {f : α → Except ε β} :
    Avoids bad (x >>= f) ↔ Avoids bad x ∧ ∀ a, x = .ok a → Avoids bad (f a) := by
  cases x with
  | error e =>
    have hbind : (Except.error e >>= f) = .error e := rfl
    rw [hbind, avoids_error, avoids_error]
    simp
  | ok a =>
    have hbind : (Except.ok a >>= f) = f a := rfl
    rw [hbind]
    simp [avoids_ok]

/-- Every item that is reached, all before it having passed, satisfies `q`. -/
def Reached (passes q : α → Prop) (items : List α) : Prop :=
  ∀ before x after, items = before ++ x :: after → (∀ y ∈ before, passes y) → q x

variable {passes q : α → Prop}

theorem reached_nil : Reached passes q [] := by
  intro before x after h
  simp at h

theorem reached_cons {x : α} {items : List α} :
    Reached passes q (x :: items) ↔ q x ∧ (passes x → Reached passes q items) := by
  constructor
  · intro h
    refine ⟨h [] x items rfl nofun, fun hx before y after hsplit hbefore => ?_⟩
    apply h (x :: before) y after (by rw [hsplit, List.cons_append])
    exact List.forall_mem_cons.mpr ⟨hx, hbefore⟩
  · intro h before y after hsplit hbefore
    cases before with
    | nil =>
      obtain ⟨rfl, -⟩ := List.cons.inj hsplit
      exact h.1
    | cons z before =>
      obtain ⟨rfl, hrest⟩ := List.cons.inj hsplit
      obtain ⟨hx, hbefore⟩ := List.forall_mem_cons.mp hbefore
      exact h.2 hx before y after hrest hbefore

theorem reached_append {xs ys : List α} :
    Reached passes q (xs ++ ys) ↔
      Reached passes q xs ∧ ((∀ x ∈ xs, passes x) → Reached passes q ys) := by
  induction xs with
  | nil => simp [reached_nil]
  | cons x xs ih =>
    rw [List.cons_append, reached_cons, reached_cons, ih, List.forall_mem_cons, and_assoc]
    apply and_congr_right
    intro _
    constructor
    · intro h
      exact ⟨fun hx => (h hx).1, fun hall => (h hall.1).2 hall.2⟩
    · intro h hx
      exact ⟨h.1 hx, fun hxs => h.2 ⟨hx, hxs⟩⟩

theorem reached_of_forall {items : List α} (h : ∀ x ∈ items, q x) : Reached passes q items := by
  intro before x after hsplit _
  apply h
  rw [hsplit]
  exact List.mem_append_right before List.mem_cons_self

theorem reached_congr {passes' q' : α → Prop} {items : List α}
    (hpasses : ∀ x, passes x ↔ passes' x) (hq : ∀ x, q x ↔ q' x) :
    Reached passes q items ↔ Reached passes' q' items := by
  unfold Reached
  simp only [hpasses, hq]

/-- A sequence of checks fails as the first check does that does not pass. -/
theorem avoids_forM {f : α → Except ε PUnit} {items : List α} :
    Avoids bad (items.forM f) ↔
      Reached (fun x => f x = .ok ()) (fun x => Avoids bad (f x)) items := by
  induction items with
  | nil => exact ⟨fun _ => reached_nil, fun _ => avoids_pure⟩
  | cons x items ih =>
    have hstep : (x :: items).forM f = (f x >>= fun _ => items.forM f) := rfl
    rw [hstep, avoids_bind, reached_cons, ih]
    apply and_congr_right
    intro _
    exact ⟨fun h hx => h () hx, fun h _ hx => h hx⟩

/-- A traversal fails as the first item does at which it does not return. -/
theorem avoids_mapM {f : α → Except ε β} {items : List α} :
    Avoids bad (items.mapM f) ↔
      Reached (fun x => ∃ b, f x = .ok b) (fun x => Avoids bad (f x)) items := by
  induction items with
  | nil => exact ⟨fun _ => reached_nil, fun _ => avoids_pure⟩
  | cons x items ih =>
    rw [List.mapM_cons, avoids_bind, reached_cons, exists_imp]
    apply and_congr_right
    intro _
    apply forall₂_congr
    intro b _
    rw [avoids_bind, ih]
    exact and_iff_left fun _ _ => avoids_pure

end McpZero.Lib
