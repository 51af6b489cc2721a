import McpZero.Lib.Reached
import McpZero.Python.Json

/-! Which values `json.dumps` can write: those whose parts it can write. -/
namespace McpZero.Python.Json
open Lib

@[simp] theorem writable_str (s : String) : Writable (.str s) := ⟨_, rfl⟩

@[simp] theorem writable_bool (b : Bool) : Writable (.bool b) := ⟨_, rfl⟩

@[simp] theorem writable_none : Writable .none := ⟨_, rfl⟩

@[simp] theorem writable_float (x : Float) : Writable (.scalar (.float x)) := ⟨_, rfl⟩

theorem exists_textItems_iff {items : List Value} :
    (∃ cs, textItems items = .ok cs) ↔ ∀ v ∈ items, Writable v := by
  induction items with
  | nil => exact iff_of_true ⟨_, rfl⟩ (List.forall_mem_nil _)
  | cons v items ih =>
    rw [List.forall_mem_cons, ← ih]
    cases items with
    | nil => exact (and_iff_left ⟨_, rfl⟩).symm
    | cons w rest =>
      simp only [textItems, bind_eq_ok, pure_eq_ok]
      constructor
      · rintro ⟨_, first, hfirst, others, hothers, -⟩
        exact ⟨⟨first, hfirst⟩, others, hothers⟩
      · rintro ⟨⟨first, hfirst⟩, others, hothers⟩
        exact ⟨_, first, hfirst, others, hothers, rfl⟩

/-- A list is written exactly when its items are. -/
theorem writable_list_iff {items : List Value} :
    Writable (.list items) ↔ ∀ v ∈ items, Writable v := by
  rw [← exists_textItems_iff]
  simp only [Writable, text, bind_eq_ok, pure_eq_ok]
  constructor
  · rintro ⟨_, body, hbody, -⟩
    exact ⟨body, hbody⟩
  · rintro ⟨body, hbody⟩
    exact ⟨_, body, hbody, rfl⟩

theorem exists_textEntries_iff {entries : Dict} :
    (∃ cs, textEntries entries = .ok cs) ↔
      ∀ e ∈ entries, (∃ key, keyText e.1 = .ok key) ∧ Writable e.2 := by
  induction entries with
  | nil => exact iff_of_true ⟨_, rfl⟩ (List.forall_mem_nil _)
  | cons e entries ih =>
    obtain ⟨k, v⟩ := e
    rw [List.forall_mem_cons, ← ih]
    cases entries with
    | nil =>
      simp only [textEntries, bind_eq_ok, pure_eq_ok]
      constructor
      · rintro ⟨_, key, hkey, value, hvalue, -⟩
        exact ⟨⟨⟨key, hkey⟩, value, hvalue⟩, [], rfl⟩
      · rintro ⟨⟨⟨key, hkey⟩, value, hvalue⟩, -⟩
        exact ⟨_, key, hkey, value, hvalue, rfl⟩
    | cons e rest =>
      simp only [textEntries, bind_eq_ok, pure_eq_ok]
      constructor
      · rintro ⟨_, key, hkey, value, hvalue, others, hothers, -⟩
        exact ⟨⟨⟨key, hkey⟩, value, hvalue⟩, others, hothers⟩
      · rintro ⟨⟨⟨key, hkey⟩, value, hvalue⟩, others, hothers⟩
        exact ⟨_, key, hkey, value, hvalue, others, hothers, rfl⟩

/-- A dictionary is written exactly when its keys and values are. -/
theorem writable_dict_iff {entries : Dict} :
    Writable (.dict entries) ↔
      ∀ e ∈ entries, (∃ key, keyText e.1 = .ok key) ∧ Writable e.2 := by
  rw [← exists_textEntries_iff]
  simp only [Writable, text, bind_eq_ok, pure_eq_ok]
  constructor
  · rintro ⟨_, body, hbody, -⟩
    exact ⟨body, hbody⟩
  · rintro ⟨body, hbody⟩
    exact ⟨_, body, hbody, rfl⟩

theorem defaultStrItems_eq_map (items : List Value) :
    defaultStrItems items = items.map defaultStr := by
  induction items with
  | nil => rfl
  | cons v items ih => rw [defaultStrItems, List.map_cons, ih]

theorem defaultStrEntries_eq_map (entries : Dict) :
    defaultStrEntries entries = entries.map fun e => (e.1, defaultStr e.2) := by
  induction entries with
  | nil => rfl
  | cons e entries ih => rw [defaultStrEntries, List.map_cons, ih]

theorem writable_int_iff (n : ℤ) : Writable (.int n) ↔ ShortInt n := by
  unfold Writable text intText ShortInt
  dsimp only
  split
  · rename_i hlong
    exact iff_of_false (by rintro ⟨_, h⟩; cases h) (by omega)
  · rename_i hshort
    exact iff_of_true ⟨_, rfl⟩ (by omega)

theorem intText_avoids (n : ℤ) : Avoids Exc.IsShortCircuit (intText n) := by
  unfold intText
  dsimp only
  split
  · exact avoids_error.mpr id
  · exact avoids_ok

theorem keyText_avoids (k : Scalar) : Avoids Exc.IsShortCircuit (keyText k) := by
  cases k with
  | int n => exact avoids_bind.mpr ⟨intText_avoids n, fun _ _ => avoids_pure⟩
  | bytes bs => exact avoids_error.mpr id
  | other t s => exact avoids_error.mpr id
  | _ => exact avoids_ok

mutual

/-- Writing a value raises errors of its own. -/
theorem text_avoids (v : Value) : Avoids Exc.IsShortCircuit (text v) := by
  match v with
  | .none | .bool _ | .scalar (.float _) | .str _ => exact avoids_ok
  | .int n => exact intText_avoids n
  | .bytes _ | .scalar (.other _ _) | .group .set _ => exact avoids_error.mpr id
  | .list items => exact avoids_bind.mpr ⟨textItems_avoids items, fun _ _ => avoids_pure⟩
  | .group .tuple items => exact avoids_bind.mpr ⟨textItems_avoids items, fun _ _ => avoids_pure⟩
  | .dict entries => exact avoids_bind.mpr ⟨textEntries_avoids entries, fun _ _ => avoids_pure⟩

theorem textItems_avoids (items : List Value) : Avoids Exc.IsShortCircuit (textItems items) := by
  match items with
  | [] => exact avoids_ok
  | [v] => exact text_avoids v
  | v :: w :: rest =>
    refine avoids_bind.mpr ⟨text_avoids v, fun _ _ => ?_⟩
    exact avoids_bind.mpr ⟨textItems_avoids (w :: rest), fun _ _ => avoids_pure⟩

theorem textEntries_avoids (entries : Dict) :
    Avoids Exc.IsShortCircuit (textEntries entries) := by
  match entries with
  | [] => exact avoids_ok
  | [(k, v)] =>
    refine avoids_bind.mpr ⟨keyText_avoids k, fun _ _ => ?_⟩
    exact avoids_bind.mpr ⟨text_avoids v, fun _ _ => avoids_pure⟩
  | (k, v) :: e :: rest =>
    refine avoids_bind.mpr ⟨keyText_avoids k, fun _ _ => ?_⟩
    refine avoids_bind.mpr ⟨text_avoids v, fun _ _ => ?_⟩
    exact avoids_bind.mpr ⟨textEntries_avoids (e :: rest), fun _ _ => avoids_pure⟩

end

theorem map_avoids {α β : Type} {r : Except Exc α} {f : α → β}
    (h : Avoids Exc.IsShortCircuit r) : Avoids Exc.IsShortCircuit (r.map f) := by
  cases r with
  | error e => exact avoids_error.mpr (avoids_error.mp h)
  | ok a => exact avoids_ok

theorem payloadSize_avoids (payload : Dict) : Avoids Exc.IsShortCircuit (payloadSize payload) := by
  unfold payloadSize
  split
  · exact avoids_ok
  · exact map_avoids (text_avoids _)

theorem dumps_avoids (v : Value) : Avoids Exc.IsShortCircuit (dumps v) := map_avoids (text_avoids v)

end McpZero.Python.Json
