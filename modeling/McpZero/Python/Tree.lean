import McpZero.Python.Value
import McpZero.Lib.Except

/-! String leaves of a value and maps over them. A map may fail at a leaf; it visits the
leaves from left to right and stops at the first failure. -/
namespace McpZero.Python.Value
open Lib

variable {ε : Type}

mutual

/-- The string leaves, from left to right. Dictionary keys are not leaves, and neither are the
items of tuples and sets, which no walk enters. -/
def strings : Value → List String
  | .str s => [s]
  | .scalar _ => []
  | .group _ _ => []
  | .list items => stringsItems items
  | .dict entries => stringsEntries entries

def stringsItems : List Value → List String
  | [] => []
  | v :: rest => v.strings ++ stringsItems rest

def stringsEntries : Dict → List String
  | [] => []
  | (_, v) :: rest => v.strings ++ stringsEntries rest

end

mutual

/-- Replace every string leaf, keeping keys, lengths and the other leaves. -/
def mapStrings (f : String → Except ε String) : Value → Except ε Value
  | .str s => do
    let t ← f s
    return .str t
  | .scalar a => .ok (.scalar a)
  | .group kind items => .ok (.group kind items)
  | .list items => do
    let items ← mapItems f items
    return .list items
  | .dict entries => do
    let entries ← mapEntries f entries
    return .dict entries

def mapItems (f : String → Except ε String) : List Value → Except ε (List Value)
  | [] => .ok []
  | v :: rest => do
    let v ← mapStrings f v
    let rest ← mapItems f rest
    return v :: rest

def mapEntries (f : String → Except ε String) : Dict → Except ε Dict
  | [] => .ok []
  | (k, v) :: rest => do
    let v ← mapStrings f v
    let rest ← mapEntries f rest
    return (k, v) :: rest

end

mutual

/-- A map leaves the whole tree as it is exactly when it fixes every string leaf. -/
theorem mapStrings_eq_self_iff (f : String → Except ε String) (v : Value) :
    v.mapStrings f = .ok v ↔ ∀ s ∈ v.strings, f s = .ok s := by
  match v with
  | .str s =>
    simp only [mapStrings, strings, bind_eq_ok, pure_eq_ok, scalar.injEq, Scalar.str.injEq]
    simp
  | .scalar .none => simp [mapStrings, strings]
  | .scalar (.bool _) => simp [mapStrings, strings]
  | .scalar (.int _) => simp [mapStrings, strings]
  | .scalar (.float _) => simp [mapStrings, strings]
  | .bytes _ => simp [mapStrings, strings]
  | .scalar (.other _ _) => simp [mapStrings, strings]
  | .group _ _ => simp [mapStrings, strings]
  | .list items =>
    simp only [mapStrings, strings, bind_eq_ok, pure_eq_ok, Value.list.injEq]
    simpa using mapItems_eq_self_iff f items
  | .dict entries =>
    simp only [mapStrings, strings, bind_eq_ok, pure_eq_ok, Value.dict.injEq]
    simpa using mapEntries_eq_self_iff f entries

theorem mapItems_eq_self_iff (f : String → Except ε String) (items : List Value) :
    mapItems f items = .ok items ↔ ∀ s ∈ stringsItems items, f s = .ok s := by
  match items with
  | [] => simp [mapItems, stringsItems]
  | v :: rest =>
    have hv := mapStrings_eq_self_iff f v
    have hrest := mapItems_eq_self_iff f rest
    simp only [mapItems, stringsItems, bind_eq_ok, pure_eq_ok, List.cons.injEq, List.mem_append,
      or_imp, forall_and, ← hv, ← hrest]
    constructor
    · rintro ⟨w, hw, ws, hws, rfl, rfl⟩
      exact ⟨hw, hws⟩
    · rintro ⟨hw, hws⟩
      exact ⟨v, hw, rest, hws, rfl, rfl⟩

theorem mapEntries_eq_self_iff (f : String → Except ε String) (entries : Dict) :
    mapEntries f entries = .ok entries ↔ ∀ s ∈ stringsEntries entries, f s = .ok s := by
  match entries with
  | [] => simp [mapEntries, stringsEntries]
  | (k, v) :: rest =>
    have hv := mapStrings_eq_self_iff f v
    have hrest := mapEntries_eq_self_iff f rest
    simp only [mapEntries, stringsEntries, bind_eq_ok, pure_eq_ok, List.cons.injEq,
      Prod.mk.injEq, true_and, List.mem_append, or_imp, forall_and, ← hv, ← hrest]
    constructor
    · rintro ⟨w, hw, ws, hws, rfl, rfl⟩
      exact ⟨hw, hws⟩
    · rintro ⟨hw, hws⟩
      exact ⟨v, hw, rest, hws, rfl, rfl⟩

end

end McpZero.Python.Value
