import McpZero.Python.Operators

/-! `dict(v)` on untyped values. -/
namespace McpZero.Python

/-- `d[key] = value`. A key that equals one of the dictionary keeps its spelling. -/
def Dict.setItem (key : Scalar) (value : Value) : Dict → Dict
  | [] => [(key, value)]
  | (k, v) :: rest => if k.pyEq key then (k, value) :: rest else (k, v) :: setItem key value rest

namespace Value

/-- A dictionary is filled with the pairs of a sequence. The index is the one of the next pair. -/
def updateFrom (i : ℕ) (d : Dict) : List Value → Except Exc Dict
  | [] => .ok d
  | v :: rest =>
    match v.iter with
    | .error _ => .error (typeError ("cannot convert dictionary update sequence element #" ++
        toString i ++ " to a sequence"))
    | .ok [.scalar key, value] => updateFrom (i + 1) (d.setItem key value) rest
    | .ok [key, _] => .error (typeError ("unhashable type: '" ++ key.typeName ++ "'"))
    | .ok items => .error (.other "ValueError" ("dictionary update sequence element #" ++
        toString i ++ " has length " ++ toString items.length ++ "; 2 is required"))

/-- `dict(v)`. -/
def toDict : Value → Except Exc Dict
  | .dict entries => .ok entries
  | v => do
    let items ← v.iter
    updateFrom 0 [] items

example : toDict (.list [.str "ab", .list [.str "c", .int 1]]) matches
    .ok [(.str "a", .str "b"), (.str "c", .int 1)] := by decide

end Value

end McpZero.Python
