import McpZero.Errors
import McpZero.Python.Value

/-! The operators `in`, `for` and `.get` on untyped values, with the exceptions they raise on
a value of another type. -/
namespace McpZero.Python.Value

def typeError (message : String) : Exc := .other "TypeError" message

def noAttribute (v : Value) (name : String) : Exc :=
  .other "AttributeError" ("'" ++ v.typeName ++ "' object has no attribute '" ++ name ++ "'")

/-- An integer that is too long for a text. -/
def longInt : Exc :=
  .other "ValueError" ("Exceeds the limit (4300 digits) for integer string conversion; " ++
    "use sys.set_int_max_str_digits() to increase the limit")

/-- `startswith` or `endswith` of bytes, called with a string. -/
def bytesAffix (method : String) : Exc :=
  typeError (method ++ " first arg must be bytes or a tuple of bytes, not str")

/-- What `for x in v` runs over: items, keys, characters or the numbers of bytes. -/
def iter : Value → Except Exc (List Value)
  | .list items => .ok items
  | .group _ items => .ok items
  | .dict entries => .ok (entries.map fun e => .scalar e.1)
  | .str s => .ok (s.toList.map fun c => .str c.toString)
  | .bytes bs => .ok (bs.map fun b => .int b.toNat)
  | v => .error (typeError ("'" ++ v.typeName ++ "' object is not iterable"))

/-- `v == s`. -/
def eqStr (s : String) (v : Value) : Bool :=
  match v with
  | .str t => t == s
  | _ => false

/-- `needle in v` for a string `needle`: equality with an item or a key, or a substring. -/
def hasStr (v : Value) (needle : String) : Except Exc Bool :=
  match v with
  | .list items => .ok (items.any (eqStr needle))
  | .group _ items => .ok (items.any (eqStr needle))
  | .dict entries => .ok (entries.any fun e => e.1 == .str needle)
  | .str s => .ok (hasSubstring s needle)
  | .bytes _ => .error (typeError "a bytes-like object is required, not 'str'")
  | v => .error (typeError ("argument of type '" ++ v.typeName ++ "' is not iterable"))

/-- `v.get(key)`; only dictionaries have the method. -/
def getKey (v : Value) (key : String) : Except Exc Value :=
  match v with
  | .dict entries => .ok (Dict.getD entries key .none)
  | v => .error (noAttribute v "get")

/-- `v.get(key, default)`. -/
def getKeyD (v : Value) (key : String) (default : Value) : Except Exc Value :=
  match v with
  | .dict entries => .ok (Dict.getD entries key default)
  | v => .error (noAttribute v "get")

mutual

/-- The type of what cannot be hashed in a value. A tuple is hashed with its items. -/
def unhashable? : Value → Option String
  | .scalar _ => Option.none
  | .group .tuple items => unhashableItem? items
  | v => some v.typeName

def unhashableItem? : List Value → Option String
  | [] => Option.none
  | v :: rest => (unhashable? v).or (unhashableItem? rest)

end

def asScalar? : Value → Option Scalar
  | .scalar a => some a
  | _ => Option.none

def asStr? : Value → Option String
  | .str s => some s
  | _ => Option.none

def asList? : Value → Option (List Value)
  | .list items => some items
  | _ => Option.none

def asDict? : Value → Option Dict
  | .dict entries => some entries
  | _ => Option.none

/-- A list of strings as a value. -/
def ofStrings (xs : List String) : Value := .list (xs.map .str)

/-- The strings of a value that is a list of strings. -/
def asStrings? (v : Value) : Option (List String) := do
  let items ← v.asList?
  items.mapM asStr?

end McpZero.Python.Value
