import Mathlib.Algebra.Group.Int.Defs
import Mathlib.Algebra.Group.Nat.Defs
import Mathlib.Data.List.Infix
import Mathlib.Data.Rat.Defs
import Mathlib.Tactic.Common

/-! Python values as they come out of a YAML or JSON parser and as tool payloads:
a tree of dictionaries, lists, tuples and sets over hashable leaves. The operators follow the
Python data model where the gateway applies them to untyped values. -/
namespace McpZero.Python

/-- The number behind a Python float. -/
inductive FloatValue
  | finite (q : ℚ)
  | inf (negative : Bool)
  | nan
  deriving DecidableEq, Repr

/-- A float with the text `repr` gives for it. -/
structure Float where
  value : FloatValue
  repr : String
  deriving DecidableEq, Repr

/-- The hashable leaves. `other` is any other immutable object a parser can produce
(a date, a URL), known by its type name and its `str` text. -/
inductive Scalar
  | none
  | bool (b : Bool)
  | int (n : ℤ)
  | float (x : Float)
  | str (s : String)
  | bytes (bs : List UInt8)
  | other (typeName text : String)
  deriving DecidableEq, Repr

/-- The collections beside lists and dictionaries: the tuples of `!!omap` and `!!pairs`, which
stand only as items of a list, and the sets of `!!set`. -/
inductive Group
  | tuple
  | set
  deriving DecidableEq, Repr

/-- A dictionary keeps its entries in insertion order, with keys that are distinct. The items of
a set are leaves, in the order in which Python runs over them. -/
inductive Value
  | scalar (a : Scalar)
  | list (items : List Value)
  | group (kind : Group) (items : List Value)
  | dict (entries : List (Scalar × Value))

abbrev Dict := List (Scalar × Value)

namespace Scalar

/-- The numeric value used by `==`: `True == 1 == 1.0`. -/
def number? : Scalar → Option FloatValue
  | .bool b => some (.finite (if b then 1 else 0))
  | .int n => some (.finite n)
  | .float x => some x.value
  | _ => Option.none

/-- Python `==` between hashable leaves; a nan equals nothing. -/
def pyEq (a b : Scalar) : Bool :=
  match a.number?, b.number? with
  | some x, some y => x == y && x != .nan
  | Option.none, Option.none => a == b
  | _, _ => false

def truthy : Scalar → Bool
  | .none => false
  | .bool b => b
  | .int n => n != 0
  | .float x => x.value != .finite 0
  | .str s => s != ""
  | .bytes bs => !bs.isEmpty
  | .other _ _ => true

def typeName : Scalar → String
  | .none => "NoneType"
  | .bool _ => "bool"
  | .int _ => "int"
  | .float _ => "float"
  | .str _ => "str"
  | .bytes _ => "bytes"
  | .other t _ => t

end Scalar

def Group.typeName : Group → String
  | .tuple => "tuple"
  | .set => "set"

private def hexDigits (n : ℕ) : String :=
  let d := Nat.toDigits 16 n
  String.ofList (if d.length < 2 then '0' :: d else d)

private def reprChar (quote : Char) (c : Char) : String :=
  if c = '\\' then "\\\\"
  else if c = quote then String.ofList ['\\', c]
  else if c = '\n' then "\\n"
  else if c = '\r' then "\\r"
  else if c = '\t' then "\\t"
  else if c.toNat < 32 ∨ c.toNat = 127 then "\\x" ++ hexDigits c.toNat
  else c.toString

private def quoteFor (cs : List Char) : Char :=
  if cs.contains '\'' && !cs.contains '"' then '"' else '\''

/-- `repr` of a string, with every character outside ASCII taken as printable. -/
def reprString (s : String) : String :=
  let quote := quoteFor s.toList
  quote.toString ++ String.join (s.toList.map (reprChar quote)) ++ quote.toString

def reprBytes (bs : List UInt8) : String :=
  let quote := quoteFor (bs.map fun b => Char.ofNat b.toNat)
  let reprByte (b : UInt8) : String :=
    if b < 127 then reprChar quote (Char.ofNat b.toNat) else "\\x" ++ hexDigits b.toNat
  "b" ++ quote.toString ++ String.join (bs.map reprByte) ++ quote.toString

namespace Scalar

/-- `str(a)`, which is also what an f-string inserts. -/
def text : Scalar → String
  | .none => "None"
  | .bool b => if b then "True" else "False"
  | .int n => toString n
  | .float x => x.repr
  | .str s => s
  | .bytes bs => reprBytes bs
  | .other _ t => t

def repr : Scalar → String
  | .str s => reprString s
  | a => a.text

@[simp] theorem text_str (s : String) : (Scalar.str s).text = s := rfl

end Scalar

/-- The interpreter turns no integer of more than 4300 digits into a text. -/
def ShortInt (n : ℤ) : Prop := (Nat.toDigits 10 n.natAbs).length ≤ 4300

instance (n : ℤ) : Decidable (ShortInt n) := inferInstanceAs (Decidable (_ ≤ _))

/-- `str(a)` returns. -/
def Scalar.prints : Scalar → Bool
  | .int n => decide (ShortInt n)
  | _ => true

namespace Value

/-- A string value. -/
@[match_pattern] abbrev str (s : String) : Value := .scalar (.str s)

@[match_pattern] abbrev bool (b : Bool) : Value := .scalar (.bool b)

@[match_pattern] abbrev int (n : ℤ) : Value := .scalar (.int n)

@[match_pattern] abbrev none : Value := .scalar .none

@[match_pattern] abbrev bytes (bs : List UInt8) : Value := .scalar (.bytes bs)

def truthy : Value → Bool
  | .scalar a => a.truthy
  | .list items => !items.isEmpty
  | .group _ items => !items.isEmpty
  | .dict entries => !entries.isEmpty

def typeName : Value → String
  | .scalar a => a.typeName
  | .list _ => "list"
  | .group kind _ => kind.typeName
  | .dict _ => "dict"

mutual

def repr : Value → String
  | .scalar a => a.repr
  | .list items => "[" ++ reprItems items ++ "]"
  | .group .tuple [v] => "(" ++ v.repr ++ ",)"
  | .group .tuple items => "(" ++ reprItems items ++ ")"
  | .group .set [] => "set()"
  | .group .set items => "\x7b" ++ reprItems items ++ "\x7d"
  | .dict entries => "\x7b" ++ reprEntries entries ++ "\x7d"

def reprItems : List Value → String
  | [] => ""
  | [v] => v.repr
  | v :: w :: rest => v.repr ++ ", " ++ reprItems (w :: rest)

def reprEntries : List (Scalar × Value) → String
  | [] => ""
  | [(k, v)] => k.repr ++ ": " ++ v.repr
  | (k, v) :: e :: rest => k.repr ++ ": " ++ v.repr ++ ", " ++ reprEntries (e :: rest)

end

/-- `str(v)`. -/
def text : Value → String
  | .scalar a => a.text
  | v => v.repr

mutual

/-- `str(v)` returns, which it does not if an integer in the value is too long. -/
def prints : Value → Bool
  | .scalar a => a.prints
  | .list items => printsItems items
  | .group _ items => printsItems items
  | .dict entries => printsEntries entries

def printsItems : List Value → Bool
  | [] => true
  | v :: rest => v.prints && printsItems rest

def printsEntries : List (Scalar × Value) → Bool
  | [] => true
  | (k, v) :: rest => k.prints && v.prints && printsEntries rest

end

/-- `isinstance(v, int)`; a bool is an int. -/
def isInt : Value → Bool
  | .bool _ => true
  | .int _ => true
  | _ => false

end Value

namespace Dict

/-- `d.get(key)` for a string key. -/
def get? (d : Dict) (key : String) : Option Value := List.lookup (.str key) d

/-- `d.get(key, default)`. -/
def getD (d : Dict) (key : String) (default : Value) : Value := (d.get? key).getD default

/-- `key in d`. -/
def has (d : Dict) (key : String) : Bool := (d.get? key).isSome

end Dict

/-- Text matching on the characters, as `str.startswith`, `str.endswith` and
`needle in text` do it. -/
def startsWith (s pre : String) : Bool := pre.toList.isPrefixOf s.toList

def endsWith (s suf : String) : Bool := suf.toList.isSuffixOf s.toList

def hasSubstring (s needle : String) : Bool := decide (needle.toList <:+: s.toList)

end McpZero.Python
