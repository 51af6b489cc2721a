import McpZero.Python.Operators
import McpZero.Python.Unicode

/-! `int(v)` and `float(v)` on untyped values. -/
namespace McpZero.Python

/-- A digit or a space outside ASCII is read as its ASCII counterpart, and any other character
there as one that no literal has. -/
def toAscii (c : Char) : Char :=
  if c.toNat < 128 then c
  else if isWhitespace c then ' '
  else match decimal? c with
    | some d => Char.ofNat ('0'.toNat + d)
    | none => '?'

/-- `Py_ISSPACE`. -/
def isSpace (c : Char) : Bool := c == ' ' || (9 ≤ c.toNat && c.toNat ≤ 13)

def strip (cs : List Char) : List Char :=
  ((cs.dropWhile isSpace).reverse.dropWhile isSpace).reverse

/-- The characters of bytes, for the literals, which are ASCII. -/
def bytesChars (bs : List UInt8) : List Char := bs.map fun b => Char.ofNat b.toNat

/-- Digits with single underscores between them. The flag says that a digit stands before. -/
def digits (after : Bool) : List Char → Option (List ℕ)
  | [] => if after then some [] else none
  | c :: rest =>
    if c.isDigit then (digits true rest).map ((c.toNat - '0'.toNat) :: ·)
    else if after && c == '_' then digits false rest
    else none

def splitSign : List Char → Bool × List Char
  | '-' :: cs => (true, cs)
  | '+' :: cs => (false, cs)
  | cs => (false, cs)

namespace Value

def valueError (message : String) : Exc := .other "ValueError" message

/-- The integer of a literal, whose `repr` the error shows. -/
def intOfLiteral (literal : List Char) (repr : String) : Except Exc ℤ :=
  let (negative, body) := splitSign (strip literal)
  match digits false body with
  | Option.none =>
    .error (valueError ("invalid literal for int() with base 10: " ++ repr))
  | some ds =>
    if 4300 < ds.length then
      .error (valueError ("Exceeds the limit (4300 digits) for integer string conversion: " ++
        "value has " ++ toString ds.length ++
        " digits; use sys.set_int_max_str_digits() to increase the limit"))
    else
      let n : ℤ := ds.foldl (fun (n : ℤ) (d : ℕ) => 10 * n + d) 0
      .ok (if negative then -n else n)

/-- `int(v)`. -/
def toInt : Value → Except Exc ℤ
  | .int n => .ok n
  | .bool b => .ok (if b then 1 else 0)
  | .scalar (.float x) =>
    match x.value with
    | .finite q => .ok (q.num.tdiv q.den)
    | .inf _ => .error (.other "OverflowError" "cannot convert float infinity to integer")
    | .nan => .error (valueError "cannot convert float NaN to integer")
  | .str s => intOfLiteral (s.toList.map toAscii) (reprString s)
  | .bytes bs => intOfLiteral (bytesChars bs) (reprBytes bs)
  | v => .error (typeError ("int() argument must be a string, a bytes-like object or a real " ++
      "number, not '" ++ v.typeName ++ "'"))

/-- The exponent and what stands before it. -/
private def splitExponent (cs : List Char) : List Char × Option (List Char) :=
  let mantissa := cs.takeWhile fun c => c != 'e' && c != 'E'
  match cs.drop mantissa.length with
  | [] => (mantissa, Option.none)
  | _ :: exponent => (mantissa, some exponent)

private def isMantissa (cs : List Char) : Bool :=
  let whole := cs.takeWhile (· != '.')
  match cs.drop whole.length with
  | [] => (digits false whole).isSome
  | _ :: fraction =>
    (whole.isEmpty && (digits false fraction).isSome) ||
      (fraction.isEmpty && (digits false whole).isSome) ||
      ((digits false whole).isSome && (digits false fraction).isSome)

private def isFloatLiteral (literal : List Char) : Bool :=
  let body := (splitSign (strip literal)).2
  let (mantissa, exponent) := splitExponent body
  ["inf", "infinity", "nan"].any (·.toList == body.map Char.toLower) ||
    (isMantissa mantissa && exponent.all fun e => (digits false (splitSign e).2).isSome)

/-- Whether `float(v)` returns. No modelled function reads the number. An integer overflows
from the midpoint above the largest double on. -/
def checkFloat : Value → Except Exc Unit
  | .int n =>
    if n.natAbs < 2 ^ 1024 - 2 ^ 970 then .ok ()
    else .error (.other "OverflowError" "int too large to convert to float")
  | .bool _ => .ok ()
  | .scalar (.float _) => .ok ()
  | .str s =>
    if isFloatLiteral (s.toList.map toAscii) then .ok ()
    else .error (valueError ("could not convert string to float: " ++ reprString s))
  | .bytes bs =>
    if isFloatLiteral (bytesChars bs) then .ok ()
    else .error (valueError ("could not convert string to float: " ++ reprBytes bs))
  | v => .error (typeError ("float() argument must be a string or a real number, not '" ++
      v.typeName ++ "'"))

example : toInt (.str " -1_0\u00a0") matches .ok (-10) := by decide
example : toInt (.str "\u0661\u0662") matches .ok 12 := by decide
example : checkFloat (.str "1.5e-3") matches .ok _ := by decide

end Value

end McpZero.Python
