import McpZero.Python.Operators

/-! `json.dumps` and `json.loads`, with the defaults of the library. A lone surrogate, which no
character stands for here, is read as U+FFFD, and the texts of decoding errors are left out. -/
namespace McpZero.Python.Json
open Value (typeError longInt)

def decodeError : Exc := .other "JSONDecodeError" ""

def digitLimit (count : ℕ) : Exc :=
  .other "ValueError" ("Exceeds the limit (4300 digits) for integer string conversion: value has " ++
    toString count ++ " digits; use sys.set_int_max_str_digits() to increase the limit")

/-- The text of an integer. -/
def intText (n : ℤ) : Except Exc (List Char) :=
  let digits := Nat.toDigits 10 n.natAbs
  if 4300 < digits.length then .error longInt
  else .ok (if n < 0 then '-' :: digits else digits)

def floatText (x : Float) : List Char :=
  match x.value with
  | .finite _ => x.repr.toList
  | .inf false => "Infinity".toList
  | .inf true => "-Infinity".toList
  | .nan => "NaN".toList

def hexDigit (n : ℕ) : Char := (n % 16).digitChar

/-- `\uXXXX`. -/
def unicodeEscape (n : ℕ) : List Char :=
  ['\\', 'u', hexDigit (n / 4096), hexDigit (n / 256), hexDigit (n / 16), hexDigit n]

/-- One character of a string. What is not printable ASCII is escaped, beyond the basic plane as
a surrogate pair. -/
def escapeChar (c : Char) : List Char :=
  if c = '"' then ['\\', '"']
  else if c = '\\' then ['\\', '\\']
  else if c = '\n' then ['\\', 'n']
  else if c = '\r' then ['\\', 'r']
  else if c = '\t' then ['\\', 't']
  else if c.toNat = 12 then ['\\', 'f']
  else if c.toNat = 8 then ['\\', 'b']
  else if 32 ≤ c.toNat ∧ c.toNat ≤ 126 then [c]
  else if c.toNat < 0x10000 then unicodeEscape c.toNat
  else unicodeEscape (0xd800 + (c.toNat - 0x10000) / 1024) ++
    unicodeEscape (0xdc00 + (c.toNat - 0x10000) % 1024)

def stringText (s : String) : List Char := '"' :: s.toList.flatMap escapeChar ++ ['"']

/-- The text of a key. -/
def keyText : Scalar → Except Exc (List Char)
  | .str s => .ok (stringText s)
  | .float x => .ok ('"' :: floatText x ++ ['"'])
  | .bool b => .ok (stringText (if b then "true" else "false"))
  | .none => .ok (stringText "null")
  | .int n => do
    let digits ← intText n
    return '"' :: digits ++ ['"']
  | .bytes _ => .error (typeError "keys must be str, int, float, bool or None, not bytes")
  | .other t _ => .error (typeError ("keys must be str, int, float, bool or None, not " ++ t))

/-- What the encoder has no text for. -/
def notSerializable (typeName : String) : Exc :=
  typeError ("Object of type " ++ typeName ++ " is not JSON serializable")

mutual

/-- A tuple is written as a list. -/
def text : Value → Except Exc (List Char)
  | .none => .ok "null".toList
  | .bool b => .ok (if b then "true".toList else "false".toList)
  | .int n => intText n
  | .scalar (.float x) => .ok (floatText x)
  | .str s => .ok (stringText s)
  | .bytes _ => .error (notSerializable "bytes")
  | .scalar (.other t _) => .error (notSerializable t)
  | .list items => do
    let body ← textItems items
    return '[' :: body ++ [']']
  | .group .tuple items => do
    let body ← textItems items
    return '[' :: body ++ [']']
  | .group .set _ => .error (notSerializable "set")
  | .dict entries => do
    let body ← textEntries entries
    return '\x7b' :: body ++ ['\x7d']

def textItems : List Value → Except Exc (List Char)
  | [] => .ok []
  | [v] => text v
  | v :: w :: rest => do
    let first ← text v
    let others ← textItems (w :: rest)
    return first ++ ',' :: ' ' :: others

def textEntries : Dict → Except Exc (List Char)
  | [] => .ok []
  | [(k, v)] => do
    let key ← keyText k
    let value ← text v
    return key ++ ':' :: ' ' :: value
  | (k, v) :: e :: rest => do
    let key ← keyText k
    let value ← text v
    let others ← textEntries (e :: rest)
    return key ++ ':' :: ' ' :: (value ++ ',' :: ' ' :: others)

end

/-- `json.dumps(v)`. -/
def dumps (v : Value) : Except Exc String := (text v).map String.ofList

/-- `json.dumps` writes the value. -/
def Writable (v : Value) : Prop := ∃ cs, text v = .ok cs

/-- The bytes of a payload as JSON, which is ASCII; an empty payload has none. -/
def payloadSize (payload : Dict) : Except Exc ℕ :=
  if payload.isEmpty then .ok 0 else (text (.dict payload)).map List.length

mutual

/-- The value that `json.dumps(v, default=str)` writes. Keys are not converted. -/
def defaultStr : Value → Value
  | .scalar (.other _ t) => .str t
  | .bytes bs => .str (reprBytes bs)
  | .scalar a => .scalar a
  | .list items => .list (defaultStrItems items)
  | .group .tuple items => .list (defaultStrItems items)
  | .group .set items => .str (Value.repr (.group .set items))
  | .dict entries => .dict (defaultStrEntries entries)

def defaultStrItems : List Value → List Value
  | [] => []
  | v :: rest => defaultStr v :: defaultStrItems rest

def defaultStrEntries : Dict → Dict
  | [] => []
  | (k, v) :: rest => (k, defaultStr v) :: defaultStrEntries rest

end

/-- `[ \t\n\r]*`. -/
def skipSpace (cs : List Char) : List Char :=
  cs.dropWhile fun c => c == ' ' || c == '\t' || c == '\n' || c == '\r'

def hexValue (c : Char) : Option ℕ :=
  if c.isDigit then some (c.toNat - '0'.toNat)
  else if 'a' ≤ c ∧ c ≤ 'f' then some (c.toNat - 'a'.toNat + 10)
  else if 'A' ≤ c ∧ c ≤ 'F' then some (c.toNat - 'A'.toNat + 10)
  else none

/-- Four hexadecimal digits. -/
def hexQuad (a b c d : Char) : Option ℕ := do
  return 4096 * (← hexValue a) + 256 * (← hexValue b) + 16 * (← hexValue c) + (← hexValue d)

def unescape : Char → Option Char
  | '"' => some '"'
  | '\\' => some '\\'
  | '/' => some '/'
  | 'b' => some (Char.ofNat 8)
  | 'f' => some (Char.ofNat 12)
  | 'n' => some '\n'
  | 'r' => some '\r'
  | 't' => some '\t'
  | _ => none

def isHighSurrogate (n : ℕ) : Prop := 0xd800 ≤ n ∧ n ≤ 0xdbff

def isLowSurrogate (n : ℕ) : Prop := 0xdc00 ≤ n ∧ n ≤ 0xdfff

instance (n : ℕ) : Decidable (isHighSurrogate n) := inferInstanceAs (Decidable (_ ∧ _))

instance (n : ℕ) : Decidable (isLowSurrogate n) := inferInstanceAs (Decidable (_ ∧ _))

/-- The code points of a string up to its closing quote. -/
def scanString : List Char → Option (List ℕ × List Char)
  | [] => none
  | '"' :: rest => some ([], rest)
  | '\\' :: 'u' :: a :: b :: c :: d :: rest => do
    let n ← hexQuad a b c d
    let (ns, rest) ← scanString rest
    return (n :: ns, rest)
  | '\\' :: c :: rest => do
    let c ← unescape c
    let (ns, rest) ← scanString rest
    return (c.toNat :: ns, rest)
  | c :: rest =>
    if c = '\\' ∨ c.toNat < 32 then none
    else do
      let (ns, rest) ← scanString rest
      return (c.toNat :: ns, rest)

/-- The character of a code point. -/
def charOf (n : ℕ) : Char :=
  if isHighSurrogate n ∨ isLowSurrogate n then '\ufffd' else Char.ofNat n

/-- Surrogate pairs become one character. -/
def joinSurrogates : List ℕ → List Char
  | [] => []
  | [n] => [charOf n]
  | n :: m :: rest =>
    if isHighSurrogate n ∧ isLowSurrogate m then
      Char.ofNat (0x10000 + (n - 0xd800) * 1024 + (m - 0xdc00)) :: joinSurrogates rest
    else charOf n :: joinSurrogates (m :: rest)

/-- A string behind its opening quote. -/
def parseString (cs : List Char) : Except Exc (String × List Char) :=
  match scanString cs with
  | some (ns, rest) => .ok (String.ofList (joinSurrogates ns), rest)
  | none => .error decodeError

/-- What `float()` makes of a number literal, and the literal that is left to read. -/
structure NumberLiteral where
  literal : List Char
  isFloat : Bool
  rest : List Char
  deriving DecidableEq

/-- `\.\d+`, where it matches. -/
def scanFraction (cs : List Char) : List Char × List Char :=
  match cs with
  | '.' :: cs =>
    let digits := cs.takeWhile Char.isDigit
    if digits.isEmpty then ([], '.' :: cs) else ('.' :: digits, cs.drop digits.length)
  | cs => ([], cs)

/-- `[eE][-+]?\d+`, where it matches. -/
def scanExponent (cs : List Char) : List Char × List Char :=
  match cs with
  | e :: body =>
    let sign := body.takeWhile fun c => c == '+' || c == '-'
    let digits := (body.drop sign.length).takeWhile Char.isDigit
    if (e = 'e' ∨ e = 'E') ∧ sign.length ≤ 1 ∧ digits ≠ [] then
      (e :: (sign ++ digits), body.drop (sign.length + digits.length))
    else ([], e :: body)
  | [] => ([], [])

/-- `(-?(?:0|[1-9]\d*))(\.\d+)?([eE][-+]?\d+)?`. Digits behind a leading zero are an error here,
as no text goes on with a digit behind a number. -/
def scanNumber (cs : List Char) : Option NumberLiteral :=
  let sign := if cs.head? = some '-' then ['-'] else []
  let body := cs.drop sign.length
  let digits := body.takeWhile Char.isDigit
  if digits = [] ∨ digits.head? = some '0' ∧ 1 < digits.length then none
  else
    let (fraction, rest) := scanFraction (body.drop digits.length)
    let (exponent, rest) := scanExponent rest
    some ⟨sign ++ digits ++ fraction ++ exponent, !(fraction.isEmpty && exponent.isEmpty), rest⟩

/-- A number literal of the whole text, read as a float. -/
def IsFloatLiteral (cs : List Char) : Prop := scanNumber cs = some ⟨cs, true, []⟩

/-- A float that a JSON text can hold. -/
inductive JsonFloat (read : List Char → Float) : Float → Prop
  | finite {x : Float} {q : ℚ} : x.value = .finite q → IsFloatLiteral x.repr.toList →
      read x.repr.toList = x → JsonFloat read x
  | inf : JsonFloat read ⟨.inf false, "inf"⟩
  | negInf : JsonFloat read ⟨.inf true, "-inf"⟩
  | nan : JsonFloat read ⟨.nan, "nan"⟩

/-- `float()` on the number literals of a JSON text: what it returns is written as a literal that
it reads back. It is applied to nothing else. -/
structure FloatReader where
  read : List Char → Float
  jsonFloat (cs : List Char) : JsonFloat read (read cs)

/-- The integer of a literal without fraction and exponent. -/
def parseInt (literal : List Char) : Except Exc ℤ :=
  let negative := literal.head? = some '-'
  let digits := if negative then literal.tail else literal
  if 4300 < digits.length then .error (digitLimit digits.length)
  else .ok (if negative then -(Nat.ofDigitChars 10 digits 0) else Nat.ofDigitChars 10 digits 0)

/-- An entry put into a dictionary: it replaces the value of its key. -/
def insert (d : Dict) (k : Scalar) (v : Value) : Dict :=
  if d.any (·.1 == k) then d.map fun e => if e.1 == k then (k, v) else e else d ++ [(k, v)]

def ofPairs (pairs : List (String × Value)) : Dict :=
  pairs.foldl (fun (d : Dict) (p : String × Value) => insert d (.str p.1) p.2) []

variable (floats : FloatReader)

def parseNumber (cs : List Char) : Except Exc (Value × List Char) :=
  match scanNumber cs with
  | none => .error decodeError
  | some ⟨literal, isFloat, rest⟩ =>
    if isFloat then .ok (.scalar (.float (floats.read literal)), rest)
    else do
      let n ← parseInt literal
      return (.int n, rest)

mutual

/-- A value at the start of a text, with as many calls as the fuel allows. -/
def parseValue : ℕ → List Char → Except Exc (Value × List Char)
  | 0, _ => .error decodeError
  | fuel + 1, cs =>
    match cs with
    | '"' :: cs => do
      let (s, rest) ← parseString cs
      return (.str s, rest)
    | '[' :: cs =>
      match skipSpace cs with
      | ']' :: rest => .ok (.list [], rest)
      | cs => do
        let (items, rest) ← parseItems fuel cs
        return (.list items, rest)
    | '\x7b' :: cs =>
      match skipSpace cs with
      | '\x7d' :: rest => .ok (.dict [], rest)
      | cs => do
        let (pairs, rest) ← parseEntries fuel cs
        return (.dict (ofPairs pairs), rest)
    | 'n' :: 'u' :: 'l' :: 'l' :: rest => .ok (.none, rest)
    | 't' :: 'r' :: 'u' :: 'e' :: rest => .ok (.bool true, rest)
    | 'f' :: 'a' :: 'l' :: 's' :: 'e' :: rest => .ok (.bool false, rest)
    | 'N' :: 'a' :: 'N' :: rest => .ok (.scalar (.float ⟨.nan, "nan"⟩), rest)
    | 'I' :: 'n' :: 'f' :: 'i' :: 'n' :: 'i' :: 't' :: 'y' :: rest =>
      .ok (.scalar (.float ⟨.inf false, "inf"⟩), rest)
    | '-' :: 'I' :: 'n' :: 'f' :: 'i' :: 'n' :: 'i' :: 't' :: 'y' :: rest =>
      .ok (.scalar (.float ⟨.inf true, "-inf"⟩), rest)
    | cs => parseNumber floats cs

/-- The items of a list that is not empty, with its closing bracket. -/
def parseItems : ℕ → List Char → Except Exc (List Value × List Char)
  | 0, _ => .error decodeError
  | fuel + 1, cs => do
    let (v, rest) ← parseValue fuel cs
    match skipSpace rest with
    | ']' :: rest => return ([v], rest)
    | ',' :: rest => do
      let (vs, rest) ← parseItems fuel (skipSpace rest)
      return (v :: vs, rest)
    | _ => .error decodeError

/-- The entries of an object that is not empty, with its closing brace. -/
def parseEntries : ℕ → List Char → Except Exc (List (String × Value) × List Char)
  | 0, _ => .error decodeError
  | fuel + 1, cs => do
    match cs with
    | '"' :: cs =>
      let (k, rest) ← parseString cs
      match skipSpace rest with
      | ':' :: rest =>
        let (v, rest) ← parseValue fuel (skipSpace rest)
        match skipSpace rest with
        | '\x7d' :: rest => return ([(k, v)], rest)
        | ',' :: rest => do
          let (pairs, rest) ← parseEntries fuel (skipSpace rest)
          return ((k, v) :: pairs, rest)
        | _ => .error decodeError
      | _ => .error decodeError
    | _ => .error decodeError

end

/-- `json.loads(s)` on a string. -/
def loadsStr (s : String) : Except Exc Value :=
  if s.toList.head? = some '\ufeff' then .error decodeError
  else do
    let (v, rest) ← parseValue floats (2 * s.length) (skipSpace s.toList)
    if skipSpace rest = [] then return v else .error decodeError

/-- The text of bytes. JSON in another encoding than UTF-8 is left out. -/
def decodeUtf8 (bs : List UInt8) : Except Exc String :=
  match String.fromUTF8? ⟨bs.toArray⟩ with
  | some s => .ok s
  | none => .error (.other "UnicodeDecodeError" "")

/-- `json.loads(v)`. -/
def loads : Value → Except Exc Value
  | .str s => loadsStr floats s
  | .bytes bs => do
    let s ← decodeUtf8 bs
    loadsStr floats s
  | v => .error (typeError ("the JSON object must be str, bytes or bytearray, not " ++ v.typeName))

end McpZero.Python.Json
