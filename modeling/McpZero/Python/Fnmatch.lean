import McpZero.Python.Value

/-! `fnmatch.fnmatchcase`. A pattern is translated piece by piece, as the library does it
before it builds a regular expression; a class is cut at its hyphens first. -/
namespace McpZero.Python

namespace Fnmatch

inductive Piece
  | star
  | any
  | never
  | one (c : Char)
  | oneOf (negated : Bool) (singles : List Char) (ranges : List (Char × Char))
  deriving DecidableEq

/-- The body of a class and what stands behind its bracket. A `]` in the first place, after a
`!` if there is one, belongs to the body. -/
def splitClass (cs : List Char) : Option (List Char × List Char) :=
  let start := if cs.head? = some '!' then 1 else 0
  let start := if (cs.drop start).head? = some ']' then start + 1 else start
  let inner := (cs.drop start).takeWhile (· != ']')
  if start + inner.length < cs.length then
    some (cs.take (start + inner.length), cs.drop (start + inner.length + 1))
  else none

/-- The chunks between the hyphens that may form a range. `wait` characters must still go by
before one can. -/
def cut (wait : ℕ) (chunk : List Char) : List Char → List (List Char)
  | [] => [chunk.reverse]
  | c :: cs =>
    if wait = 0 ∧ c = '-' then chunk.reverse :: cut 2 [] cs else cut (wait - 1) (c :: chunk) cs

/-- A hyphen at the end is a character of the last chunk. -/
def closeChunks : List (List Char) → List (List Char)
  | [chunk, []] => [chunk ++ ['-']]
  | chunk :: chunks => chunk :: closeChunks chunks
  | [] => []

/-- Empty ranges go, with both of their ends. -/
def dropEmptyRanges : List (List Char) → List (List Char)
  | [] => []
  | chunk :: chunks =>
    match dropEmptyRanges chunks with
    | [] => [chunk]
    | next :: rest =>
      match chunk.getLast?, next.head? with
      | some a, some b => if b < a then (chunk.dropLast ++ next.tail) :: rest else chunk :: next :: rest
      | _, _ => chunk :: next :: rest

/-- The ranges between neighbouring chunks. -/
def rangesOf : List (List Char) → List (Char × Char)
  | chunk :: next :: rest =>
    match chunk.getLast?, next.head? with
    | some a, some b => (a, b) :: rangesOf (next :: rest)
    | _, _ => rangesOf (next :: rest)
  | _ => []

def classOf (body : List Char) : Piece :=
  let wait := if body.head? = some '!' then 2 else 1
  match dropEmptyRanges (closeChunks (cut wait [] body)) with
  | [[]] => .never
  | [['!']] => .any
  -- nothing is left of the first chunk, so the hyphen after it is a character
  | ['!'] :: chunks => .oneOf true ('-' :: chunks.flatten) (rangesOf chunks)
  | ('!' :: chunk) :: chunks => .oneOf true (chunk ++ chunks.flatten) (rangesOf (chunk :: chunks))
  | chunks => .oneOf false chunks.flatten (rangesOf chunks)

/-- `translate`, with the number of pattern characters that are left as fuel. -/
def translate : ℕ → List Char → List Piece
  | 0, _ => []
  | _, [] => []
  | n + 1, c :: cs =>
    if c = '*' then .star :: translate n cs
    else if c = '?' then .any :: translate n cs
    else if c = '[' then
      match splitClass cs with
      | none => .one '[' :: translate n cs
      | some (body, rest) => classOf body :: translate n rest
    else .one c :: translate n cs

def Piece.matches : Piece → Char → Bool
  | .star, _ => false
  | .any, _ => true
  | .never, _ => false
  | .one c, d => c == d
  | .oneOf negated singles ranges, d =>
    (singles.contains d || ranges.any fun r => r.1 ≤ d && d ≤ r.2) != negated

def matchesAll : List Piece → List Char → Bool
  | [], cs => cs.isEmpty
  | .star :: pieces, cs => cs.tails.any (matchesAll pieces)
  | piece :: pieces, cs =>
    match cs with
    | [] => false
    | c :: cs => piece.matches c && matchesAll pieces cs

end Fnmatch

/-- `fnmatch.fnmatchcase(name, pattern)`. -/
def fnmatch (name pattern : String) : Bool :=
  Fnmatch.matchesAll (Fnmatch.translate pattern.length pattern.toList) name.toList

example : fnmatch "myorg/infra-eu" "myorg/infra-*" = true := by decide
example : fnmatch "a/b" "[!x-z]/[a-c]" = true := by decide

end McpZero.Python
