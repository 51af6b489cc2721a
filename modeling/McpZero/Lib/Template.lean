import Mathlib.Data.List.Chain
import Mathlib.Tactic.Common

/-! Texts with references in them. A reference is a name between two opening marks and a closing
one. -/
namespace McpZero.Lib

/-- The marks of a reference. -/
structure Marks (α : Type) where
  first : α
  second : α
  close : α
  ne : first ≠ second

/-- A part of a template: a single item, or a reference. -/
inductive Piece (α : Type)
  | item (a : α)
  | ref (name : List α)
  deriving DecidableEq

/-- Where the scan stands. The name of an open reference has been read up to here. -/
inductive ScanState (α : Type)
  | outside
  | opening
  | inside (name : List α)

namespace Template

variable {α : Type} [DecidableEq α] (m : Marks α)

/-- The references of a text, found from the left. A name is not empty and ends at the first
closing mark. -/
def scan : ScanState α → List α → List (Piece α)
  | .outside, [] => []
  | .opening, [] => [.item m.first]
  | .inside name, [] => .item m.first :: .item m.second :: name.map .item
  | .outside, a :: rest =>
    if a = m.first then scan .opening rest else .item a :: scan .outside rest
  | .opening, a :: rest =>
    if a = m.second then scan (.inside []) rest
    else if a = m.first then .item m.first :: scan .opening rest
    else .item m.first :: .item a :: scan .outside rest
  | .inside name, a :: rest =>
    if a ≠ m.close then scan (.inside (name ++ [a])) rest
    else if name = [] then .item m.first :: .item m.second :: .item a :: scan .outside rest
    else .ref name :: scan .outside rest

def pieces (text : List α) : List (Piece α) := scan m .outside text

omit [DecidableEq α] in
/-- The text of a piece. -/
def writePiece : Piece α → List α
  | .item a => [a]
  | .ref name => m.first :: m.second :: name ++ [m.close]

/-- The text of a template. -/
def write (ps : List (Piece α)) : List α := ps.flatMap (writePiece m)

/-- What has been read and not yet put into a piece. -/
def held : ScanState α → List α
  | .outside => []
  | .opening => [m.first]
  | .inside name => m.first :: m.second :: name

omit [DecidableEq α] in
@[simp] theorem write_cons (p : Piece α) (ps : List (Piece α)) :
    write m (p :: ps) = writePiece m p ++ write m ps := rfl

omit [DecidableEq α] in
theorem write_items (as : List α) : write m (as.map .item) = as := by
  induction as with
  | nil => rfl
  | cons a as ih => rw [List.map_cons, write_cons, ih, writePiece, List.singleton_append]

theorem write_scan (st : ScanState α) (text : List α) :
    write m (scan m st text) = held m st ++ text := by
  induction text generalizing st with
  | nil =>
    cases st with
    | outside => rfl
    | opening => rfl
    | inside name => simp [scan, held, writePiece, write_items]
  | cons a rest ih =>
    cases st with
    | outside =>
      unfold scan
      split_ifs with ha
      · rw [ih, ha]
        rfl
      · rw [write_cons, ih]
        rfl
    | opening =>
      unfold scan
      split_ifs with hsecond hfirst
      · rw [ih, hsecond]
        rfl
      · rw [write_cons, ih, hfirst]
        rfl
      · rw [write_cons, write_cons, ih]
        rfl
    | inside name =>
      unfold scan
      split_ifs with hclose hname
      · rw [ih]
        simp [held]
      · rw [write_cons, write_cons, write_cons, ih, hname]
        rfl
      · have hmark : a = m.close := not_not.mp hclose
        rw [write_cons, ih, hmark]
        simp [held, writePiece]

/-- The pieces of a text are the whole text. -/
theorem write_pieces (text : List α) : write m (pieces m text) = text :=
  write_scan m .outside text

/-- The name of a reference can be written. -/
def Piece.WellNamed (m : Marks α) : Piece α → Prop
  | .item _ => True
  | .ref name => name ≠ [] ∧ m.close ∉ name

/-- The two items do not look like the beginning of a reference. -/
def Apart (p q : Piece α) : Prop := ¬ (p = .item m.first ∧ q = .item m.second)

/-- A template that is not read in another way: no two items of it open a reference. -/
structure Plain (ps : List (Piece α)) : Prop where
  named : ∀ p ∈ ps, Piece.WellNamed m p
  apart : ps.IsChain (Apart m)

omit [DecidableEq α] in
theorem Plain.tail {p : Piece α} {ps : List (Piece α)} (h : Plain m (p :: ps)) : Plain m ps where
  named q hq := h.named q (List.mem_cons_of_mem p hq)
  apart := h.apart.tail

theorem scan_name {name : List α} (before rest : List α) (hclose : m.close ∉ name)
    (hne : before ++ name ≠ []) :
    scan m (.inside before) (name ++ m.close :: rest) =
      .ref (before ++ name) :: scan m .outside rest := by
  induction name generalizing before with
  | nil =>
    rw [List.append_nil] at hne
    simp [scan, hne]
  | cons a name ih =>
    have ha : a ≠ m.close := fun h => hclose (h ▸ List.mem_cons_self)
    have hrest : m.close ∉ name := fun h => hclose (List.mem_cons_of_mem a h)
    have happend : before ++ [a] ++ name = before ++ a :: name := by simp
    rw [List.cons_append, scan, if_pos ha, ih (before ++ [a]) hrest (by simp), happend]

theorem scan_ref {name : List α} (rest : List α) (hne : name ≠ []) (hclose : m.close ∉ name) :
    scan m .outside (writePiece m (.ref name) ++ rest) = .ref name :: scan m .outside rest := by
  have hname := scan_name m [] rest hclose (by simpa using hne)
  simpa [writePiece, scan] using hname

/-- A plain template is read back as it was written. -/
theorem pieces_write {ps : List (Piece α)} (h : Plain m ps) : pieces m (write m ps) = ps := by
  suffices hboth : scan m .outside (write m ps) = ps ∧
      (ps.head? ≠ some (.item m.second) →
        scan m .opening (write m ps) = .item m.first :: ps) from hboth.1
  induction ps with
  | nil => exact ⟨rfl, fun _ => rfl⟩
  | cons p ps ih =>
    obtain ⟨houtside, hopening⟩ := ih (h.tail m)
    cases p with
    | ref name =>
      obtain ⟨hne, hclose⟩ := h.named _ List.mem_cons_self
      have href : scan m .outside (write m (.ref name :: ps)) = .ref name :: ps := by
        rw [write_cons, scan_ref m _ hne hclose, houtside]
      refine ⟨href, fun _ => ?_⟩
      -- a first mark before the reference is an item of its own
      have hsame : scan m .opening (write m (.ref name :: ps)) =
          .item m.first :: scan m .outside (write m (.ref name :: ps)) := by
        simp [writePiece, scan, m.ne]
      rw [hsame, href]
    | item a =>
      have hwrite : write m (.item a :: ps) = a :: write m ps := rfl
      have hfollows : a = m.first → ps.head? ≠ some (.item m.second) := by
        intro ha hhead
        obtain ⟨rest, rfl⟩ : ∃ rest, ps = .item m.second :: rest := by
          cases ps with
          | nil => cases hhead
          | cons q rest => exact ⟨rest, by rw [Option.some.inj hhead]⟩
        exact (List.isChain_cons_cons.mp h.apart).1 ⟨by rw [ha], rfl⟩
      constructor
      · rw [hwrite, scan]
        split_ifs with ha
        · rw [hopening (hfollows ha), ha]
        · rw [houtside]
      · intro hsecond
        have hne : a ≠ m.second := fun ha => hsecond (by rw [ha]; rfl)
        rw [hwrite, scan, if_neg hne]
        split_ifs with ha
        · rw [hopening (hfollows ha), ha]
        · rw [houtside]

variable (value : List α → Option (List α))

omit [DecidableEq α] in
/-- The names without a value, in the order of their references. -/
def missing (ps : List (Piece α)) : List (List α) :=
  ps.filterMap fun
    | .item _ => none
    | .ref name => if (value name).isNone then some name else none

/-- The text with every reference replaced by its value, or by nothing. A value is not read
again. -/
def fill (ps : List (Piece α)) : List α :=
  ps.flatMap fun
    | .item a => [a]
    | .ref name => (value name).getD []

omit [DecidableEq α] in
/-- Nothing is missing where every reference has a value. -/
theorem missing_eq_nil_iff {ps : List (Piece α)} :
    missing value ps = [] ↔ ∀ name, .ref name ∈ ps → value name ≠ none := by
  unfold missing
  rw [List.filterMap_eq_nil_iff]
  constructor
  · intro h name hname hvalue
    have := h (.ref name) hname
    simp [hvalue] at this
  · intro h p hp
    cases p with
    | item a => rfl
    | ref name => simp [h name hp]

omit [DecidableEq α] in
/-- A text without references is its own filling. -/
theorem fill_of_no_ref {ps : List (Piece α)} (h : ∀ name, .ref name ∉ ps) :
    fill value ps = write m ps := by
  refine List.flatMap_congr fun p hp => ?_
  cases p with
  | item a => rfl
  | ref name => exact absurd hp (h name)

end Template

end McpZero.Lib
