import Mathlib.Data.List.Infix
import Mathlib.Tactic.Common

/-! Streams of lines, each of which ends with a terminator. -/
namespace McpZero.Lib.Lines

variable {α : Type} [DecidableEq α] (terminator : α)

omit [DecidableEq α] in
/-- What is written for the lines. -/
def stream (lines : List (List α)) : List α := lines.flatMap (· ++ [terminator])

/-- The lines of a stream that have been written to their ends. -/
def complete (text : List α) : List (List α) := (text.splitOn terminator).dropLast

omit [DecidableEq α] in
theorem stream_cons (line : List α) (lines : List (List α)) :
    stream terminator (line :: lines) = line ++ terminator :: stream terminator lines := by
  simp [stream]

theorem complete_of_notMem {text : List α} (h : terminator ∉ text) :
    complete terminator text = [] := by
  rw [complete, List.splitOn_eq_singleton h]
  rfl

theorem complete_append {line : List α} (h : terminator ∉ line) (rest : List α) :
    complete terminator (line ++ terminator :: rest) = line :: complete terminator rest := by
  rw [complete, List.splitOn_append_cons_self_of_not_mem h,
    List.dropLast_cons_of_ne_nil (List.splitOn_ne_nil terminator rest)]
  rfl

/-- Lines without the terminator are read back from their stream. -/
theorem complete_stream {lines : List (List α)} (h : ∀ line ∈ lines, terminator ∉ line) :
    complete terminator (stream terminator lines) = lines := by
  induction lines with
  | nil => exact complete_of_notMem terminator List.not_mem_nil
  | cons line lines ih =>
    have hline := h line List.mem_cons_self
    have hlines := ih fun l hl => h l (List.mem_cons_of_mem _ hl)
    rw [stream_cons, complete_append terminator hline, hlines]

/-- A stream that is cut off anywhere gives the first of its lines. -/
theorem complete_of_prefix {lines : List (List α)} (h : ∀ line ∈ lines, terminator ∉ line)
    {text : List α} (htext : text <+: stream terminator lines) :
    complete terminator text <+: lines := by
  induction lines generalizing text with
  | nil =>
    rw [List.prefix_nil.mp htext, complete_of_notMem terminator List.not_mem_nil]
  | cons line lines ih =>
    have hline := h line List.mem_cons_self
    rw [stream_cons] at htext
    by_cases hshort : text.length ≤ line.length
    · -- the cut is within the first line
      have hwithin : text <+: line :=
        List.prefix_of_prefix_length_le htext (List.prefix_append line _) hshort
      rw [complete_of_notMem terminator fun hmem => hline (hwithin.subset hmem)]
      exact List.nil_prefix
    · have hbegins : line <+: text :=
        List.prefix_of_prefix_length_le (List.prefix_append line _) htext (by omega)
      obtain ⟨tail, rfl⟩ := hbegins
      rw [List.prefix_append_right_inj] at htext
      cases tail with
      | nil => simp at hshort
      | cons a tail =>
        obtain ⟨rfl, htail⟩ := List.cons_prefix_cons.mp htext
        rw [complete_append a hline, List.cons_prefix_cons]
        exact ⟨rfl, ih (fun l hl => h l (List.mem_cons_of_mem _ hl)) htail⟩

end McpZero.Lib.Lines
