/-
# Calculator.Proofs.Text.Deletion -- taking lines out of an input

An input is cut behind each line feed into pieces, one for each of its lines (`pieces`).
Unlike a line, a piece keeps its end, so that the pieces are the whole input
(`flatten_pieces`).  Some of the pieces, in order, are again an input that is cut that way
(`Cut.sublist`); its lines are the lines of those pieces.

* `cutLines_flatten`: the lines of pieces are their contents, one by one;
* `byteLines_withoutLine`, `byteLines_firstLines`: the lines of an input from which one line
  is deleted, and of the part in front of a line.
-/
import Mathlib.Data.List.InsertIdx
import Calculator.Proofs.Text.Lines

namespace Calculator.Text

set_option autoImplicit false

section Pieces

variable {α : Type}

/-! ## Pieces -/

/-- Pieces are ended by their only line feed, but for the last, which may have none. -/
inductive Cut (lineFeed : α) : List (List α) → Prop where
  | nil : Cut lineFeed []
  | unended {piece : List α} (nonempty : piece ≠ []) (absent : lineFeed ∉ piece) :
      Cut lineFeed [piece]
  | ended {front : List α} {rest : List (List α)} (absent : lineFeed ∉ front)
      (cut : Cut lineFeed rest) : Cut lineFeed ((front ++ [lineFeed]) :: rest)

/-- Where pieces are left out, the others are still ended but for the last. -/
theorem Cut.sublist {lineFeed : α} {kept all : List (List α)} (cut : Cut lineFeed all)
    (sublist : kept.Sublist all) : Cut lineFeed kept := by
  induction cut generalizing kept with
  | nil =>
      rw [List.sublist_nil.mp sublist]
      exact .nil
  | @unended piece nonempty absent =>
      rcases List.sublist_singleton.mp sublist with rfl | rfl
      · exact .nil
      · exact .unended nonempty absent
  | @ended front rest absent cut ih =>
      rcases List.sublist_cons_iff.mp sublist with later | ⟨behind, rfl, later⟩
      · exact ih later
      · exact .ended absent (ih later)

variable [DecidableEq α]

/-- A sequence, cut behind each line feed. -/
def pieces (lineFeed : α) : List α → List (List α)
  | [] => []
  | x :: xs =>
      if x = lineFeed then [x] :: pieces lineFeed xs
      else
        match pieces lineFeed xs with
        | [] => [[x]]
        | piece :: rest => (x :: piece) :: rest

/-- Nothing is lost by cutting. -/
theorem flatten_pieces (lineFeed : α) (xs : List α) : (pieces lineFeed xs).flatten = xs := by
  induction xs with
  | nil => rfl
  | cons x xs ih =>
      rw [pieces]
      split
      · simp [ih]
      · split
        · rename_i nothing
          rw [nothing] at ih
          simp [← ih]
        · rename_i piece rest whole
          rw [whole] at ih
          simp [← ih]

theorem cut_pieces (lineFeed : α) (xs : List α) : Cut lineFeed (pieces lineFeed xs) := by
  induction xs with
  | nil => exact .nil
  | cons x xs ih =>
      rw [pieces]
      split
      · rename_i feed
        subst feed
        have none : x ∉ ([] : List α) := List.not_mem_nil
        exact .ended none ih
      · rename_i other
        have apart : lineFeed ≠ x := fun same => other same.symm
        -- `x` goes to the first piece behind it, whether that is ended or not
        split
        · apply Cut.unended
          · simp
          · simpa using apart
        · rename_i piece rest whole
          rw [whole] at ih
          cases ih with
          | unended nonempty absent =>
              apply Cut.unended
              · simp
              · simp [apart, absent]
          | @ended front _ absent cut =>
              have longer : lineFeed ∉ x :: front := by simp [apart, absent]
              exact .ended longer cut

/-! ## The lines of pieces -/

variable (carriageReturn lineFeed : α)

/-- The line of a piece: without its end. -/
def lineOf (piece : List α) : List α :=
  if piece.getLast? = some lineFeed then dropReturn carriageReturn piece.dropLast else piece

theorem cutLines_unended {piece : List α} (nonempty : piece ≠ []) (absent : lineFeed ∉ piece) :
    cutLines carriageReturn lineFeed piece = [piece] := by
  have alone : piece.splitOn lineFeed = [piece] := by
    have split := splitOn_append absent []
    simpa using split
  simp [cutLines, alone, nonempty]

theorem cutLines_ended {front : List α} (absent : lineFeed ∉ front) (rest : List α) :
    cutLines carriageReturn lineFeed (front ++ [lineFeed] ++ rest) =
      dropReturn carriageReturn front :: cutLines carriageReturn lineFeed rest := by
  have split : (front ++ [lineFeed] ++ rest).splitOn lineFeed = front :: rest.splitOn lineFeed := by
    rw [List.append_assoc, splitOn_append absent, List.singleton_append,
      List.splitOn_cons_eq_if_modifyHead, if_pos (by simp)]
    simp
  have present : rest.splitOn lineFeed ≠ [] := List.splitOn_ne_nil lineFeed rest
  simp only [cutLines, split, List.dropLast_cons_of_ne_nil present, List.map_cons,
    List.cons_append, List.getLast?_cons_of_ne_nil present]

theorem cutLines_flatten {all : List (List α)} (cut : Cut lineFeed all) :
    cutLines carriageReturn lineFeed all.flatten = all.map (lineOf carriageReturn lineFeed) := by
  induction cut with
  | nil => simp [cutLines]
  | @unended piece nonempty absent =>
      have noEnd : piece.getLast? ≠ some lineFeed := fun last => absent (List.mem_of_getLast? last)
      simp [cutLines_unended carriageReturn lineFeed nonempty absent, lineOf, noEnd]
  | @ended front rest absent cut ih =>
      rw [List.flatten_cons, cutLines_ended carriageReturn lineFeed absent, ih, List.map_cons]
      simp [lineOf]

end Pieces

/-! ## Inputs -/

/-- The input without its line at an index, the end of the line included. -/
def withoutLine (index : Nat) (bytes : Bytes) : Bytes :=
  ((pieces lineFeed bytes).eraseIdx index).flatten

/-- The lines of the input in front of an index, with their ends. -/
def firstLines (index : Nat) (bytes : Bytes) : Bytes :=
  ((pieces lineFeed bytes).take index).flatten

section Input

variable (index : Nat) (bytes : Bytes)

theorem byteLines_eq :
    byteLines bytes = (pieces lineFeed bytes).map (lineOf carriageReturn lineFeed) := by
  have lines := cutLines_flatten carriageReturn lineFeed (cut_pieces lineFeed bytes)
  rwa [flatten_pieces] at lines

/-- **Deleting a line deletes that line and no other.** -/
theorem byteLines_withoutLine :
    byteLines (withoutLine index bytes) = (byteLines bytes).eraseIdx index := by
  have cut := (cut_pieces lineFeed bytes).sublist (List.eraseIdx_sublist _ index)
  rw [byteLines, withoutLine, cutLines_flatten _ _ cut, byteLines_eq, List.eraseIdx_map]

theorem byteLines_firstLines :
    byteLines (firstLines index bytes) = (byteLines bytes).take index := by
  have cut := (cut_pieces lineFeed bytes).sublist (List.take_sublist index _)
  rw [byteLines, firstLines, cutLines_flatten _ _ cut, byteLines_eq, List.map_take]

end Input

end Calculator.Text
