/-
# Calculator.Proofs.Json.Controls -- the control characters of a JSON text

A string may hold any character.  In a JSON text the control characters below the blank are
written as escapes, so that none of them stands in the text, but for the line feeds of its
layout.  A terminal is safe from a listing of the history in JSON, whatever its entries hold.

* `printable_quoted`: strings;
* `History.printable_toJson`: the entries of a history.
-/
import Mathlib.Data.List.Basic
import Calculator.Encoding

namespace Calculator

set_option autoImplicit false

namespace Json

/-- No control characters below the blank but line feeds. -/
def Printable (cs : List Char) : Prop := ∀ c ∈ cs, 0x20 ≤ c.toNat ∨ c = '\n'

@[simp]
theorem printable_nil : Printable [] := List.forall_mem_nil _

@[simp]
theorem printable_cons {c : Char} {cs : List Char} :
    Printable (c :: cs) ↔ (0x20 ≤ c.toNat ∨ c = '\n') ∧ Printable cs :=
  List.forall_mem_cons

@[simp]
theorem printable_append {front back : List Char} :
    Printable (front ++ back) ↔ Printable front ∧ Printable back :=
  List.forall_mem_append

/-! ## Strings -/

theorem le_toNat_hexDigit (n : Nat) : 0x20 ≤ (hexDigit n).toNat := by
  have each : ∀ digit < 16, 0x20 ≤ (Nat.digitChar digit).toNat := by decide
  exact each (n % 16) (Nat.mod_lt n (by decide))

theorem printable_codeEscape (code : Nat) : Printable (codeEscape code) := by
  simp [codeEscape, le_toNat_hexDigit]

theorem printable_escapeChar (c : Char) : Printable (escapeChar c) := by
  unfold escapeChar
  -- on the characters with an escape of their own
  split
  case h_8 =>
    split
    · exact printable_codeEscape c.toNat
    · rename_i visible
      simp only [printable_cons, printable_nil, and_true]
      omega
  all_goals simp

/-- Whatever a string holds, its text holds no control character. -/
theorem printable_quoted (ps : List Piece) : Printable (quoted ps) := by
  have pieces : Printable (ps.flatMap Piece.written) := by
    intro c member
    obtain ⟨piece, -, inPiece⟩ := List.mem_flatMap.mp member
    cases piece with
    | char d => exact printable_escapeChar d c inPiece
    | surrogate code => exact printable_codeEscape code c inPiece
  simp [quoted, pieces]

/-! ## Layouts -/

theorem printable_lineBreak (layout : Layout) : Printable layout.lineBreak := by
  cases layout with
  | compact => exact printable_nil
  | pretty depth =>
      have blanks : Printable (List.replicate (2 * depth) ' ') := by
        intro c member
        rw [List.eq_of_mem_replicate member]
        exact .inl (by decide)
      simp [Layout.lineBreak, blanks]

theorem printable_colon (layout : Layout) : Printable layout.colon := by
  cases layout <;> simp [Layout.colon]

end Json

open Json

/-! ## Histories -/

theorem Entry.printable_toJson (entry : Entry) (layout : Layout) :
    Printable (entry.toJson.written layout) := by
  simp [Entry.toJson, Value.ofFields, Value.ofString, Value.written, writtenMembers,
    printable_quoted, printable_lineBreak, printable_colon]

theorem printable_writtenItems (entries : List Entry) (layout : Layout) :
    Printable (writtenItems layout (entries.map Entry.toJson)) := by
  induction entries with
  | nil => simp [writtenItems]
  | cons entry entries ih =>
      rw [List.map_cons]
      simp [writtenItems, ih, entry.printable_toJson, printable_lineBreak]

/-- **A listing in JSON has no control characters but line feeds**, whatever the texts of the
entries are. -/
theorem History.printable_toJson (history : History) (layout : Layout) :
    Printable (history.toJson.written layout) := by
  rw [History.toJson]
  cases history.entries with
  | nil => simp [Value.written]
  | cons entry entries =>
      rw [List.map_cons]
      simp [Value.written, entry.printable_toJson, printable_writtenItems, printable_lineBreak]

end Calculator
