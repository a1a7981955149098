/-
# Calculator.Proofs.Json.Strings -- a string that was written is read again

A string may hold any characters.  In a JSON text each of them is an escape or itself, and
the reader turns what one character was written as into that character, whatever stands
behind it (`readPieces_escapeChar`).  So a string is read back whole, and the reader stops
behind its closing quote.

A half of a surrogate pair is no character.  It is written as an escape too, but two halves
in a row would be read as one character; what is said here is about texts.
-/
import Calculator.Json.Reading
import Calculator.Json.Value

namespace Calculator.Json

set_option autoImplicit false

/-- Characters only: the pieces of a text. -/
def IsText (ps : List Piece) : Prop := ∃ cs : List Char, ps = cs.map .char

theorem isText_pieces (text : String) : IsText (pieces text) := ⟨text.toList, rfl⟩

/-! ## Escapes by a code -/

theorem hexValue?_hexDigit (n : Nat) : hexValue? (hexDigit n) = some (n % 16) := by
  have each : ∀ digit < 16, hexValue? (Nat.digitChar digit) = some digit := by decide
  exact each (n % 16) (Nat.mod_lt n (by decide))

/-- Four digits are enough for the codes that are written. -/
theorem code?_hexDigit {n : Nat} (small : n < 0x10000) :
    code? (hexDigit (n / 4096)) (hexDigit (n / 256)) (hexDigit (n / 16)) (hexDigit n) = some n := by
  have digits : ((n / 4096 % 16 * 16 + n / 256 % 16) * 16 + n / 16 % 16) * 16 + n % 16 = n := by
    omega
  simp [code?, hexValue?_hexDigit, digits]

/-- A control character is no half of a surrogate pair. -/
theorem pieceOfCode_control {c : Char} (control : c.toNat < 0x20) :
    pieceOfCode c.toNat = .char c := by
  have apart : (isLeading c.toNat || isTrailing c.toNat) = false := by
    simp only [isLeading, isTrailing, Bool.or_eq_false_iff, Bool.and_eq_false_iff,
      decide_eq_false_iff_not]
    omega
  simp [pieceOfCode, apart, Char.ofNat_toNat]

/-! ## Characters -/

/-- A character in front of what was read behind it. -/
def withChar (c : Char) (read : List Piece × List Char) : List Piece × List Char :=
  (.char c :: read.1, read.2)

/-- An escape of one letter.  The letter `u` has no short meaning. -/
theorem readPieces_shortEscape {letter c : Char} (known : shortEscape? letter = some c)
    (rest : List Char) :
    readPieces ('\\' :: letter :: rest) = (readPieces rest).map (withChar c) := by
  have short : letter ≠ 'u' := by
    rintro rfl
    cases known
  have opened : readPieces ('\\' :: letter :: rest) =
      (readPieces rest).bind fun read => some (.char c :: read.1, read.2) := by
    rw [readPieces]
    · rw [known]
      rfl
    · intro a b c d rest isCode
      exact absurd isCode short
  rw [opened]
  cases readPieces rest <;> rfl

/-- An escape by the code of a control character. -/
theorem readPieces_codeEscape {c : Char} (control : c.toNat < 0x20) (rest : List Char) :
    readPieces (codeEscape c.toNat ++ rest) = (readPieces rest).map (withChar c) := by
  have code := code?_hexDigit (n := c.toNat) (by omega)
  have opened : readPieces (codeEscape c.toNat ++ rest) =
      (readPieces rest).bind fun read =>
        some (joinPiece (pieceOfCode c.toNat) read.1, read.2) := by
    simp only [codeEscape, List.cons_append, List.nil_append, readPieces, code]
    rfl
  rw [opened, pieceOfCode_control control]
  cases readPieces rest <;> rfl

/-- A character that is not escaped. -/
theorem readPieces_visible {c : Char} (quote : c ≠ '"') (backslash : c ≠ '\\')
    (visible : 0x20 ≤ c.toNat) (rest : List Char) :
    readPieces (c :: rest) = (readPieces rest).map (withChar c) := by
  have plain : ¬ (c = '\\' ∨ c.toNat < 0x20) := by
    rintro (escape | control)
    · exact backslash escape
    · omega
  have opened : readPieces (c :: rest) =
      (readPieces rest).bind fun read => some (.char c :: read.1, read.2) := by
    rw [readPieces]
    · rw [if_neg plain]
      rfl
    all_goals simp [quote, backslash]
  rw [opened]
  cases readPieces rest <;> rfl

/-- What a character was written as is read as that character, whatever follows. -/
theorem readPieces_escapeChar (c : Char) (rest : List Char) :
    readPieces (escapeChar c ++ rest) = (readPieces rest).map (withChar c) := by
  unfold escapeChar
  split
  case h_8 quote backslash _ _ _ _ _ =>
    split
    · rename_i control
      exact readPieces_codeEscape control rest
    · rename_i visible
      exact readPieces_visible quote backslash (by omega) rest
  all_goals exact readPieces_shortEscape rfl rest

/-- **A string that was written is read again**, up to its closing quote. -/
theorem readPieces_written {ps : List Piece} (text : IsText ps) (rest : List Char) :
    readPieces (ps.flatMap Piece.written ++ '"' :: rest) = some (ps, rest) := by
  obtain ⟨cs, rfl⟩ := text
  induction cs with
  | nil => rfl
  | cons c cs ih =>
      rw [List.map_cons, List.flatMap_cons, Piece.written, List.append_assoc,
        readPieces_escapeChar, ih]
      rfl

end Calculator.Json
