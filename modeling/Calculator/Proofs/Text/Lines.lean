/-
# Calculator.Proofs.Text.Lines -- cutting bytes and cutting characters

The lines of an input are cut from its bytes, those of a text from its characters.  In
UTF-8 this is no difference: a byte below 128 is the whole encoding of one character and
part of no other (`eq_of_mem_utf8EncodeChar`), so that the line ends stand in the bytes
exactly where they stand in the text (`Marks`).

* `cutLines_flatMap`: cutting what was encoded character by character;
* `byteLines_encode`: the lines of a text's bytes are the bytes of its lines;
* `decode?_encode`: and each of them is a text again.
-/
import Mathlib.Data.List.Basic
import Calculator.Text

namespace Calculator.Text

set_option autoImplicit false

/-! ## Cutting what was encoded -/

/-- An encoding writes one symbol as a single code, which it uses nowhere else. -/
structure Marks {α β : Type} (encoding : α → List β) (symbol : α) (code : β) : Prop where
  own : encoding symbol = [code]
  only : ∀ other, code ∈ encoding other → other = symbol

section Encoding

variable {α β : Type} [DecidableEq α] [DecidableEq β]
  {encoding : α → List β} {symbol : α} {code : β}

/-- What does not hold the separator goes to the first piece. -/
theorem splitOn_append {front : List β} (absent : code ∉ front) (rest : List β) :
    (front ++ rest).splitOn code = (rest.splitOn code).modifyHead (front ++ ·) := by
  induction front with
  | nil =>
      rw [List.nil_append]
      cases rest.splitOn code <;> rfl
  | cons first front ih =>
      have apart : first ≠ code := fun same => absent (by simp [same])
      have later : code ∉ front := fun member => absent (List.mem_cons_of_mem _ member)
      rw [List.cons_append, List.splitOn_cons_eq_if_modifyHead, if_neg (by simpa using apart),
        ih later]
      cases rest.splitOn code <;> rfl

theorem splitOn_flatMap (marks : Marks encoding symbol code) (xs : List α) :
    (xs.flatMap encoding).splitOn code = (xs.splitOn symbol).map (·.flatMap encoding) := by
  induction xs with
  | nil => simp
  | cons x xs ih =>
      rw [List.flatMap_cons, List.splitOn_cons_eq_if_modifyHead]
      by_cases same : x = symbol
      · rw [same, marks.own, if_pos (by simp), List.singleton_append,
          List.splitOn_cons_eq_if_modifyHead, if_pos (by simp), ih]
        rfl
      · have absent : code ∉ encoding x := fun member => same (marks.only x member)
        rw [splitOn_append absent, if_neg (by simpa using same), ih]
        cases xs.splitOn symbol <;> rfl

variable (nonempty : ∀ x, encoding x ≠ [])
include nonempty

theorem dropReturn_flatMap (marks : Marks encoding symbol code) (line : List α) :
    dropReturn code (line.flatMap encoding) = (dropReturn symbol line).flatMap encoding := by
  obtain rfl | ⟨front, last, rfl⟩ := List.eq_nil_or_concat' line
  · rfl
  · rw [List.flatMap_append, List.flatMap_singleton]
    by_cases same : last = symbol
    · simp [dropReturn, same, marks.own]
    · obtain empty | ⟨start, final, whole⟩ := List.eq_nil_or_concat' (encoding last)
      · exact absurd empty (nonempty last)
      · have apart : final ≠ code := by
          rintro rfl
          exact same (marks.only last (by simp [whole]))
        simp [dropReturn, same, whole, ← List.append_assoc, apart]

/-- Lines can be cut before or after encoding, if both line ends can be told. -/
theorem cutLines_flatMap {carriageReturn lineFeed : α} {codeOfReturn codeOfFeed : β}
    (returns : Marks encoding carriageReturn codeOfReturn)
    (feeds : Marks encoding lineFeed codeOfFeed) (xs : List α) :
    cutLines codeOfReturn codeOfFeed (xs.flatMap encoding) =
      (cutLines carriageReturn lineFeed xs).map (·.flatMap encoding) := by
  have ended : dropReturn codeOfReturn ∘ (·.flatMap encoding) =
      (·.flatMap encoding) ∘ dropReturn carriageReturn :=
    funext (dropReturn_flatMap nonempty returns)
  have unended : ((xs.splitOn lineFeed).getLast?.map (·.flatMap encoding)).getD [] =
      ((xs.splitOn lineFeed).getLast?.getD []).flatMap encoding := by
    cases (xs.splitOn lineFeed).getLast? <;> rfl
  have empty (line : List α) : (line.flatMap encoding).isEmpty = line.isEmpty := by
    cases line <;> simp [nonempty]
  simp only [cutLines, splitOn_flatMap feeds, List.getLast?_map, unended, empty,
    ← List.map_dropLast, List.map_map, ended, List.map_append]
  split <;> rfl

end Encoding

/-! ## UTF-8 -/

/-- The bytes of a character from 128 on are from 128 on as well. -/
theorem le_of_mem_utf8EncodeChar {c : Char} {b : UInt8} (wide : 128 ≤ c.toNat)
    (member : b ∈ String.utf8EncodeChar c) : 128 ≤ b.toNat := by
  have code : c.val.toNat = c.toNat := rfl
  -- each byte is a remainder behind a constant with its highest bit set
  unfold String.utf8EncodeChar at member
  dsimp only at member
  split at member
  · omega
  · split at member
    · simp only [List.mem_cons, List.not_mem_nil, or_false] at member
      rcases member with rfl | rfl <;> rw [UInt8.toNat_ofNat'] <;> omega
    · split at member
      · simp only [List.mem_cons, List.not_mem_nil, or_false] at member
        rcases member with rfl | rfl | rfl <;> rw [UInt8.toNat_ofNat'] <;> omega
      · simp only [List.mem_cons, List.not_mem_nil, or_false] at member
        rcases member with rfl | rfl | rfl | rfl <;> rw [UInt8.toNat_ofNat'] <;> omega

theorem utf8EncodeChar_of_lt {c : Char} (ascii : c.toNat < 128) :
    String.utf8EncodeChar c = [UInt8.ofNat c.toNat] := by
  have small : c.val.toNat ≤ 127 := Nat.le_of_lt_succ ascii
  unfold String.utf8EncodeChar
  exact if_pos small

/-- A byte below 128 stands for one character only. -/
theorem eq_of_mem_utf8EncodeChar {c : Char} {b : UInt8} (ascii : b.toNat < 128)
    (member : b ∈ String.utf8EncodeChar c) : c.toNat = b.toNat := by
  by_cases wide : 128 ≤ c.toNat
  · have := le_of_mem_utf8EncodeChar wide member
    omega
  · rw [utf8EncodeChar_of_lt (by omega), List.mem_singleton] at member
    rw [member, UInt8.toNat_ofNat']
    omega

theorem marks_utf8 (c : Char) (ascii : c.toNat < 128) :
    Marks String.utf8EncodeChar c (UInt8.ofNat c.toNat) where
  own := utf8EncodeChar_of_lt ascii
  only other member := by
    have code : (UInt8.ofNat c.toNat).toNat = c.toNat := by
      rw [UInt8.toNat_ofNat']
      omega
    have same := eq_of_mem_utf8EncodeChar (by omega) member
    exact Char.toNat_inj.mp (same.trans code)

/-! ## The lines of a text -/

theorem encode_eq (text : String) : encode text = text.toList.flatMap String.utf8EncodeChar := by
  rw [encode, String.toUTF8_eq_toByteArray, ← String.utf8Encode_toList]
  exact List.toList_data_toByteArray

theorem encode_ofList (cs : List Char) :
    encode (String.ofList cs) = cs.flatMap String.utf8EncodeChar := by
  rw [encode_eq, String.toList_ofList]

theorem decode?_encode (text : String) : decode? (encode text) = some text := by
  have bytes : (⟨(encode text).toArray⟩ : ByteArray) = text.toByteArray := by
    rw [encode, Array.toArray_toList, String.toUTF8_eq_toByteArray]
  rw [decode?, bytes, String.fromUTF8?, dif_pos text.isValidUTF8]
  rfl

/-- **A text has the lines of its bytes.** -/
theorem byteLines_encode (text : String) : byteLines (encode text) = (lines text).map encode := by
  have returns : Marks String.utf8EncodeChar '\r' carriageReturn := marks_utf8 '\r' (by decide)
  have feeds : Marks String.utf8EncodeChar '\n' lineFeed := marks_utf8 '\n' (by decide)
  have nonempty (c : Char) : String.utf8EncodeChar c ≠ [] := String.utf8EncodeChar_ne_nil
  rw [byteLines, encode_eq, cutLines_flatMap nonempty returns feeds, lines, List.map_map]
  exact List.map_congr_left fun cs _ => (encode_ofList cs).symm

/-- A carriage return belongs to the end of a line only before a line feed. -/
example : lines "1+\r1=\r\n\n2\r" = ["1+\r1=", "", "2\r"] := by decide

end Calculator.Text
