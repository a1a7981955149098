/-
# Calculator.Text -- blanks, bytes and lines

A blank is a character with the property White_Space; no zero-width character has it.
A text comes in as bytes in UTF-8.  A line ends with a line feed, and a carriage return
before the line feed belongs to the end.  What follows the last line feed is a line as
well, unless it is empty.  The lines of an input are cut while it is still bytes,
because only some of them may be texts; those of a text are cut as characters.
-/
namespace Calculator.Text

set_option autoImplicit false

/-! ## Blanks -/

/-- Inclusive ranges of code points. -/
def blankRanges : List (Nat × Nat) :=
  [(0x9, 0xd), (0x20, 0x20), (0x85, 0x85), (0xa0, 0xa0), (0x1680, 0x1680), (0x2000, 0x200a),
    (0x2028, 0x2029), (0x202f, 0x202f), (0x205f, 0x205f), (0x3000, 0x3000)]

def isBlank (c : Char) : Bool :=
  blankRanges.any fun range => range.1 ≤ c.toNat && c.toNat ≤ range.2

/-- Twenty-five code points are blank. -/
example : (blankRanges.map fun range => range.2 + 1 - range.1).sum = 25 := by decide

def trimEndChars (cs : List Char) : List Char := (cs.reverse.dropWhile isBlank).reverse

def trimEnd (text : String) : String := String.ofList (trimEndChars text.toList)

def trim (text : String) : String := String.ofList (trimEndChars (text.toList.dropWhile isBlank))

/-! ## Bytes -/

abbrev Bytes := List UInt8

def decode? (bytes : Bytes) : Option String := String.fromUTF8? ⟨bytes.toArray⟩

def encode (text : String) : Bytes := text.toUTF8.data.toList

/-! ## Lines -/

section Cut

variable {α : Type} [DecidableEq α]

/-- An ended line without the carriage return of its end. -/
def dropReturn (carriageReturn : α) (line : List α) : List α :=
  if line.getLast? = some carriageReturn then line.dropLast else line

/-- The lines of a sequence with these two as line ends. -/
def cutLines (carriageReturn lineFeed : α) (xs : List α) : List (List α) :=
  let pieces := xs.splitOn lineFeed
  let unended := pieces.getLast?.getD []
  pieces.dropLast.map (dropReturn carriageReturn) ++ if unended.isEmpty then [] else [unended]

end Cut

/-- No other character has this byte in its encoding, or the next one. -/
def carriageReturn : UInt8 := 13

def lineFeed : UInt8 := 10

def byteLines (bytes : Bytes) : List Bytes := cutLines carriageReturn lineFeed bytes

def lines (text : String) : List String := (cutLines '\r' '\n' text.toList).map String.ofList

end Calculator.Text
