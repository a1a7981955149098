/-
# Calculator.Json.Value -- JSON as trees, and trees as texts

A tree keeps what a text says and no more: a number is its digits, an object its
members in order, also repeated ones.  `compact` has no blanks; `pretty` puts every
item and member on a line of its own, two blanks deeper than its bracket.
-/
namespace Calculator.Json

set_option autoImplicit false

/-- A number as it is spelled: a sign, digits, digits behind a point, and an
exponent with its sign. -/
structure Number where
  negative : Bool
  whole : List Char
  fraction : Option (List Char)
  exponent : Option (Bool × List Char)
  deriving DecidableEq, Repr

/-- One element of a string; an escape may stand for half of a surrogate pair alone. -/
inductive Piece where
  | char (c : Char)
  | surrogate (code : Nat)
  deriving DecidableEq, Repr

inductive Value where
  | null
  | bool (b : Bool)
  | number (n : Number)
  | string (pieces : List Piece)
  | array (items : List Value)
  | object (members : List (List Piece × Value))

def pieces (text : String) : List Piece := text.toList.map .char

/-- The characters of the pieces, if they all are characters. -/
def chars? : List Piece → Option (List Char)
  | [] => some []
  | .char c :: rest => (chars? rest).map (c :: ·)
  | .surrogate _ :: _ => none

namespace Value

def ofString (text : String) : Value := .string (pieces text)

def ofFields (fields : List (String × Value)) : Value :=
  .object (fields.map fun (key, value) => (pieces key, value))

def text? : Value → Option String
  | .string ps => (chars? ps).map String.ofList
  | _ => none

def bool? : Value → Option Bool
  | .bool b => some b
  | _ => none

end Value

theorem chars?_map_char (cs : List Char) : chars? (cs.map .char) = some cs := by
  induction cs with
  | nil => rfl
  | cons c rest ih => simp [chars?, ih]

theorem Value.text?_ofString (text : String) : (Value.ofString text).text? = some text := by
  simp [Value.text?, Value.ofString, pieces, chars?_map_char]

/-! ## Writing -/

def hexDigit (n : Nat) : Char := Nat.digitChar (n % 16)

def codeEscape (code : Nat) : List Char :=
  ['\\', 'u', hexDigit (code / 4096), hexDigit (code / 256), hexDigit (code / 16), hexDigit code]

def escapeChar (c : Char) : List Char :=
  match c with
  | '"' => ['\\', '"']
  | '\\' => ['\\', '\\']
  | '\x08' => ['\\', 'b']
  | '\t' => ['\\', 't']
  | '\n' => ['\\', 'n']
  | '\x0c' => ['\\', 'f']
  | '\r' => ['\\', 'r']
  | _ => if c.toNat < 0x20 then codeEscape c.toNat else [c]

def Piece.written : Piece → List Char
  | .char c => escapeChar c
  | .surrogate code => codeEscape code

def quoted (ps : List Piece) : List Char := '"' :: ps.flatMap Piece.written ++ ['"']

def Number.exponentText : Option (Bool × List Char) → List Char
  | none => []
  | some (negative, digits) => 'e' :: (if negative then '-' else '+') :: digits

def Number.written (n : Number) : List Char :=
  (if n.negative then ['-'] else []) ++ n.whole ++
    (match n.fraction with
      | none => []
      | some digits => '.' :: digits) ++
    exponentText n.exponent

/-- Where line breaks and blanks go: not at all, or at a depth of nesting. -/
inductive Layout where
  | compact
  | pretty (depth : Nat)

namespace Layout

def deeper : Layout → Layout
  | .compact => .compact
  | .pretty depth => .pretty (depth + 1)

/-- What stands in front of an item, and of a closing bracket. -/
def lineBreak : Layout → List Char
  | .compact => []
  | .pretty depth => '\n' :: List.replicate (2 * depth) ' '

def colon : Layout → List Char
  | .compact => [':']
  | .pretty _ => [':', ' ']

end Layout

mutual

def Value.written (layout : Layout) : Value → List Char
  | .null => ['n', 'u', 'l', 'l']
  | .bool true => ['t', 'r', 'u', 'e']
  | .bool false => ['f', 'a', 'l', 's', 'e']
  | .number n => n.written
  | .string ps => quoted ps
  | .array [] => ['[', ']']
  | .array (item :: items) =>
      '[' :: layout.deeper.lineBreak ++ Value.written layout.deeper item ++
        writtenItems layout.deeper items ++ layout.lineBreak ++ [']']
  | .object [] => ['\x7b', '\x7d']
  | .object ((key, value) :: members) =>
      '\x7b' :: layout.deeper.lineBreak ++ quoted key ++ layout.deeper.colon ++
        Value.written layout.deeper value ++ writtenMembers layout.deeper members ++
        layout.lineBreak ++ ['\x7d']

/-- The items behind the first one, each with its comma. -/
def writtenItems (layout : Layout) : List Value → List Char
  | [] => []
  | item :: items =>
      ',' :: layout.lineBreak ++ Value.written layout item ++ writtenItems layout items

/-- The members behind the first one, each with its comma. -/
def writtenMembers (layout : Layout) : List (List Piece × Value) → List Char
  | [] => []
  | (key, value) :: members =>
      ',' :: layout.lineBreak ++ quoted key ++ layout.colon ++ Value.written layout value ++
        writtenMembers layout members

end

def Value.compact (value : Value) : String := String.ofList (value.written .compact)

def Value.pretty (value : Value) : String := String.ofList (value.written (.pretty 0))

end Calculator.Json
