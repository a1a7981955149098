/-
# Calculator.Json.Reading -- JSON texts read as trees

`Value.ofText?` accepts exactly the JSON texts: one value with blanks around it.  Two
escapes that are the halves of a surrogate pair stand for one character; a half on its
own is kept as such.  Reading spends fuel on every value and every item.  A text has
fewer of them than twice its characters, so there is always some left.
-/
import Calculator.Json.Value

namespace Calculator.Json

set_option autoImplicit false

def isBlank (c : Char) : Bool := c == ' ' || c == '\t' || c == '\n' || c == '\r'

def skipBlanks (cs : List Char) : List Char := cs.dropWhile isBlank

/-! ## Strings -/

/-- What a hexadecimal digit is worth, in either case. -/
def hexValue? (c : Char) : Option Nat :=
  if c.isDigit then some (c.toNat - '0'.toNat)
  else if 'a' ≤ c ∧ c ≤ 'f' then some (c.toNat - 'a'.toNat + 10)
  else if 'A' ≤ c ∧ c ≤ 'F' then some (c.toNat - 'A'.toNat + 10)
  else none

def code? (a b c d : Char) : Option Nat := do
  let a ← hexValue? a
  let b ← hexValue? b
  let c ← hexValue? c
  let d ← hexValue? d
  return ((a * 16 + b) * 16 + c) * 16 + d

def isLeading (code : Nat) : Bool := 0xd800 ≤ code && code < 0xdc00

def isTrailing (code : Nat) : Bool := 0xdc00 ≤ code && code < 0xe000

def pieceOfCode (code : Nat) : Piece :=
  if isLeading code || isTrailing code then .surrogate code else .char (Char.ofNat code)

/-- Puts a piece in front, joining it to a half that it completes. -/
def joinPiece : Piece → List Piece → List Piece
  | .surrogate leading, .surrogate trailing :: rest =>
      if isLeading leading && isTrailing trailing then
        .char (Char.ofNat (0x10000 + (leading - 0xd800) * 0x400 + (trailing - 0xdc00))) :: rest
      else .surrogate leading :: .surrogate trailing :: rest
  | piece, rest => piece :: rest

def shortEscape? : Char → Option Char
  | '"' => some '"'
  | '\\' => some '\\'
  | '/' => some '/'
  | 'b' => some '\x08'
  | 'f' => some '\x0c'
  | 'n' => some '\n'
  | 'r' => some '\r'
  | 't' => some '\t'
  | _ => none

/-- The rest of a string behind its opening quote, and what follows it. -/
def readPieces : List Char → Option (List Piece × List Char)
  | [] => none
  | '"' :: rest => some ([], rest)
  | '\\' :: 'u' :: a :: b :: c :: d :: rest => do
      let code ← code? a b c d
      let (ps, rest) ← readPieces rest
      return (joinPiece (pieceOfCode code) ps, rest)
  | '\\' :: c :: rest => do
      let c ← shortEscape? c
      let (ps, rest) ← readPieces rest
      return (.char c :: ps, rest)
  | c :: rest =>
      if c = '\\' ∨ c.toNat < 0x20 then none
      else do
        let (ps, rest) ← readPieces rest
        return (.char c :: ps, rest)

/-! ## Numbers -/

/-- The digits at the front, and what follows them. -/
def readDigits (cs : List Char) : List Char × List Char :=
  (cs.takeWhile Char.isDigit, cs.dropWhile Char.isDigit)

def readDigits? (cs : List Char) : Option (List Char × List Char) :=
  match readDigits cs with
  | ([], _) => none
  | found => some found

/-- Digits without a superfluous leading zero. -/
def readWhole? (cs : List Char) : Option (List Char × List Char) :=
  match readDigits? cs with
  | some ('0' :: _ :: _, _) => none
  | found => found

/-- A point with digits behind it, if there is a point. -/
def readFraction? : List Char → Option (Option (List Char) × List Char)
  | '.' :: rest => (readDigits? rest).map fun (digits, rest) => (some digits, rest)
  | rest => some (none, rest)

def readExponentSign : List Char → Bool × List Char
  | '-' :: rest => (true, rest)
  | '+' :: rest => (false, rest)
  | rest => (false, rest)

def readExponent? (cs : List Char) : Option (Option (Bool × List Char) × List Char) :=
  match cs with
  | c :: rest =>
      if c = 'e' ∨ c = 'E' then
        let (negative, rest) := readExponentSign rest
        (readDigits? rest).map fun (digits, rest) => (some (negative, digits), rest)
      else some (none, cs)
  | [] => some (none, [])

def readMinus : List Char → Bool × List Char
  | '-' :: rest => (true, rest)
  | rest => (false, rest)

def readNumber (cs : List Char) : Option (Number × List Char) := do
  let (negative, rest) := readMinus cs
  let (whole, rest) ← readWhole? rest
  let (fraction, rest) ← readFraction? rest
  let (exponent, rest) ← readExponent? rest
  return (⟨negative, whole, fraction, exponent⟩, rest)

/-! ## Values -/

mutual

/-- A value behind blanks, and what follows it. -/
def readValue : Nat → List Char → Option (Value × List Char)
  | 0, _ => none
  | fuel + 1, cs =>
    match skipBlanks cs with
    | 'n' :: 'u' :: 'l' :: 'l' :: rest => some (.null, rest)
    | 't' :: 'r' :: 'u' :: 'e' :: rest => some (.bool true, rest)
    | 'f' :: 'a' :: 'l' :: 's' :: 'e' :: rest => some (.bool false, rest)
    | '"' :: rest => do
        let (ps, rest) ← readPieces rest
        return (.string ps, rest)
    | '[' :: rest =>
      match skipBlanks rest with
      | ']' :: rest => some (.array [], rest)
      | rest => do
          let (items, rest) ← readItems fuel rest
          return (.array items, rest)
    | '\x7b' :: rest =>
      match skipBlanks rest with
      | '\x7d' :: rest => some (.object [], rest)
      | rest => do
          let (members, rest) ← readMembers fuel rest
          return (.object members, rest)
    | rest => do
        let (n, rest) ← readNumber rest
        return (.number n, rest)

/-- One or more items up to the closing bracket, and what follows it. -/
def readItems : Nat → List Char → Option (List Value × List Char)
  | 0, _ => none
  | fuel + 1, cs => do
    let (item, rest) ← readValue fuel cs
    match skipBlanks rest with
    | ',' :: rest => do
        let (items, rest) ← readItems fuel rest
        return (item :: items, rest)
    | ']' :: rest => some ([item], rest)
    | _ => none

/-- One or more members up to the closing brace, and what follows it. -/
def readMembers : Nat → List Char → Option (List (List Piece × Value) × List Char)
  | 0, _ => none
  | fuel + 1, cs =>
    match skipBlanks cs with
    | '"' :: rest => do
        let (key, rest) ← readPieces rest
        match skipBlanks rest with
        | ':' :: rest => do
            let (value, rest) ← readValue fuel rest
            match skipBlanks rest with
            | ',' :: rest => do
                let (members, rest) ← readMembers fuel rest
                return ((key, value) :: members, rest)
            | '\x7d' :: rest => some ([(key, value)], rest)
            | _ => none
        | _ => none
    | _ => none

end

def Value.ofText? (text : String) : Option Value :=
  match readValue (2 * text.toList.length + 2) text.toList with
  | some (value, rest) => if (skipBlanks rest).isEmpty then some value else none
  | none => none

end Calculator.Json
