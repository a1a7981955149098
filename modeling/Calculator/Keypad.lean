/-
# Calculator.Keypad -- keys, where they are, and scripts of them

A key is what an input surface reports.  A script writes a key as one character, of
which some keys have several; a keyboard may also report it by a name.  A script is
read as a whole: the first character that is no key makes all of it unreadable.
-/
import Calculator.Expression
import Calculator.Text

namespace Calculator

set_option autoImplicit false

/-- A key.  A digit above nine is no key of the keypad, but it can be reported;
pressing it does nothing. -/
inductive Key where
  | digit (value : Nat)
  | point
  | operator (op : Operator)
  | toggleSign
  | clearAll
  | evaluate
  deriving DecidableEq, Repr

namespace Key

def label : Key → String
  | .digit value => toString value
  | .point => "."
  | .operator op => op.symbol
  | .toggleSign => "±"
  | .clearAll => "AC"
  | .evaluate => "="

/-- The key that a script character stands for. -/
def ofChar? (c : Char) : Option Key :=
  if c.isDigit then some (.digit (c.toNat - '0'.toNat))
  else
    match c with
    | '.' => some .point
    | 'x' | 'X' => some (.operator .multiply)
    | '=' => some .evaluate
    | 'c' | 'C' => some .clearAll
    | '~' | 'n' | '±' => some .toggleSign
    | _ => (Operator.ofChar? c).map .operator

/-- The key of a name: one of the names that keyboards and buttons report, or a
script character. -/
def ofName? (name : String) : Option Key :=
  if name ∈ ["Enter", "Return"] then some .evaluate
  else if name ∈ ["Escape", "AC", "Delete"] then some .clearAll
  else if name ∈ ["+/-", "neg", "Negate"] then some .toggleSign
  else
    match name.toList with
    | [c] => ofChar? c
    | _ => none

end Key

/-! ## The keypad -/

namespace Keypad

def rows : List (List Key) :=
  [[.clearAll, .toggleSign, .operator .divide, .operator .multiply],
    [.digit 7, .digit 8, .digit 9, .operator .subtract],
    [.digit 4, .digit 5, .digit 6, .operator .add],
    [.digit 1, .digit 2, .digit 3, .evaluate],
    [.digit 0, .point]]

/-- The key at a row and a column, both counted from zero. -/
def keyAt? (row column : Nat) : Option Key :=
  match rows[row]? with
  | some keys => keys[column]?
  | none => none

/-- A text with blanks on both sides to a least width, the odd one on the right. -/
def centred (width : Nat) (text : String) : String :=
  let blanks := width - text.length
  String.ofList (List.replicate (blanks / 2) ' ' ++ text.toList ++
    List.replicate (blanks - blanks / 2) ' ')

def drawKey (key : Key) : String := "[" ++ centred 4 key.label ++ "]"

def drawing : String :=
  "\n".intercalate (rows.map fun row => " ".intercalate (row.map drawKey))

end Keypad

/-! ## Scripts -/

namespace Script

def keysOfChars : List Char → Except Fault (List Key)
  | [] => .ok []
  | c :: rest =>
      if Text.isBlank c then keysOfChars rest
      else
        match Key.ofChar? c with
        | none => .error (.unknownKey (String.singleton c))
        | some key =>
          match keysOfChars rest with
          | .ok keys => .ok (key :: keys)
          | .error fault => .error fault

/-- The keys of a script, or the first character that is no key. -/
def keys (script : String) : Except Fault (List Key) := keysOfChars script.toList

end Script

end Calculator
