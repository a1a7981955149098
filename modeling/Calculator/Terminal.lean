/-
# Calculator.Terminal -- what is written about a session

Lines for frames, for single keys, for failures, for the history and for the
keypad.  A result is green and bold behind a key that logged it, and red and bold
behind one that failed.  With colours off, and with no attributes, a text is written
as it is.
-/
import Calculator.Encoding

namespace Calculator.Terminal

set_option autoImplicit false

/-! ## Styles -/

inductive Attribute where
  | bold
  | dim
  | red
  | green
  | cyan
  deriving DecidableEq, Repr

def Attribute.code : Attribute → String
  | .bold => "1"
  | .dim => "2"
  | .red => "31"
  | .green => "32"
  | .cyan => "36"

def escape (code : String) : String := "\x1b[" ++ code ++ "m"

def reset : String := escape "0"

/-- A text in a style, if colours are on. -/
def paint (colored : Bool) (style : List Attribute) (text : String) : String :=
  if colored && !style.isEmpty then
    String.join (style.map fun a => escape a.code) ++ text ++ reset
  else text

def padLeft (width : Nat) (text : String) : String :=
  String.ofList (List.replicate (width - text.length) ' ') ++ text

def padRight (width : Nat) (text : String) : String :=
  text ++ String.ofList (List.replicate (width - text.length) ' ')

/-! ## Reports -/

/-- How reports are written: in colours, at all, and with reasons. -/
structure Report where
  colored : Bool
  quiet : Bool
  explains : Bool
  deriving DecidableEq

/-- The keys of a script, and what they do. -/
def keyMeanings : List (String × String) :=
  [("0-9 .", "digits and decimal point"),
    ("+ -", "add, subtract"),
    ("* x ×", "multiply"),
    ("/ ÷", "divide"),
    ("~ n ±", "toggle sign"),
    ("c C", "clear all (history is kept)"),
    ("=", "evaluate")]

namespace Report

def resultStyle (frame : Frame) : List Attribute :=
  if frame.failure.isSome then [.red, .bold]
  else if frame.appended.isSome then [.green, .bold]
  else []

/-- Both displays. -/
def frame (r : Report) (frame : Frame) : String :=
  frame.equation ++ " | " ++ paint r.colored (resultStyle frame) frame.result

/-- The reason of a failed key, if reasons are written. -/
def failureNote? (r : Report) (frame : Frame) : Option String :=
  if r.explains then
    frame.failure.map fun fault => paint r.colored [.red] ("  " ++ fault.message)
  else none

/-- A key, and both displays after it. -/
def tracedFrame (r : Report) (key : Key) (frame : Frame) : String :=
  paint r.colored [.cyan] (padLeft 2 key.label) ++ "  " ++ r.frame frame

/-- The history as equations; nothing at all when it is empty. -/
def historyText (r : Report) (history : History) : String :=
  let listing := history.listing
  if listing.isEmpty then listing else paint r.colored [.dim] listing

def historyJson (history : History) : String := history.toJson.pretty

def keyLine (r : Report) (keys meaning : String) : String :=
  paint r.colored [.bold] (padRight 8 keys) ++ " " ++ meaning ++ "\n"

/-- The keypad, and a table of the keys of a script. -/
def keys (r : Report) : String :=
  Keypad.drawing ++ "\n\n" ++
    String.join (keyMeanings.map fun (keys, meaning) => r.keyLine keys meaning)

end Report

end Calculator.Terminal
