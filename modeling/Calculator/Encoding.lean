/-
# Calculator.Encoding -- entries, settings and configurations in JSON

A record is written as an object with its fields in order.  It is read from an
object whose members may come in any order, with members of other names among them,
or from an array of its fields in order, which may stop early.  Settings take their
default for an absent field; entries and configurations must be complete.
-/
import Calculator.Configuration
import Calculator.Json.Number
import Calculator.Json.Reading

namespace Calculator

set_option autoImplicit false

/-! ## Fields -/

namespace Json.Value

def namedMembers? : List (List Piece × Value) → Option (List (String × Value))
  | [] => some []
  | (key, value) :: rest =>
      match chars? key, namedMembers? rest with
      | some cs, some named => some ((String.ofList cs, value) :: named)
      | _, _ => none

/-- The value of a field that is there at most once: `some none` when absent. -/
def member? (members : List (String × Value)) (name : String) : Option (Option Value) :=
  match members.filter (·.1 == name) with
  | [] => some none
  | [(_, value)] => some (some value)
  | _ => none

/-- The values of a record's fields, in the order of the names; absent ones are
`none`. -/
def fields? (names : List String) : Value → Option (List (Option Value))
  | .array items =>
      if items.length ≤ names.length then
        some (items.map some ++ List.replicate (names.length - items.length) none)
      else none
  | .object members =>
      match namedMembers? members with
      | some named => names.mapM (member? named)
      | none => none
  | _ => none

def natural? : Value → Option Nat
  | .number n => n.natural?
  | _ => none

def toBinary64? : Value → Option Binary64
  | .number n => n.toBinary64?
  | _ => none

/-- One of several names.  A name alone in an object, with null as its value,
counts as well. -/
def choice? {α : Type} (name : α → String) (choices : List α) (value : Value) : Option α :=
  let spelled :=
    match value with
    | .object [(key, .null)] => (chars? key).map String.ofList
    | other => other.text?
  match spelled with
  | some text => choices.find? (fun choice => name choice == text)
  | none => none

/-- Reads a field, or takes the default when it is absent. -/
def field? {α : Type} (read : Value → Option α) (absent : Option α) : Option Value → Option α
  | some value => read value
  | none => absent

end Json.Value

open Json (Value)

/-! ## Entries -/

def Entry.fieldNames : List String := ["expression", "result"]

def Entry.toJson (entry : Entry) : Value :=
  .ofFields [("expression", .ofString entry.expression), ("result", .ofString entry.result)]

def Entry.ofJson? (value : Value) : Option Entry :=
  match value.fields? Entry.fieldNames with
  | some [expression, result] => do
      let expression ← Value.field? Value.text? none expression
      let result ← Value.field? Value.text? none result
      return ⟨expression, result⟩
  | _ => none

/-- The entries as an array, the oldest first. -/
def History.toJson (history : History) : Value := .array (history.entries.map Entry.toJson)

/-! ## Settings -/

def Settings.fieldNames : List String := ["history_capacity", "zero_tolerance", "error_indicator"]

def Settings.toJson (s : Settings) : Value :=
  .ofFields [("history_capacity", .number (Json.Number.ofNatural s.capacity)),
    ("zero_tolerance", .ofBinary64 s.zeroTolerance),
    ("error_indicator", .ofString s.errorIndicator)]

def Settings.ofJson? (value : Value) : Option Settings :=
  match value.fields? Settings.fieldNames with
  | some [capacity, zeroTolerance, errorIndicator] => do
      let capacity ← Value.field? Value.natural? (some Settings.default.capacity) capacity
      let zeroTolerance ←
        Value.field? Value.toBinary64? (some Settings.default.zeroTolerance) zeroTolerance
      let errorIndicator ←
        Value.field? Value.text? (some Settings.default.errorIndicator) errorIndicator
      return ⟨capacity, zeroTolerance, errorIndicator⟩
  | _ => none

/-! ## Configurations -/

def Verbosity.jsonName : Verbosity → String
  | .quiet => "Quiet"
  | .normal => "Normal"
  | .verbose => "Verbose"
  | .debug => "Debug"

def ColorChoice.jsonName : ColorChoice → String
  | .always => "Always"
  | .auto => "Auto"
  | .never => "Never"

def Configuration.fieldNames : List String := ["verbosity", "color", "log_json", "session"]

def Configuration.toJson (c : Configuration) : Value :=
  .ofFields [("verbosity", .ofString c.verbosity.jsonName), ("color", .ofString c.color.jsonName),
    ("log_json", .bool c.logJson), ("session", c.session.toJson)]

def Configuration.ofJson? (value : Value) : Option Configuration :=
  match value.fields? Configuration.fieldNames with
  | some [verbosity, color, logJson, session] => do
      let verbosity ← Value.field? (Value.choice? Verbosity.jsonName Verbosity.all) none verbosity
      let color ← Value.field? (Value.choice? ColorChoice.jsonName ColorChoice.all) none color
      let logJson ← Value.field? Value.bool? none logJson
      let session ← Value.field? Settings.ofJson? none session
      return ⟨verbosity, color, logJson, session⟩
  | _ => none

end Calculator
