/-
# Calculator.Configuration -- how the program is to behave

The settings of the session, how much is written, whether in colours, and the form
of the log.  A configuration is usable when its tolerance is finite and its error
indicator is not blank; of both faults the tolerance is the one reported.
-/
import Calculator.Session

namespace Calculator

set_option autoImplicit false

inductive Verbosity where
  | quiet
  | normal
  | verbose
  | debug
  deriving DecidableEq, Repr

namespace Verbosity

/-- The level for the quiet flag and the number of verbose flags; quiet wins. -/
def ofFlags (quiet : Bool) (verbose : Nat) : Verbosity :=
  if quiet then .quiet
  else
    match verbose with
    | 0 => .normal
    | 1 => .verbose
    | _ => .debug

def isQuiet : Verbosity → Bool
  | .quiet => true
  | _ => false

/-- Whether the reason of a failure is written. -/
def explains : Verbosity → Bool
  | .verbose => true
  | .debug => true
  | _ => false

def all : List Verbosity := [.quiet, .normal, .verbose, .debug]

end Verbosity

/-- Whether to write in colours; `auto` leaves it to the terminal. -/
inductive ColorChoice where
  | always
  | auto
  | never
  deriving DecidableEq, Repr

namespace ColorChoice

/-- Whether to write in colours on a terminal that has them or has them not. -/
def resolve (terminal : Bool) : ColorChoice → Bool
  | .always => true
  | .auto => terminal
  | .never => false

def all : List ColorChoice := [.always, .auto, .never]

end ColorChoice

structure Configuration where
  verbosity : Verbosity
  color : ColorChoice
  logJson : Bool
  session : Settings
  deriving DecidableEq

inductive Configuration.Fault where
  | toleranceNotFinite (tolerance : Binary64)
  | blankIndicator
  deriving DecidableEq

namespace Configuration

def Fault.message : Configuration.Fault → String
  | .toleranceNotFinite tolerance =>
      "zero tolerance must be a finite number, got " ++ Numeral.shown tolerance
  | .blankIndicator => "error indicator must not be blank"

def default : Configuration := ⟨.normal, .auto, false, .default⟩

def fault? (c : Configuration) : Option Configuration.Fault :=
  if !c.session.zeroTolerance.isFinite then
    some (.toleranceNotFinite c.session.zeroTolerance)
  else if (Text.trim c.session.errorIndicator).isEmpty then
    some .blankIndicator
  else none

end Configuration

end Calculator
