/-
# Calculator.CommandLine.Request -- from a command line to a command

The arguments before the name of a command are read first, then those behind it.
What is given behind the name counts before what is given in front of it, that before
the environment, and that before the default.  A number of verbose flags replaces the
other side's number; other flags count on either side.  What the environment gives
must be readable unless both sides give the setting themselves.
-/
import Calculator.CommandLine.Options

namespace Calculator.CommandLine

set_option autoImplicit false

structure Environment where
  historyCapacity : Option String
  zeroTolerance : Option String
  deriving DecidableEq, Repr

/-! ## Reading both sides -/

/-- What follows the word `help`: nothing, or one name that can be helped with. -/
def helpTopic : List String → Usage
  | [] => .help
  | [topic] => if topic = "help" ∨ (CommandName.ofText? topic).isSome then .help else .error
  | _ => .error

def readBefore (s : Side) : List String → Except Usage (Side × CommandName × List String)
  | [] => .error .error
  | argument :: rest => do
    match Argument.ofText argument with
    | .plain text =>
        if s.isWaiting then readBefore (s.holdValue text) rest
        else if text = "help" then throw (helpTopic rest)
        else
          match CommandName.ofText? text with
          | some name => return (s, name, rest)
          | none => throw .error
    | .endOfOptions => throw .error
    | .long name value => readBefore (← s.longOption .before name value) rest
    | .short letters => readBefore (← s.shortOptions .before letters) rest

def readBehind (command : CommandName) (s : Side) : List String → Except Usage Side
  | [] => s.settle
  | argument :: rest => do
    match Argument.ofText argument with
    | .plain text =>
        if s.isWaiting then readBehind command (s.holdValue text) rest
        else readBehind command (← s.script command text) rest
    | .endOfOptions => (← rest.foldlM (Side.script command) s).settle
    | .long name value => readBehind command (← s.longOption (.behind command) name value) rest
    | .short letters => readBehind command (← s.shortOptions (.behind command) letters) rest

/-! ## Putting together -/

/-- A setting of both sides and of the environment, which is left unread only if both
sides have it. -/
def choose {α : Type} (read : String → Option α) (behind before : Option α)
    (environment : Option String) : Except Usage (Option α) :=
  match behind, before, environment with
  | some a, some _, _ => .ok (some a)
  | _, _, none => .ok (behind <|> before)
  | _, _, some text =>
    match read text with
    | some a => .ok (behind <|> before <|> some a)
    | none => .error .error

def settings (historyCapacity : Option Nat) (zeroTolerance : Option Binary64)
    (errorIndicator : Option String) : Settings :=
  let s := Settings.default
  let s := (historyCapacity.map s.withCapacity).getD s
  let s := (zeroTolerance.map s.withZeroTolerance).getD s
  (errorIndicator.map s.withErrorIndicator).getD s

def configuration (before behind : Side) (environment : Environment) :
    Except Usage Configuration := do
  let historyCapacity ←
    choose Numeral.natural? behind.historyCapacity before.historyCapacity
      environment.historyCapacity
  let zeroTolerance ←
    choose Numeral.scientificValue? behind.zeroTolerance before.zeroTolerance
      environment.zeroTolerance
  let verbose := if behind.verbose = 0 then before.verbose else behind.verbose
  return {
    verbosity := .ofFlags (behind.quiet || before.quiet) verbose
    color := (behind.color <|> before.color).getD .auto
    logJson := behind.logJson || before.logJson
    session := settings historyCapacity zeroTolerance
      (behind.errorIndicator <|> before.errorIndicator) }

def command (name : CommandName) (s : Side) : Except Usage Command :=
  match name with
  | .run => .ok (.run ⟨s.scripts, s.file, s.trace, s.history⟩)
  | .repl => .ok (.repl s.trace)
  | .history =>
      if s.scripts.isEmpty then .error .error else .ok (.history s.scripts (s.format.getD .text))
  | .config => .ok .config
  | .keys => .ok .keys

/-- A command, and how it is to be carried out. -/
structure Request where
  configuration : Configuration
  command : Command
  deriving DecidableEq

def Request.ofArguments (environment : Environment) (arguments : List String) :
    Except Usage Request := do
  let (before, name, rest) ← readBefore .empty arguments
  let behind ← readBehind name .empty rest
  let command ← CommandLine.command name behind
  let before ← before.settle
  let configuration ← CommandLine.configuration before behind environment
  return { configuration, command }

/-- Carries out a request, unless its configuration cannot be used. -/
def Request.execute (terminal : Bool) (outside : Surroundings) (r : Request) : Answer :=
  match r.configuration.fault? with
  | some fault => .failed (.configuration fault)
  | none => r.command.execute terminal r.configuration outside

end Calculator.CommandLine
