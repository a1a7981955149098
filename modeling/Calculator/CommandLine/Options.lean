/-
# Calculator.CommandLine.Options -- arguments, and the options among them

A command line has two sides: before the name of a command, and after it.  Global
options may stand on either; the others belong to a command and stand behind its
name.  On one side a flag or a setting is given at most once, except that verbose
flags are counted.

A value in the same argument as its setting is read at once.  A value that is an
argument of its own is held until the side goes on with an option or a script, or
ends; so a bad one is not noticed when help is asked for behind the command's name.
-/
import Calculator.Command

namespace Calculator.CommandLine

set_option autoImplicit false

/-- An argument that starts with a dash is an option, except the dash alone. -/
inductive Argument where
  | plain (text : String)
  | endOfOptions
  | long (name : String) (value : Option String)
  | short (letters : List Char)
  deriving DecidableEq, Repr

/-- A name, and the value behind the first equals sign if there is one. -/
def splitValue (cs : List Char) : String × Option String :=
  let name := String.ofList (cs.takeWhile (· != '='))
  match cs.dropWhile (· != '=') with
  | [] => (name, none)
  | _ :: value => (name, some (String.ofList value))

def Argument.ofText (text : String) : Argument :=
  match text.toList with
  | ['-', '-'] => .endOfOptions
  | '-' :: '-' :: rest => .long (splitValue rest).1 (splitValue rest).2
  | '-' :: letter :: letters => .short (letter :: letters)
  | _ => .plain text

/-- How a command line ends when it asks for no command. -/
inductive Usage where
  | help
  | version
  | error
  deriving DecidableEq, Repr

inductive CommandName where
  | run
  | repl
  | history
  | config
  | keys
  deriving DecidableEq, Repr

namespace CommandName

def text : CommandName → String
  | .run => "run"
  | .repl => "repl"
  | .history => "history"
  | .config => "config"
  | .keys => "keys"

def all : List CommandName := [.run, .repl, .history, .config, .keys]

def ofText? (text : String) : Option CommandName := all.find? fun name => name.text == text

def takesScripts : CommandName → Bool
  | .run => true
  | .history => true
  | _ => false

end CommandName

inductive Flag where
  | help
  | version
  | verbose
  | quiet
  | logJson
  | trace
  | history
  deriving DecidableEq, Repr

inductive Setting where
  | color
  | historyCapacity
  | zeroTolerance
  | errorIndicator
  | file
  | format
  deriving DecidableEq, Repr

inductive Opt where
  | flag (flag : Flag)
  | setting (setting : Setting)
  deriving DecidableEq, Repr

inductive Place where
  | before
  | behind (command : CommandName)
  deriving DecidableEq, Repr

namespace Opt

def longName : Opt → String
  | .flag .help => "help"
  | .flag .version => "version"
  | .flag .verbose => "verbose"
  | .flag .quiet => "quiet"
  | .flag .logJson => "log-json"
  | .flag .trace => "trace"
  | .flag .history => "history"
  | .setting .color => "color"
  | .setting .historyCapacity => "history-capacity"
  | .setting .zeroTolerance => "zero-tolerance"
  | .setting .errorIndicator => "error-indicator"
  | .setting .file => "file"
  | .setting .format => "format"

def letter? : Opt → Option Char
  | .flag .help => some 'h'
  | .flag .version => some 'V'
  | .flag .verbose => some 'v'
  | .flag .quiet => some 'q'
  | .setting .file => some 'f'
  | .setting .format => some 'f'
  | _ => none

def all : List Opt :=
  [.flag .help, .flag .version, .flag .verbose, .flag .quiet, .flag .logJson, .flag .trace,
    .flag .history, .setting .color, .setting .historyCapacity, .setting .zeroTolerance,
    .setting .errorIndicator, .setting .file, .setting .format]

/-- The commands that an option belongs to; none for a global option. -/
def owners? : Opt → Option (List CommandName)
  | .flag .trace => some [.run, .repl]
  | .flag .history => some [.run]
  | .setting .file => some [.run]
  | .setting .format => some [.history]
  | _ => none

def standsAt (place : Place) (o : Opt) : Bool :=
  match o.owners?, place with
  | none, _ => true
  | some _, .before => false
  | some commands, .behind command => commands.contains command

def ofLongName? (place : Place) (name : String) : Option Opt :=
  all.find? fun o => o.standsAt place && o.longName == name

def ofLetter? (place : Place) (letter : Char) : Option Opt :=
  all.find? fun o => o.standsAt place && o.letter? == some letter

end Opt

/-! ## One side -/

/-- What one side has been given.  `held` is a setting whose value has not been read
yet, or has not come yet. -/
structure Side where
  verbose : Nat
  quiet : Bool
  logJson : Bool
  trace : Bool
  history : Bool
  color : Option ColorChoice
  historyCapacity : Option Nat
  zeroTolerance : Option Binary64
  errorIndicator : Option String
  file : Option String
  format : Option HistoryFormat
  scripts : List String
  held : Option (Setting × Option String)
  deriving DecidableEq

def colorChoice? : String → Option ColorChoice
  | "auto" => some .auto
  | "always" => some .always
  | "never" => some .never
  | _ => none

def historyFormat? : String → Option HistoryFormat
  | "text" => some .text
  | "json" => some .json
  | _ => none

/-- A file's name is not empty. -/
def fileName? (text : String) : Option String := if text.isEmpty then none else some text

namespace Side

def empty : Side :=
  ⟨0, false, false, false, false, none, none, none, none, none, none, [], none⟩

/-- Gives a value to something that has none yet. -/
def once {α : Type} (given : Option α) (value : Option α) : Except Usage (Option α) :=
  match given, value with
  | none, some a => .ok (some a)
  | _, _ => .error .error

def assign (s : Side) (setting : Setting) (value : String) : Except Usage Side :=
  match setting with
  | .color => (once s.color (colorChoice? value)).map fun v => { s with color := v }
  | .historyCapacity =>
      (once s.historyCapacity (Numeral.natural? value)).map fun v =>
        { s with historyCapacity := v }
  | .zeroTolerance =>
      (once s.zeroTolerance (Numeral.scientificValue? value)).map fun v =>
        { s with zeroTolerance := v }
  | .errorIndicator =>
      (once s.errorIndicator (some value)).map fun v => { s with errorIndicator := v }
  | .file => (once s.file (fileName? value)).map fun v => { s with file := v }
  | .format => (once s.format (historyFormat? value)).map fun v => { s with format := v }

/-- Reads the value that is held, if a setting is waiting. -/
def settle (s : Side) : Except Usage Side :=
  match s.held with
  | none => .ok s
  | some (_, none) => .error .error
  | some (setting, some value) => assign { s with held := none } setting value

def raise (isUp : Bool) (s : Side) : Except Usage Side := if isUp then .error .error else .ok s

/-- Does what a flag says; help and version end the command line. -/
def setFlag (s : Side) : Flag → Except Usage Side
  | .help => .error .help
  | .version => .error .version
  | .verbose => .ok { s with verbose := s.verbose + 1 }
  | .quiet => raise s.quiet { s with quiet := true }
  | .logJson => raise s.logJson { s with logJson := true }
  | .trace => raise s.trace { s with trace := true }
  | .history => raise s.history { s with history := true }

def isWaiting (s : Side) : Bool :=
  match s.held with
  | some (_, none) => true
  | _ => false

/-- Gives a waiting setting its value, to be read later. -/
def holdValue (s : Side) (value : String) : Side :=
  match s.held with
  | some (setting, _) => { s with held := some (setting, some value) }
  | none => s

/-- An option that may carry its value. -/
def option (s : Side) (o : Opt) (value : Option String) : Except Usage Side := do
  match o, value with
  | .flag _, some _ => throw .error
  | .flag flag, none => (← s.settle).setFlag flag
  | .setting setting, some value => (← s.settle).assign setting value
  | .setting setting, none => return { ← s.settle with held := some (setting, none) }

/-- The value behind a short option in the same argument, without an equals sign
between them. -/
def groupValue? : List Char → Option String
  | [] => none
  | '=' :: value => some (String.ofList value)
  | value => some (String.ofList value)

/-- A group of short options, from the left; a setting takes the rest of the group
as its value. -/
def shortOptions (place : Place) (s : Side) : List Char → Except Usage Side
  | [] => .ok s
  | letter :: letters => do
    match Opt.ofLetter? place letter with
    | none => throw .error
    | some (.setting setting) => s.option (.setting setting) (groupValue? letters)
    | some (.flag flag) => shortOptions place (← s.option (.flag flag) none) letters

def longOption (place : Place) (s : Side) (name : String) (value : Option String) :
    Except Usage Side :=
  match Opt.ofLongName? place name with
  | none => .error .error
  | some o => s.option o value

/-- A script behind the name of a command that takes them. -/
def script (command : CommandName) (s : Side) (text : String) : Except Usage Side := do
  let s ← s.settle
  if command.takesScripts then return { s with scripts := s.scripts ++ [text] } else throw .error

end Side

end Calculator.CommandLine
