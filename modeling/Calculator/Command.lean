/-
# Calculator.Command -- what the program can be asked to do

`run` presses its scripts in one session and writes a frame for each, or for each
key when tracing; the scripts of a file follow those of the arguments.  It stops at
the first script that cannot be read.  `repl` does the same with the lines of the
standard input, but a line that cannot be read is reported and skipped, and a line
that is a directive is obeyed.  `history` writes nothing but the history.

A quiet report leaves out frames, notes and what the directives of `repl` write.
What was asked for as such (`history`, `config`, `keys`) is always written.
-/
import Calculator.Terminal

namespace Calculator

set_option autoImplicit false

open Terminal (Report)

inductive HistoryFormat where
  | text
  | json
  deriving DecidableEq, Repr

/-- Scripts to run one after the other, and what to write about them. -/
structure RunArguments where
  scripts : List String
  file : Option String
  trace : Bool
  history : Bool
  deriving DecidableEq, Repr

inductive Command where
  | run (arguments : RunArguments)
  | repl (trace : Bool)
  | history (scripts : List String) (format : HistoryFormat)
  | config
  | keys
  deriving DecidableEq, Repr

/-- The files that exist, and the standard input. -/
structure Surroundings where
  files : List (String × Text.Bytes)
  input : Text.Bytes

def Surroundings.file? (s : Surroundings) (name : String) : Option Text.Bytes :=
  s.files.lookup name

/-! ## Answers -/

inductive Failure where
  | configuration (fault : Configuration.Fault)
  | noScripts
  | missingFile
  | notUtf8
  | calculation (fault : Fault)
  /-- There is no room for the history.  The program does not report this; it is stopped. -/
  | noRoom
  deriving DecidableEq

def Failure.message : Failure → String
  | .configuration fault => "Configuration error: " ++ fault.message
  | .noScripts => "Invalid argument: no key scripts given; pass them as arguments or with --file"
  | .missingFile => "I/O error: No such file or directory (os error 2)"
  | .notUtf8 => "I/O error: stream did not contain valid UTF-8"
  | .calculation fault => fault.message
  | .noRoom => "capacity overflow"

/-- The lines written, and the failure that came after them. -/
structure Answer where
  lines : List String
  failure : Option Failure
  deriving DecidableEq

namespace Answer

def done (lines : List String) : Answer := ⟨lines, none⟩

def failed (failure : Failure) : Answer := ⟨[], some failure⟩

/-- The answer with lines written before it. -/
def after (lines : List String) (answer : Answer) : Answer :=
  ⟨lines ++ answer.lines, answer.failure⟩

/-- Everything written: each line with its end. -/
def output (answer : Answer) : String := String.join (answer.lines.map (· ++ "\n"))

/-- The exit status: one for a failure that is reported, another for being stopped. -/
def status (answer : Answer) : Nat :=
  match answer.failure with
  | none => 0
  | some .noRoom => 101
  | some _ => 1

end Answer

/-! ## Scripts -/

def Configuration.report (c : Configuration) (terminal : Bool) : Report :=
  ⟨c.color.resolve terminal, c.verbosity.isQuiet, c.verbosity.explains⟩

namespace Terminal.Report

/-- A line, unless the report is quiet. -/
def emit (r : Report) (line : String) : List String := if r.quiet then [] else [line]

/-- A frame's line, and its failure's reason. -/
def frameLines (r : Report) (line : String) (frame : Frame) : List String :=
  r.emit line ++ (r.failureNote? frame).toList.flatMap r.emit

/-- Presses keys and writes about each. -/
def traceKeys (r : Report) (s : Session) : List Key → Session × List String
  | [] => (s, [])
  | key :: keys =>
      let (s, frame) := s.press key
      let (last, lines) := traceKeys r s keys
      (last, r.frameLines (r.tracedFrame key frame) frame ++ lines)

/-- Reads a script, presses its keys, and writes about each or about the last. -/
def applyScript (r : Report) (trace : Bool) (s : Session) (script : String) : Session × Answer :=
  match Script.keys script with
  | .error fault => (s, .failed (.calculation fault))
  | .ok keys =>
      if trace then
        let (s, lines) := r.traceKeys s keys
        (s, .done lines)
      else
        let (s, frame) := s.pressAll keys
        (s, .done (r.frameLines (r.frame frame) frame))

/-- Applies scripts up to the first that fails. -/
def applyScripts (r : Report) (trace : Bool) (s : Session) : List String → Session × Answer
  | [] => (s, .done [])
  | script :: rest =>
      let (s, answer) := r.applyScript trace s script
      if answer.failure.isSome then (s, answer)
      else
        let (last, more) := applyScripts r trace s rest
        (last, more.after answer.lines)

end Terminal.Report

/-- The scripts of a text, one on each line that is not blank. -/
def Script.ofLines (text : String) : List String :=
  ((Text.lines text).map Text.trim).filter fun line => !line.isEmpty

namespace RunArguments

/-- The scripts of the file, if one is named. -/
def fileScripts (a : RunArguments) (outside : Surroundings) : Except Failure (List String) :=
  match a.file with
  | none => .ok []
  | some name =>
    match outside.file? name with
    | none => .error .missingFile
    | some bytes =>
      match Text.decode? bytes with
      | none => .error .notUtf8
      | some text => .ok (Script.ofLines text)

/-- All scripts; there must be one. -/
def allScripts (a : RunArguments) (outside : Surroundings) : Except Failure (List String) :=
  match a.fileScripts outside with
  | .error failure => .error failure
  | .ok more =>
      if (a.scripts ++ more).isEmpty then .error .noScripts else .ok (a.scripts ++ more)

end RunArguments

/-! ## Commands -/

namespace Command

def executeRun (r : Report) (settings : Settings) (a : RunArguments) (outside : Surroundings) :
    Answer :=
  match a.allScripts outside with
  | .error failure => .failed failure
  | .ok scripts =>
    match Session.start? settings with
    | none => .failed .noRoom
    | some s =>
      let (s, answer) := r.applyScripts a.trace s scripts
      if answer.failure.isNone && a.history && !s.history.entries.isEmpty then
        (Answer.done (r.emit (r.historyText s.history))).after answer.lines
      else answer

/-- What a line of the standard input asks for. -/
inductive Line where
  | blank
  | quit
  | history
  | clearHistory
  | keys
  | script (text : String)
  deriving DecidableEq, Repr

/-- Blanks around a line do not count; a directive is the whole line. -/
def Line.ofText (text : String) : Line :=
  match Text.trim text with
  | "" => .blank
  | ":quit" => .quit
  | ":q" => .quit
  | ":history" => .history
  | ":clear-history" => .clearHistory
  | ":keys" => .keys
  | other => .script other

/-- Obeys a line that does not end the session.  The fault of a script is reported, and
is no failure of the line. -/
def stepLine (r : Report) (trace : Bool) (s : Session) : Line → Session × Answer
  | .blank => (s, .done [])
  | .quit => (s, .done [])
  | .history => (s, .done (r.emit (r.historyText s.history)))
  | .clearHistory => (s.clearHistory, .done [])
  | .keys => (s, .done (r.emit r.keys))
  | .script text =>
      let (s, answer) := r.applyScript trace s text
      match answer.failure with
      | some (.calculation fault) =>
          (s, .done (answer.lines ++ r.emit ("! " ++ fault.message)))
      | _ => (s, answer)

/-- Obeys lines up to one that ends the session, fails, or is no text. -/
def replLines (r : Report) (trace : Bool) (s : Session) : List Text.Bytes → Answer
  | [] => .done []
  | bytes :: rest =>
      match Text.decode? bytes with
      | none => .failed .notUtf8
      | some text =>
        match Line.ofText text with
        | .quit => .done []
        | line =>
          let (s, answer) := stepLine r trace s line
          if answer.failure.isSome then answer
          else (replLines r trace s rest).after answer.lines

def executeRepl (r : Report) (settings : Settings) (trace : Bool) (outside : Surroundings) :
    Answer :=
  match Session.start? settings with
  | none => .failed .noRoom
  | some s => replLines r trace s (Text.byteLines outside.input)

/-- Runs scripts for what they leave, up to the first that cannot be read. -/
def runAll (s : Session) : List String → Session × Option Fault
  | [] => (s, none)
  | script :: rest =>
      match s.runScript script with
      | (s, .error fault) => (s, some fault)
      | (s, .ok _) => runAll s rest

def executeHistory (r : Report) (settings : Settings) (scripts : List String)
    (format : HistoryFormat) : Answer :=
  match Session.start? settings with
  | none => .failed .noRoom
  | some s =>
    match runAll s scripts with
    | (_, some fault) => .failed (.calculation fault)
    | (s, none) =>
      let text :=
        match format with
        | .text => r.historyText s.history
        | .json => Report.historyJson s.history
      .done (if text.isEmpty then [] else [text])

def executeConfig (c : Configuration) : Answer := .done [c.toJson.pretty]

/-- The keys without the blank line end behind the last of them. -/
def executeKeys (r : Report) : Answer := .done [Text.trimEnd r.keys]

def execute (terminal : Bool) (c : Configuration) (outside : Surroundings) : Command → Answer
  | .run a => executeRun (c.report terminal) c.session a outside
  | .repl trace => executeRepl (c.report terminal) c.session trace outside
  | .history scripts format => executeHistory (c.report terminal) c.session scripts format
  | .config => executeConfig c
  | .keys => executeKeys (c.report terminal)

end Command

end Calculator
