/-
# Calculator.Main -- the program

The outer layer: it collects the arguments, the environment, the standard input and
the file that is named, asks the library for the answer, and writes it.  The
standard input is read only for `repl`.  The environment's variables for the program
start with its name in capitals.

A failure is reported on the standard error stream with exit status one, a mistake
on the command line with status two.  A program that is stopped says why, and no more.
-/
import Calculator.CommandLine.Request

namespace Calculator.Program

set_option autoImplicit false

open Calculator.CommandLine

/-- The name that the program was started by. -/
def programName : IO String := do return (← IO.appPath).fileStem.getD "calculator"

def ownVariable (program name : String) : IO (Option String) :=
  IO.getEnv (program.toUpper ++ "_" ++ name)

def usageText (program : String) : String :=
  "usage: " ++ program ++ " [options] command\n" ++
  "commands:\n" ++
  "  run [--trace] [--history] [-f FILE] [SCRIPT]...\n" ++
  "  repl [--trace]\n" ++
  "  history [-f text|json] SCRIPT...\n" ++
  "  config\n" ++
  "  keys\n" ++
  "options:\n" ++
  "  -v, -q, --color auto|always|never, --log-json, --history-capacity N,\n" ++
  "  --zero-tolerance X, --error-indicator TEXT, -h, -V\n"

def versionText (program : String) : String := program ++ " 0.1.0\n"

partial def readInput (input : IO.FS.Stream) (soFar : ByteArray) : IO ByteArray := do
  let chunk ← input.read 65536
  if chunk.isEmpty then return soFar else readInput input (soFar ++ chunk)

/-- The file of a command, if it names one that can be read. -/
def readFiles (command : Command) : IO (List (String × Text.Bytes)) := do
  match command with
  | .run { file := some name, .. } =>
    try
      return [(name, (← IO.FS.readBinFile name).toList)]
    catch
      | .noFileOrDirectory .. => return []
      | problem => throw problem
  | _ => return []

/-- What a command can see of the outside. -/
def look (command : Command) : IO Surroundings := do
  let files ← readFiles command
  match command with
  | .repl _ => return ⟨files, (← readInput (← IO.getStdin) .empty).toList⟩
  | _ => return ⟨files, []⟩

/-- Whether the standard output is a terminal that is to have colours. -/
def hasColors : IO Bool := do
  return (← (← IO.getStdout).isTty) && (← IO.getEnv "NO_COLOR").isNone &&
    (← IO.getEnv "CLICOLOR") != some "0"

/-- Answers a command line; the result is the exit status. -/
def answer (arguments : List String) : IO UInt32 := do
  let program ← programName
  let environment : Environment :=
    ⟨← ownVariable program "HISTORY_CAPACITY", ← ownVariable program "ZERO_TOLERANCE"⟩
  match Request.ofArguments environment arguments with
  | .error .help =>
    IO.print (usageText program)
    return 0
  | .error .version =>
    IO.print (versionText program)
    return 0
  | .error .error =>
    IO.eprint (usageText program)
    return 2
  | .ok request =>
    let answer := request.execute (← hasColors) (← look request.command)
    IO.print answer.output
    match answer.failure with
    | none => pure ()
    | some .noRoom => IO.eprintln Failure.noRoom.message
    | some failure => IO.eprintln ("Error: " ++ failure.message)
    return UInt32.ofNat answer.status

end Calculator.Program

def main (arguments : List String) : IO UInt32 := Calculator.Program.answer arguments
