/-
# Calculator.Proofs.Command.Presentation -- how an answer is written is not what it says

A configuration says in which colours a command writes, and how much.  Neither changes what
the command does: the blocks that `run` and `repl` write, and how a command ends, are known
before a report is chosen (`content?`).  The report decides about sequences, about reasons, and
whether anything is written at all.

* `execute_of_content`: an answer is the content, written;
* `execute_ne_configuration`: no command fails over its configuration;
* `execute_failure_eq`, `execute_uncolors`, `execute_lines_eq`: the failure, the colours, and
  the commands that are asked for their output;
* `execute_presented`: all of it, for all commands but the one that writes the configuration.
-/
import Calculator.Proofs.Command.Coloring
import Calculator.Proofs.Command.Listing

namespace Calculator

set_option autoImplicit false

open Terminal (Report Uncolors stripped uncolors_of_plain)

/-- The configuration with a choice of colours and a verbosity. -/
def Configuration.presented (c : Configuration) (color : ColorChoice) (verbosity : Verbosity) :
    Configuration :=
  { c with color, verbosity }

/-! ## How much is written -/

namespace Terminal.Report

variable (r : Report) (blocks : List Block)

/-- How a block is written depends on the colours alone. -/
theorem line_congr {r' : Report} (same : r.colored = r'.colored) : r.line = r'.line := by
  funext block
  cases r
  cases same
  cases block <;> rfl

theorem note_congr {r' : Report} (same : r.colored = r'.colored) : r.note = r'.note := by
  cases r
  cases same
  rfl

theorem write_unexplained (loud : r.quiet = false) (explains : r.explains = false) :
    r.write blocks = blocks.map r.line := by
  rw [r.write_of_loud loud, List.map_eq_flatMap]
  apply List.flatMap_congr
  intro block _
  simp [blockLines, reasons, explains]

theorem write_explained (loud : r.quiet = false) (explains : r.explains = true) :
    r.write blocks = blocks.flatMap fun block =>
      r.line block :: (block.failure?.map r.note).toList := by
  rw [r.write_of_loud loud]
  apply List.flatMap_congr
  intro block _
  simp [blockLines, reasons, explains]

end Terminal.Report

namespace Command

/-! ## The history and the keypad -/

section Asked

variable (r : Report)

theorem executeHistory_congr {r' : Report} (same : r.colored = r'.colored) (settings : Settings)
    (scripts : List String) (format : HistoryFormat) :
    executeHistory r settings scripts format = executeHistory r' settings scripts format := by
  have text (history : History) : r.historyText history = r'.historyText history :=
    congrFun (r.line_congr same) (.history history)
  simp only [executeHistory, text]

/-- How `history` ends depends on the scripts, and on the room for the history. -/
theorem executeHistory_failure (settings : Settings) (scripts : List String)
    (format : HistoryFormat) :
    (executeHistory r settings scripts format).failure =
      if settings.capacity ≤ History.greatestCapacity then
        (Script.firstFault? scripts).map .calculation
      else some .noRoom := by
  split
  case isTrue room =>
    rw [executeHistory, Session.start?_of_le room]
    dsimp only
    rw [runAll_eq]
    cases Script.firstFault? scripts <;> rfl
  case isFalse large =>
    rw [executeHistory_of_lt r (Nat.lt_of_not_le large)]
    rfl

theorem executeKeys_congr {r' : Report} (same : r.colored = r'.colored) :
    executeKeys r = executeKeys r' := by
  have text : r.keys = r'.keys := congrFun (r.line_congr same) .keys
  rw [executeKeys, executeKeys, text]

theorem uncolors_executeHistory (settings : Settings) (scripts : List String)
    (format : HistoryFormat) :
    Uncolors (executeHistory r settings scripts format).output
      (executeHistory r.plain settings scripts format).output := by
  rcases Nat.lt_or_ge History.greatestCapacity settings.capacity with large | room
  · rw [executeHistory_of_lt r large, executeHistory_of_lt r.plain large]
    exact uncolors_output .nil _
  · have left := ((Session.spelled_start settings).pressEach
      (Script.keysUntilFault scripts).flatten).1
    rw [executeHistory, executeHistory, Session.start?_of_le room]
    dsimp only
    rw [runAll_eq]
    cases Script.firstFault? scripts with
    | some fault => exact uncolors_output .nil _
    | none =>
        cases format with
        | text =>
            have text := r.uncolors_historyText left.entries
            have empty (log : History) : r.historyText log = "" ↔ r.plain.historyText log = "" :=
              (r.historyText_eq_empty_iff log).trans (r.plain.historyText_eq_empty_iff log).symm
            dsimp only
            simp only [String.isEmpty_iff, empty]
            split
            · exact uncolors_output .nil none
            · exact uncolors_output (.cons text .nil) none
        | json =>
            dsimp only
            split
            · exact uncolors_output .nil none
            · exact uncolors_output (.cons (Report.uncolors_historyJson _) .nil) none

theorem uncolors_executeKeys : Uncolors (executeKeys r).output (executeKeys r.plain).output :=
  uncolors_output (.cons r.uncolors_trimEnd_keys .nil) none

end Asked

/-! ## Every command -/

/-- What is written in blocks. -/
def content? (settings : Settings) (outside : Surroundings) : Command → Option Content
  | .run a => some (runContent settings a outside)
  | .repl trace =>
      some (.inSession settings fun s => replContent trace s (Text.byteLines outside.input))
  | .history _ _ => none
  | .config => none
  | .keys => none

theorem allScripts_ne_configuration (a : RunArguments) (outside : Surroundings)
    (fault : Configuration.Fault) : a.allScripts outside ≠ .error (.configuration fault) := by
  have file : a.fileScripts outside ≠ .error (.configuration fault) := by
    unfold RunArguments.fileScripts
    repeat' split
    all_goals simp
  unfold RunArguments.allScripts
  split
  · rename_i failure missing
    rw [missing] at file
    simpa using file
  · split <;> simp

theorem replContent_ne_configuration (trace : Bool) (s : Session) (input : List Text.Bytes)
    (fault : Configuration.Fault) :
    (replContent trace s input).failure ≠ some (.configuration fault) := by
  induction input generalizing s with
  | nil => simp [replContent]
  | cons bytes input ih =>
      rw [replContent]
      cases Text.decode? bytes with
      | none => simp
      | some text =>
          dsimp only
          cases Line.ofText text with
          | quit => simp
          | _ => exact ih _

section Execute

variable (terminal : Bool) (c : Configuration) (outside : Surroundings) {command : Command}

theorem execute_of_content {content : Content}
    (written : command.content? c.session outside = some content) :
    execute terminal c outside command = content.answer (c.report terminal) := by
  cases command with
  | run a =>
      cases written
      exact executeRun_eq (c.report terminal) c.session a outside
  | repl trace =>
      cases written
      exact executeRepl_eq (c.report terminal) trace c.session outside
  | _ => cases written

theorem content_spelled {content : Content}
    (written : command.content? c.session outside = some content) :
    ∀ block ∈ content.blocks, block.Spelled c.session.errorIndicator := by
  cases command with
  | run a =>
      cases written
      exact runContent_spelled c.session a outside
  | repl trace =>
      cases written
      have started := replContent_spelled (Session.spelled_start c.session) trace
        (Text.byteLines outside.input)
      exact Content.of_inSession
        (P := fun content => ∀ block ∈ content.blocks, block.Spelled c.session.errorIndicator)
        (List.forall_mem_nil _) started
  | _ => cases written

/-- Without content of its own a command writes the history or the keypad, if it does not
write the configuration. -/
theorem of_content?_eq_none {settings : Settings} (writes : command ≠ .config)
    (none : command.content? settings outside = none) :
    (∃ scripts format, command = .history scripts format) ∨ command = .keys := by
  cases command with
  | history scripts format => exact .inl ⟨scripts, format, rfl⟩
  | keys => exact .inr rfl
  | config => exact absurd rfl writes
  | run a => cases none
  | repl trace => cases none

/-- A command does not fail over its configuration; that is looked at before. -/
theorem execute_ne_configuration (fault : Configuration.Fault) :
    (execute terminal c outside command).failure ≠ some (.configuration fault) := by
  cases command with
  | run a =>
      rw [execute_of_content terminal c outside rfl]
      show (runContent c.session a outside).failure ≠ _
      have found := allScripts_ne_configuration a outside fault
      rw [runContent]
      cases given : a.allScripts outside with
      | error failure =>
          rw [given] at found
          simpa using found
      | ok scripts =>
          have read : (Script.firstFault? scripts).map Failure.calculation ≠
              some (.configuration fault) := by
            cases Script.firstFault? scripts <;> simp
          exact Content.of_inSession (P := fun content => content.failure ≠ _) (by simp) read
  | repl trace =>
      rw [execute_of_content terminal c outside rfl]
      have obeyed := replContent_ne_configuration trace (.start c.session)
        (Text.byteLines outside.input) fault
      exact Content.of_inSession (P := fun content => content.failure ≠ _) (by simp) obeyed
  | history scripts format =>
      show (executeHistory _ c.session scripts format).failure ≠ _
      rw [executeHistory_failure]
      split
      · cases Script.firstFault? scripts <;> simp
      · simp
  | config => simp [execute, executeConfig, Answer.done]
  | keys => simp [execute, executeKeys, Answer.done]

variable (writes : command ≠ .config)
include writes

/-- How a command ends depends neither on the colours nor on the verbosity. -/
theorem execute_failure_eq (color : ColorChoice) (verbosity : Verbosity) :
    (execute terminal (c.presented color verbosity) outside command).failure =
      (execute terminal c outside command).failure := by
  cases written : command.content? c.session outside with
  | some content =>
      have presented := execute_of_content terminal (c.presented color verbosity) outside written
      rw [execute_of_content terminal c outside written, presented]
      rfl
  | none =>
      rcases of_content?_eq_none outside writes written with ⟨scripts, format, rfl⟩ | rfl
      · have failed (r : Report) := executeHistory_failure r c.session scripts format
        exact (failed _).trans (failed _).symm
      · have succeeded (r : Report) : (executeKeys r).failure = none := rfl
        exact (succeeded _).trans (succeeded _).symm

/-- What is asked for as such is written whatever the verbosity. -/
theorem execute_lines_eq (none : command.content? c.session outside = none) (color : ColorChoice)
    (verbosity other : Verbosity) :
    (execute terminal (c.presented color verbosity) outside command).lines =
      (execute terminal (c.presented color other) outside command).lines := by
  rcases of_content?_eq_none outside writes none with ⟨scripts, format, rfl⟩ | rfl
  · apply congrArg Answer.lines
    apply executeHistory_congr
    rfl
  · apply congrArg Answer.lines
    apply executeKeys_congr
    rfl

/-- Without its escape sequences an output in colours is the output without colours. -/
theorem execute_uncolors (unescaped : '\x1b' ∉ c.session.errorIndicator.toList)
    (color : ColorChoice) (verbosity : Verbosity) :
    Uncolors (execute terminal (c.presented color verbosity) outside command).output
      (execute terminal (c.presented .never verbosity) outside command).output := by
  cases written : command.content? c.session outside with
  | some content =>
      have spelled := content_spelled c outside written
      rw [execute_of_content terminal (c.presented color verbosity) outside written,
        execute_of_content terminal (c.presented .never verbosity) outside written]
      exact uncolors_output (Report.uncolors_write _ unescaped spelled) content.failure
  | none =>
      rcases of_content?_eq_none outside writes written with ⟨scripts, format, rfl⟩ | rfl
      · exact uncolors_executeHistory _ c.session scripts format
      · exact uncolors_executeKeys _

/-- **Colours and verbosity change how an answer is written, not what it says.**  For every
command but the one that writes the configuration, and every error indicator without the
escape character:

* the command succeeds or fails alike, with the same failure;
* in any colours, what is left of the output without its escape sequences is the output
  without colours;
* `history` and `keys` write the same lines whatever the verbosity;
* `run` and `repl` write nothing when quiet.  A normal output is a line for each block, and an
  explained one the same lines, with the reason directly behind each frame that failed. -/
theorem execute_presented (unescaped : '\x1b' ∉ c.session.errorIndicator.toList) :
    (∀ color verbosity,
      (execute terminal (c.presented color verbosity) outside command).failure =
        (execute terminal c outside command).failure) ∧
    (∀ color verbosity,
      stripped (execute terminal (c.presented color verbosity) outside command).output =
        (execute terminal (c.presented .never verbosity) outside command).output) ∧
    (command.content? c.session outside = none → ∀ color verbosity other,
      (execute terminal (c.presented color verbosity) outside command).lines =
        (execute terminal (c.presented color other) outside command).lines) ∧
    ∀ content, command.content? c.session outside = some content → ∀ color,
      let r := (c.presented color .normal).report terminal
      (execute terminal (c.presented color .quiet) outside command).lines = [] ∧
      (execute terminal (c.presented color .normal) outside command).lines =
        content.blocks.map r.line ∧
      ∀ verbosity, verbosity = .verbose ∨ verbosity = .debug →
        (execute terminal (c.presented color verbosity) outside command).lines =
          content.blocks.flatMap fun block =>
            r.line block :: (block.failure?.map r.note).toList := by
  refine ⟨?_, ?_, ?_, ?_⟩
  · exact execute_failure_eq terminal c outside writes
  · intro color verbosity
    exact (execute_uncolors terminal c outside writes unescaped color verbosity).stripped
  · exact execute_lines_eq terminal c outside writes
  · intro content written color r
    have lines (verbosity : Verbosity) :
        (execute terminal (c.presented color verbosity) outside command).lines =
          ((c.presented color verbosity).report terminal).write content.blocks :=
      congrArg Answer.lines
        (execute_of_content terminal (c.presented color verbosity) outside written)
    refine ⟨?_, ?_, fun verbosity explains => ?_⟩
    · rw [lines]
      exact Report.write_of_quiet _ rfl _
    · rw [lines, Report.write_unexplained]
      · rfl
      · rfl
    · have same : r.colored = ((c.presented color verbosity).report terminal).colored := rfl
      rw [lines, r.line_congr same, r.note_congr same]
      rcases explains with rfl | rfl
      · exact Report.write_explained _ _ rfl rfl
      · exact Report.write_explained _ _ rfl rfl

end Execute

/-- A division by zero, in colours or not, with its reason or without. -/
theorem execute_presented_failure :
    let c : Configuration := ⟨.normal, .auto, false, .default⟩
    let outside : Surroundings := ⟨[], []⟩
    let command : Command := .run ⟨["1/0="], none, false, false⟩
    command ≠ .config ∧ '\x1b' ∉ c.session.errorIndicator.toList ∧
      stripped (execute true (c.presented .always .verbose) outside command).output =
        (execute true (c.presented .never .verbose) outside command).output ∧
      (execute true (c.presented .never .verbose) outside command).lines =
        ["1 ÷ 0 | Error", "  Division by zero"] ∧
      (execute true (c.presented .never .normal) outside command).lines = ["1 ÷ 0 | Error"] := by
  intro c outside command
  have writes : command ≠ .config := by simp [command]
  have unescaped : '\x1b' ∉ c.session.errorIndicator.toList := by decide
  obtain ⟨-, colors, -⟩ := execute_presented true c outside writes unescaped
  exact ⟨writes, unescaped, colors .always .verbose, by decide +kernel, by decide +kernel⟩

end Command

end Calculator
