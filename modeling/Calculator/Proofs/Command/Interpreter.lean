/-
# Calculator.Proofs.Command.Interpreter -- one interpreter behind two commands

`run` reads a file, makes scripts of its lines and presses them; `repl` reads its input line
by line and presses each line as it comes.  Apart from directives, which only `repl` obeys,
they press the same scripts in the same session, so what they write is the same as long as
the scripts can be read (`replLines_append`).  At the first one that cannot be read `run` ends;
`repl` reports it and goes on with the session it has (`replLines_unreadable`).

* `Line.ofText_of_undirected`: which lines are pressed;
* `executeRun_of_file`: what `run` does with a file;
* `repl_run`: the two commands on one text.
-/
import Calculator.Proofs.Command.Content
import Calculator.Proofs.Text.Lines

namespace Calculator

set_option autoImplicit false

open Terminal (Report)

namespace Command

/-- The lines that `repl` obeys instead of pressing them. -/
def directives : List String := [":quit", ":q", ":history", ":clear-history", ":keys"]

theorem Line.ofText_of_undirected {line : String} (undirected : Text.trim line ∉ directives) :
    Line.ofText line = ((Script.ofLine? line).map Line.script).getD .blank := by
  rw [ofText]
  split
  case h_1 blank =>
    rw [Script.ofLine?, blank]
    rfl
  case h_7 visible _ _ _ _ _ =>
    rw [Script.ofLine?, if_neg (by simpa using visible)]
    rfl
  all_goals
    rename_i directive
    rw [directive] at undirected
    exact absurd (by decide) undirected

section Lines

variable (r : Report) (trace : Bool) (s : Session)

/-- A line that is no directive is pressed, if it is not blank. -/
theorem replLines_cons {line : String} (undirected : Text.trim line ∉ directives)
    (rest : List Text.Bytes) :
    replLines r trace s (Text.encode line :: rest) =
      match Script.ofLine? line with
      | none => replLines r trace s rest
      | some script =>
          let (next, answer) := stepLine r trace s (.script script)
          (replLines r trace next rest).after answer.lines := by
  have obeyed := Line.ofText_of_undirected undirected
  have goesOn : Line.ofText line ≠ .quit := by
    rw [obeyed]
    cases Script.ofLine? line <;> simp
  rw [replLines_step r trace s (Text.decode?_encode line) goesOn, obeyed]
  cases Script.ofLine? line <;> rfl

/-- Lines that can be read are pressed as `run` presses them. -/
theorem replLines_append {lines : List String}
    (undirected : ∀ line ∈ lines, Text.trim line ∉ directives)
    (readable : ∀ line ∈ lines, Script.Readable line) (rest : List Text.Bytes) :
    replLines r trace s (lines.map Text.encode ++ rest) =
      let (next, answer) := r.applyScripts trace s (lines.filterMap Script.ofLine?)
      (replLines r trace next rest).after answer.lines := by
  induction lines generalizing s with
  | nil => rfl
  | cons line lines ih =>
      obtain ⟨undirected, undirected'⟩ := List.forall_mem_cons.mp undirected
      obtain ⟨readable, readable'⟩ := List.forall_mem_cons.mp readable
      rw [List.map_cons, List.cons_append, replLines_cons r trace s undirected]
      cases made : Script.ofLine? line with
      | none =>
          rw [List.filterMap_cons_none made]
          exact ih s undirected' readable'
      | some script =>
          obtain ⟨keys, read⟩ := Script.readable_of_ofLine? made readable
          rw [List.filterMap_cons_some made, r.applyScripts_cons trace s _ read]
          dsimp only
          rw [stepLine_of_keys r trace s read, ih _ undirected' readable']
          simp only [Answer.after, List.append_assoc]

theorem replLines_of_readable {lines : List String}
    (undirected : ∀ line ∈ lines, Text.trim line ∉ directives)
    (readable : ∀ line ∈ lines, Script.Readable line) :
    replLines r trace s (lines.map Text.encode) =
      (r.applyScripts trace s (lines.filterMap Script.ofLine?)).2 := by
  have all := replLines_append r trace s undirected readable []
  have finished := r.applyScripts_of_readable trace s (Script.readable_filterMap readable)
  rw [List.append_nil] at all
  rw [all]
  show Answer.mk (_ ++ []) none = _
  rw [List.append_nil, ← finished]

/-- A line that cannot be read is reported, and the next one pressed. -/
theorem replLines_unreadable {earlier : List String} {bad : String} {fault : Fault}
    (later : List String)
    (undirected : ∀ line ∈ earlier ++ bad :: later, Text.trim line ∉ directives)
    (readable : ∀ line ∈ earlier, Script.Readable line)
    (unreadable : Script.keys bad = .error fault) :
    replLines r trace s ((earlier ++ bad :: later).map Text.encode) =
      let (left, answer) := r.applyScripts trace s (earlier.filterMap Script.ofLine?)
      (replLines r trace left (later.map Text.encode)).after
        (answer.lines ++ r.emit ("! " ++ fault.message)) := by
  have trimmed := (Script.keys_trim bad).trans unreadable
  obtain ⟨before, itself⟩ := List.forall_mem_append.mp undirected
  rw [List.map_append, List.map_cons, replLines_append r trace s before readable]
  dsimp only
  rw [replLines_cons r trace _ (itself bad List.mem_cons_self), Script.ofLine?_of_error unreadable]
  dsimp only
  rw [stepLine_unreadable r trace _ trimmed]
  simp only [Answer.after, Answer.done, List.append_assoc]

/-- On texts `repl` does not fail, whatever their lines ask for. -/
theorem replLines_failure (lines : List String) :
    (replLines r trace s (lines.map Text.encode)).failure = none := by
  induction lines generalizing s with
  | nil => rfl
  | cons line lines ih =>
      by_cases quit : Line.ofText line = .quit
      · rw [List.map_cons, replLines, Text.decode?_encode]
        dsimp only
        rw [quit]
        rfl
      · rw [List.map_cons, replLines_step r trace s (Text.decode?_encode line) quit]
        exact ih _

end Lines

section File

variable (r : Report) (settings : Settings) (trace history : Bool) {name text : String}
  {outside : Surroundings} (file : outside.file? name = some (Text.encode text))
  (visible : ∃ line ∈ Text.lines text, Text.trim line ≠ "")
include file visible

theorem allScripts_of_file : RunArguments.allScripts ⟨[], some name, trace, history⟩ outside =
    .ok ((Text.lines text).filterMap Script.ofLine?) := by
  have present : (Text.lines text).filterMap Script.ofLine? ≠ [] := by
    obtain ⟨line, member, visible⟩ := visible
    apply List.ne_nil_of_mem (a := Text.trim line)
    exact List.mem_filterMap.mpr ⟨line, member, if_neg (by simpa using visible)⟩
  simp [RunArguments.allScripts, RunArguments.fileScripts, file, Text.decode?_encode,
    Script.ofLines_eq, present]

variable (room : settings.capacity ≤ History.greatestCapacity)
include room

/-- What `run` does with a file, unless the history is written as well. -/
theorem executeRun_of_file
    (plain : history = false ∨ (r.applyScripts trace (.start settings)
      ((Text.lines text).filterMap Script.ofLine?)).2.failure ≠ none) :
    executeRun r settings ⟨[], some name, trace, history⟩ outside =
      (r.applyScripts trace (.start settings) ((Text.lines text).filterMap Script.ofLine?)).2 := by
  rw [executeRun, allScripts_of_file trace history file visible]
  dsimp only
  rw [Session.start?_of_le room]
  dsimp only
  rw [if_neg]
  obtain rfl | failed := plain
  · simp
  · simp [failed]

/-- `run` ends at the first line of a file that cannot be read. -/
theorem executeRun_unreadable {earlier later : List String} {bad : String} {fault : Fault}
    (cut : Text.lines text = earlier ++ bad :: later)
    (readable : ∀ line ∈ earlier, Script.Readable line)
    (unreadable : Script.keys bad = .error fault) :
    executeRun r settings ⟨[], some name, trace, history⟩ outside =
      (Answer.failed (.calculation fault)).after
        (r.applyScripts trace (.start settings) (earlier.filterMap Script.ofLine?)).2.lines := by
  have trimmed := (Script.keys_trim bad).trans unreadable
  have pressed := r.applyScripts_unreadable trace (.start settings)
    (Script.readable_filterMap readable) trimmed (later.filterMap Script.ofLine?)
  rw [← List.filterMap_cons_some (Script.ofLine?_of_error unreadable), ← List.filterMap_append,
    ← cut] at pressed
  have failed : (r.applyScripts trace (.start settings)
      ((Text.lines text).filterMap Script.ofLine?)).2.failure ≠ none := by
    simp [pressed, Answer.after, Answer.failed]
  rw [executeRun_of_file r settings trace history file visible room (.inr failed), pressed]

end File

/-- **`repl` and `run` read a text alike.**  Let a text without directives, and with more
than blanks, be the standard input and the content of a file.  If there can be no room for the
history, both commands are stopped before they write anything.

If there can, `repl` does not fail.  If all of the lines can be read, `run` on that file gives
the answer of `repl`, unless it is to write the history as well.  If not, `run` fails over the
first unknown character of the first line that cannot be read.  It has written by then what
`repl` has written before it reports that line; `repl` goes on with the lines behind it, in the
session that those in front of it have left.  Quiet, neither writes anything. -/
theorem repl_run (terminal : Bool) (c : Configuration) (trace history : Bool) {name text : String}
    {outside : Surroundings} (input : outside.input = Text.encode text)
    (file : outside.file? name = some (Text.encode text))
    (undirected : ∀ line ∈ Text.lines text, Text.trim line ∉ directives)
    (visible : ∃ line ∈ Text.lines text, Text.trim line ≠ "") :
    let report := c.report terminal
    let repl := execute terminal c outside (.repl trace)
    let run := execute terminal c outside (.run ⟨[], some name, trace, history⟩)
    (History.greatestCapacity < c.session.capacity →
      repl = .failed .noRoom ∧ run = .failed .noRoom) ∧
    (c.session.capacity ≤ History.greatestCapacity →
      repl.failure = none ∧
      ((∀ line ∈ Text.lines text, Script.Readable line) → history = false → run = repl) ∧
      ((∃ line ∈ Text.lines text, ¬ Script.Readable line) →
        ∃ earlier bad later unknown, Text.lines text = earlier ++ bad :: later ∧
          (∀ line ∈ earlier, Script.Readable line) ∧ Script.firstUnknown? bad = some unknown ∧
          let fault : Fault := .unknownKey (String.singleton unknown)
          let left := (report.applyScripts trace (.start c.session)
            (earlier.filterMap Script.ofLine?)).1
          run.failure = some (.calculation fault) ∧
            repl.lines = run.lines ++ report.emit ("! " ++ fault.message) ++
              (replLines report trace left (later.map Text.encode)).lines)) ∧
    (c.verbosity.isQuiet = true → repl.lines = [] ∧ run.lines = []) := by
  intro report repl run
  have given := allScripts_of_file trace history file visible
  refine ⟨fun large => ⟨executeRepl_of_lt report trace large outside,
    executeRun_of_lt report large given⟩, fun room => ?_, fun quiet => ⟨?_, ?_⟩⟩
  · have whole : repl =
        replLines report trace (.start c.session) ((Text.lines text).map Text.encode) := by
      rw [← Text.byteLines_encode, ← input]
      exact executeRepl_of_le report trace room outside
    refine ⟨?_, ?_, ?_⟩
    · rw [whole]
      exact replLines_failure report trace _ _
    · intro readable plain
      rw [whole, replLines_of_readable report trace _ undirected readable]
      exact executeRun_of_file report c.session trace history file visible room (.inl plain)
    · intro unreadable
      obtain ⟨earlier, bad, later, fault, cut, readable, met⟩ :=
        Script.exists_first_unreadable unreadable
      obtain ⟨unknown, first, rfl⟩ := Script.keys_eq_error_iff.mp met
      refine ⟨earlier, bad, later, unknown, cut, readable, first, ?_⟩
      intro fault left
      -- both commands press the earlier lines; what they do then differs
      have stopped : run = (Answer.failed (.calculation fault)).after _ :=
        executeRun_unreadable report c.session trace history file visible room cut readable met
      have goesOn := replLines_unreadable report trace (.start c.session) later (cut ▸ undirected)
        readable met
      rw [← cut, ← whole] at goesOn
      rw [stopped, goesOn]
      exact ⟨rfl, by simp [Answer.after, Answer.failed, left, fault]⟩
  · exact executeRepl_of_quiet quiet c.session outside trace
  · exact executeRun_of_quiet quiet c.session outside _

/-- A capacity that is accepted, and a text of one sum: both commands are stopped. -/
theorem repl_run_stopped :
    let text := "1+1="
    let outside : Surroundings := ⟨[("sums", Text.encode text)], Text.encode text⟩
    let c : Configuration := ⟨.normal, .never, false, Settings.default.withCapacity (2 ^ 64 - 1)⟩
    c.fault? = none ∧ Text.lines text = ["1+1="] ∧ Script.Readable "1+1=" ∧
      execute false c outside (.repl false) = .failed .noRoom ∧
      execute false c outside (.run ⟨[], some "sums", false, false⟩) = .failed .noRoom := by
  intro text outside c
  have cut : Text.lines text = ["1+1="] := by decide
  have large : History.greatestCapacity < c.session.capacity := by decide
  have given := allScripts_of_file false false (show outside.file? "sums" = some (Text.encode text) from rfl)
    ⟨"1+1=", by simp [cut], by decide⟩
  exact ⟨by decide +kernel, cut, ⟨_, rfl⟩, executeRepl_of_lt (c.report false) false large outside,
    executeRun_of_lt (c.report false) large given⟩

/-- Four lines, of which the third cannot be read.  The second is blank. -/
theorem repl_run_unknown :
    let text := "1+1=\r\n \n2^\n3"
    let outside : Surroundings := ⟨[("sums", Text.encode text)], Text.encode text⟩
    let c : Configuration := ⟨.normal, .never, false, .default⟩
    Text.lines text = ["1+1=", " ", "2^", "3"] ∧
      (execute false c outside (.repl false)).failure = none ∧
      (execute false c outside (.run ⟨[], some "sums", false, false⟩)).failure =
        some (.calculation (.unknownKey "^")) ∧
      ∃ rest, (execute false c outside (.repl false)).lines =
        (execute false c outside (.run ⟨[], some "sums", false, false⟩)).lines ++
          ["! Unknown key: '^'"] ++ rest := by
  intro text outside c
  have cut : Text.lines text = ["1+1=", " ", "2^", "3"] := by decide
  have undirected : ∀ line ∈ Text.lines text, Text.trim line ∉ directives := by
    rw [cut]
    decide
  have visible : ∃ line ∈ Text.lines text, Text.trim line ≠ "" := by
    rw [cut]
    decide
  have power : ∀ line ∈ ["1+1=", " ", "2^", "3"],
      Script.firstUnknown? line = none ∨ Script.firstUnknown? line = some '^' := by decide
  have unreadable : ∃ line ∈ Text.lines text, ¬ Script.Readable line := by
    refine ⟨"2^", by rw [cut]; decide, ?_⟩
    rintro ⟨keys, read⟩
    cases read
  have input : outside.input = Text.encode text := rfl
  have file : outside.file? "sums" = some (Text.encode text) := rfl
  obtain ⟨-, answered, -⟩ := repl_run false c false false input file undirected visible
  obtain ⟨done, -, failed⟩ := answered (by decide)
  obtain ⟨earlier, bad, later, unknown, whole, -, first, failure, lines⟩ := failed unreadable
  have member : bad ∈ ["1+1=", " ", "2^", "3"] := by
    rw [← cut, whole]
    simp
  obtain rfl : unknown = '^' := by
    rcases power bad member with known | known
    · rw [known] at first
      cases first
    · rw [known] at first
      exact (Option.some.inj first).symm
  have reported : (c.report false).emit
      ("! " ++ (Fault.unknownKey (String.singleton '^')).message) = ["! Unknown key: '^'"] := by
    decide
  rw [reported] at lines
  exact ⟨cut, done, failure, _, lines⟩

end Command

end Calculator
