/-
# Calculator.Proofs.Command.Isolation -- what one line of an input can do

`repl` obeys its input line by line, in one session, and it reaches a line if nothing in
front of it ends the session (`Reached`).  What it writes up to there does not depend on what
follows, and what follows depends on the session that the earlier lines leave, and on nothing
else of them (`replLines_reached`).  So it is enough to know what each kind of line leaves:

* a blank line, the session as it is, and no output (`replLines_blank`);
* a line with an unknown key, the session as it is, and a report (`replLines_report`);
* a line that ends the session, or is no text, nothing at all (`replLines_quit`,
  `replLines_undecoded`).

`repl_isolated` says this of inputs, from which a line is deleted with its end.
-/
import Calculator.Proofs.Command.Interpreter
import Calculator.Proofs.Text.Deletion

namespace Calculator

set_option autoImplicit false

open Terminal (Report)

/-- A key is named in quotes. -/
theorem Fault.message_unknownKey (key : String) :
    (Fault.unknownKey key).message = "Unknown key: '" ++ key ++ "'" := rfl

theorem Answer.after_after (first second : List String) (answer : Answer) :
    (answer.after second).after first = answer.after (first ++ second) := by
  simp [after]

namespace Command

/-- The lines that end a session. -/
def quits : List String := [":quit", ":q"]

theorem Line.ofText_of_quits {line : String} (quit : Text.trim line ∈ quits) :
    Line.ofText line = .quit := by
  rw [quits, List.mem_pair] at quit
  rw [ofText]
  rcases quit with full | short
  · rw [full]
    rfl
  · rw [short]
    rfl

theorem Line.ofText_ne_quit {line : String} (other : Text.trim line ∉ quits) :
    Line.ofText line ≠ .quit := by
  intro quit
  rw [ofText] at quit
  split at quit
  case h_2 full => exact other (by simp [quits, full])
  case h_3 short => exact other (by simp [quits, short])
  all_goals cases quit

/-- A line is a text, and does not end the session. -/
def GoesOn (bytes : Text.Bytes) : Prop :=
  ∃ text, Text.decode? bytes = some text ∧ Text.trim text ∉ quits

/-- No line in front of an index ends the session or is no text. -/
def Reached (input : Text.Bytes) (index : Nat) : Prop :=
  ∀ bytes ∈ (Text.byteLines input).take index, GoesOn bytes

section Lines

variable (r : Report) (trace : Bool) (s : Session)

/-! ## One line -/

section Line

variable {bytes : Text.Bytes} {text : String} (decoded : Text.decode? bytes = some text)
include decoded

theorem replLines_quit (quit : Text.trim text ∈ quits) (rest : List Text.Bytes) :
    replLines r trace s (bytes :: rest) = .done [] := by
  rw [replLines, decoded]
  dsimp only
  rw [Line.ofText_of_quits quit]

theorem replLines_blank (blank : Text.trim text = "") (rest : List Text.Bytes) :
    replLines r trace s (bytes :: rest) = replLines r trace s rest := by
  have obeyed : Line.ofText text = .blank := by
    rw [Line.ofText, blank]
    rfl
  rw [replLines_step r trace s decoded (by simp [obeyed]), obeyed]
  rfl

/-- The report of a line with an unknown key names the first one. -/
theorem replLines_report (undirected : Text.trim text ∉ directives) {unknown : Char}
    (first : Script.firstUnknown? (Text.trim text) = some unknown) (rest : List Text.Bytes) :
    replLines r trace s (bytes :: rest) =
      (replLines r trace s rest).after
        (r.emit ("! Unknown key: '" ++ String.singleton unknown ++ "'")) := by
  have unreadable : Script.keys (Text.trim text) = .error (.unknownKey (String.singleton unknown)) :=
    Script.keys_eq_error_iff.mpr ⟨unknown, first, rfl⟩
  have obeyed : Line.ofText text = .script (Text.trim text) := by
    rw [Line.ofText_of_undirected undirected,
      Script.ofLine?_of_error ((Script.keys_trim text).symm.trans unreadable)]
    rfl
  have message : "! " ++ (Fault.unknownKey (String.singleton unknown)).message =
      "! Unknown key: '" ++ String.singleton unknown ++ "'" := by
    rw [Fault.message_unknownKey, ← String.toList_inj]
    simp
  rw [replLines_step r trace s decoded (by simp [obeyed]), obeyed,
    stepLine_unreadable r trace s unreadable, message]
  rfl

end Line

theorem replLines_undecoded {bytes : Text.Bytes} (undecoded : Text.decode? bytes = none)
    (rest : List Text.Bytes) : replLines r trace s (bytes :: rest) = .failed .notUtf8 := by
  rw [replLines, undecoded]

/-! ## Lines in front of others -/

/-- Behind lines that do not end the session, others are obeyed in the session that is left,
whatever they are. -/
theorem replLines_reached {earlier : List Text.Bytes} (reached : ∀ bytes ∈ earlier, GoesOn bytes) :
    ∃ left, ∀ rest, replLines r trace s (earlier ++ rest) =
      (replLines r trace left rest).after (replLines r trace s earlier).lines := by
  induction earlier generalizing s with
  | nil => exact ⟨s, fun rest => rfl⟩
  | cons bytes earlier ih =>
      obtain ⟨⟨text, decoded, other⟩, later⟩ := List.forall_mem_cons.mp reached
      obtain ⟨left, goesOn⟩ := ih (stepLine r trace s (Line.ofText text)).1 later
      refine ⟨left, fun rest => ?_⟩
      have step := replLines_step r trace s decoded (Line.ofText_ne_quit other)
      rw [List.cons_append, step, step]
      dsimp only
      rw [goesOn, Answer.after_after]
      rfl

/-- A blank line can be left out, also where it is not reached. -/
theorem replLines_append_blank (earlier : List Text.Bytes) {bytes : Text.Bytes} {text : String}
    (decoded : Text.decode? bytes = some text) (blank : Text.trim text = "")
    (rest : List Text.Bytes) :
    replLines r trace s (earlier ++ bytes :: rest) = replLines r trace s (earlier ++ rest) := by
  induction earlier generalizing s with
  | nil => exact replLines_blank r trace s decoded blank rest
  | cons other earlier ih =>
      rw [List.cons_append, List.cons_append, replLines, replLines]
      split
      · rfl
      · split
        · rfl
        · dsimp only
          rw [ih]

end Lines

/-! ## Inputs -/

/-- **A line does what it says and nothing else.**  Take any line of any input.

If it is blank, the answer is the same without it.  If there can be no room for the history,
`repl` is stopped before it writes anything, whatever the input.  If there can, then on a line
that `repl` reaches there are three cases.

If the line is a text that has an unknown key and is no directive, its report stands behind
what the earlier lines write; without the line that report is not written, unless the command
is quiet anyway, and everything else is, and the command ends alike.  If the line ends the
session, the command succeeds with what the earlier lines write, whatever bytes come behind it.
And if the line is not UTF-8, the command fails over it, with what the earlier lines write. -/
theorem repl_isolated (terminal : Bool) (c : Configuration) (trace : Bool)
    (files : List (String × Text.Bytes)) {input line : Text.Bytes} {index : Nat}
    (place : (Text.byteLines input)[index]? = some line) :
    let answer := execute terminal c ⟨files, input⟩ (.repl trace)
    let spared := execute terminal c ⟨files, Text.withoutLine index input⟩ (.repl trace)
    let earlier := execute terminal c ⟨files, Text.firstLines index input⟩ (.repl trace)
    (∀ text, Text.decode? line = some text → Text.trim text = "" → spared = answer) ∧
    (History.greatestCapacity < c.session.capacity →
      ∀ other, execute terminal c ⟨files, other⟩ (.repl trace) = .failed .noRoom) ∧
    (c.session.capacity ≤ History.greatestCapacity → Reached input index →
      (∀ text unknown, Text.decode? line = some text → Text.trim text ∉ directives →
        Script.firstUnknown? (Text.trim text) = some unknown →
        let report := "! Unknown key: '" ++ String.singleton unknown ++ "'"
        ∃ later,
          answer.lines =
            earlier.lines ++ (if c.verbosity.isQuiet then [] else [report]) ++ later ∧
          spared.lines = earlier.lines ++ later ∧ spared.failure = answer.failure) ∧
      (∀ text, Text.decode? line = some text → Text.trim text ∈ quits →
        ∀ other, (Text.byteLines other).take (index + 1) =
            (Text.byteLines input).take (index + 1) →
          execute terminal c ⟨files, other⟩ (.repl trace) = .done earlier.lines) ∧
      (Text.decode? line = none → answer = (Answer.failed .notUtf8).after earlier.lines)) := by
  intro answer spared earlier
  let report := c.report terminal
  let front := (Text.byteLines input).take index
  let back := (Text.byteLines input).drop (index + 1)
  let start := Session.start c.session
  have whole : Text.byteLines input = front ++ line :: back := by
    have behind := List.drop_eq_getElem?_toList_append (l := Text.byteLines input) (i := index)
    rw [place] at behind
    rw [← List.take_append_drop index (Text.byteLines input), behind]
    rfl
  have stopped (large : History.greatestCapacity < c.session.capacity) (other : Text.Bytes) :
      execute terminal c ⟨files, other⟩ (.repl trace) = .failed .noRoom :=
    executeRepl_of_lt report trace large ⟨files, other⟩
  have obeyed (room : c.session.capacity ≤ History.greatestCapacity) (other : Text.Bytes) :
      execute terminal c ⟨files, other⟩ (.repl trace) =
        replLines report trace start (Text.byteLines other) :=
    executeRepl_of_le report trace room ⟨files, other⟩
  have answered (room : c.session.capacity ≤ History.greatestCapacity) :
      answer = replLines report trace start (front ++ line :: back) := by
    rw [← whole, ← obeyed room]
  have deleted (room : c.session.capacity ≤ History.greatestCapacity) :
      spared = replLines report trace start (front ++ back) := by
    rw [← List.eraseIdx_eq_take_drop_succ, ← Text.byteLines_withoutLine, ← obeyed room]
  refine ⟨?_, stopped, fun room reached => ?_⟩
  · intro text decoded blank
    rcases Nat.lt_or_ge History.greatestCapacity c.session.capacity with large | room
    · exact (stopped large _).trans (stopped large _).symm
    · rw [answered room, deleted room]
      exact (replLines_append_blank report trace start front decoded blank back).symm
  · have answered := answered room
    have deleted := deleted room
    have before : earlier = replLines report trace start front :=
      (obeyed room _).trans (by rw [Text.byteLines_firstLines])
    -- from here on the session that the earlier lines leave is all that counts
    obtain ⟨left, goesOn⟩ := replLines_reached report trace start reached
    rw [← before] at goesOn
    refine ⟨?_, ?_, ?_⟩
    · intro text unknown decoded undirected first message
      refine ⟨(replLines report trace left back).lines, ?_, ?_, ?_⟩
      · rw [answered, goesOn, replLines_report report trace left decoded undirected first]
        simp [Answer.after, Report.emit, report, Configuration.report, message]
      · rw [deleted, goesOn]
        rfl
      · rw [answered, deleted, goesOn, goesOn,
          replLines_report report trace left decoded undirected first]
        rfl
    · intro text decoded quit other same
      have cut : (Text.byteLines input).take (index + 1) = front ++ [line] := by
        rw [List.take_add_one, place]
        rfl
      rw [obeyed room, ← List.take_append_drop (index + 1) (Text.byteLines other), same, cut,
        List.append_assoc, goesOn, List.singleton_append,
        replLines_quit report trace left decoded quit]
      simp [Answer.after, Answer.done]
    · intro undecoded
      rw [answered, goesOn, replLines_undecoded report trace left undecoded]

/-- A capacity that is accepted, and a line that ends the session: the command does not succeed,
though nothing stands in front of that line. -/
theorem repl_isolated_stopped :
    let c : Configuration := ⟨.normal, .never, false, Settings.default.withCapacity (2 ^ 64 - 1)⟩
    let quit := Text.encode ":quit\n"
    c.fault? = none ∧ Reached quit 0 ∧ (Text.byteLines quit)[0]? = some (Text.encode ":quit") ∧
      execute false c ⟨[], quit⟩ (.repl false) = .failed .noRoom := by
  intro c quit
  have large : History.greatestCapacity < c.session.capacity := by decide
  exact ⟨by decide +kernel, by simp [Reached], by decide +kernel,
    executeRepl_of_lt (c.report false) false large ⟨[], quit⟩⟩

/-- Of four lines the second has an unknown key, and the third is not UTF-8.  Both are reached:
the command reports the second and ends at the third. -/
theorem repl_isolated_unknown :
    let c : Configuration := ⟨.normal, .never, false, .default⟩
    let front := Text.encode "1+1=\n"
    let bad := Text.encode "2^\n"
    let back := [0xff, 0x0a] ++ Text.encode "3"
    Reached (front ++ bad ++ back) 1 ∧ Reached (front ++ bad ++ back) 2 ∧
      (∃ later,
        (execute false c ⟨[], front ++ bad ++ back⟩ (.repl false)).lines =
          (execute false c ⟨[], front⟩ (.repl false)).lines ++ ["! Unknown key: '^'"] ++ later ∧
        (execute false c ⟨[], front ++ back⟩ (.repl false)).lines =
          (execute false c ⟨[], front⟩ (.repl false)).lines ++ later) ∧
      execute false c ⟨[], front ++ bad ++ back⟩ (.repl false) =
        (Answer.failed .notUtf8).after (execute false c ⟨[], front ++ bad⟩ (.repl false)).lines := by
  intro c front bad back
  have cut : Text.byteLines (front ++ bad ++ back) =
      [Text.encode "1+1=", Text.encode "2^", [0xff], Text.encode "3"] := by
    decide +kernel
  have reached : Reached (front ++ bad ++ back) 2 := by
    intro bytes member
    have texts : bytes = Text.encode "1+1=" ∨ bytes = Text.encode "2^" := by
      rw [cut] at member
      simpa using member
    rcases texts with rfl | rfl
    · exact ⟨"1+1=", Text.decode?_encode _, by decide⟩
    · exact ⟨"2^", Text.decode?_encode _, by decide⟩
  have earlier : Reached (front ++ bad ++ back) 1 := by
    intro bytes member
    rw [cut] at member
    exact reached bytes (by rw [cut]; exact List.mem_of_mem_take (i := 1) member)
  have second : (Text.byteLines (front ++ bad ++ back))[1]? = some (Text.encode "2^") := by
    rw [cut]
    rfl
  have third : (Text.byteLines (front ++ bad ++ back))[2]? = some [0xff] := by
    rw [cut]
    rfl
  have deleted : Text.withoutLine 1 (front ++ bad ++ back) = front ++ back := by decide +kernel
  have first : Text.firstLines 1 (front ++ bad ++ back) = front := by decide +kernel
  have both : Text.firstLines 2 (front ++ bad ++ back) = front ++ bad := by decide +kernel
  obtain ⟨-, -, spared⟩ := repl_isolated false c false [] second
  obtain ⟨later, whole, rest, -⟩ := (spared (by decide) earlier).1 "2^" '^' (Text.decode?_encode _)
    (by decide) (by decide)
  obtain ⟨-, -, ended⟩ := repl_isolated false c false [] third
  have undecoded := (ended (by decide) reached).2.2 (by decide +kernel)
  rw [first] at whole rest
  rw [deleted] at rest
  rw [both] at undecoded
  exact ⟨earlier, reached, ⟨later, whole, rest⟩, undecoded⟩

end Command

end Calculator
