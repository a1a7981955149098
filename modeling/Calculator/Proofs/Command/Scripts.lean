/-
# Calculator.Proofs.Command.Scripts -- scripts, one after the other

A line is a script unless it is blank, and the blanks around it do not count
(`Script.ofLine?`).  Scripts are pressed in one session, so those of two lists are pressed
like those of the first and then those of the second in the session it leaves, provided
that the first can all be read (`applyScripts_append`).  Pressing them fails only over a
script that cannot be read (`applyScripts_of_readable`), and then over the first.

* `Script.exists_first_unreadable`: the first such script;
* `applyScripts_append`, `applyScripts_unreadable`: what is written before it, and where it
  ends;
* `stepLine_failure`, `replLines_step`: lines do not fail over scripts.
-/
import Calculator.Command
import Calculator.Proofs.Session.Script

namespace Calculator

set_option autoImplicit false

namespace Script

/-- Each character of the script is a key or a blank. -/
def Readable (script : String) : Prop := ∃ keys, Script.keys script = .ok keys

/-- The script of a line, unless the line is blank. -/
def ofLine? (line : String) : Option String :=
  if (Text.trim line).isEmpty then none else some (Text.trim line)

theorem ofLines_eq (text : String) : ofLines text = (Text.lines text).filterMap ofLine? := by
  rw [ofLines, ← List.filterMap_eq_filter, List.filterMap_map]
  apply List.filterMap_congr
  intro line _
  by_cases blank : (Text.trim line).isEmpty = true <;> simp [ofLine?, Option.guard, blank]

/-- The blanks around a line do not count. -/
theorem keys_trim (line : String) : keys (Text.trim line) = keys line :=
  keys_congr (visible_trim line)

theorem readable_of_ofLine? {line script : String} (made : ofLine? line = some script)
    (readable : Readable line) : Readable script := by
  rw [ofLine?] at made
  split at made
  · cases made
  · cases made
    rwa [Readable, keys_trim]

theorem readable_filterMap {lines : List String} (readable : ∀ line ∈ lines, Readable line) :
    ∀ script ∈ lines.filterMap ofLine?, Readable script := by
  intro script member
  obtain ⟨line, source, made⟩ := List.mem_filterMap.mp member
  exact readable_of_ofLine? made (readable line source)

/-- A line that cannot be read is not blank. -/
theorem ofLine?_of_error {line : String} {fault : Fault} (unreadable : keys line = .error fault) :
    ofLine? line = some (Text.trim line) := by
  rw [ofLine?, if_neg]
  intro blank
  rw [← keys_trim, String.isEmpty_iff.mp blank] at unreadable
  cases unreadable

/-- Where not all lines can be read, there is a first that cannot. -/
theorem exists_first_unreadable {lines : List String}
    (unreadable : ∃ line ∈ lines, ¬ Readable line) :
    ∃ earlier bad later fault, lines = earlier ++ bad :: later ∧
      (∀ line ∈ earlier, Readable line) ∧ keys bad = .error fault := by
  induction lines with
  | nil => simp at unreadable
  | cons line lines ih =>
      cases read : keys line with
      | error fault => exact ⟨[], line, lines, fault, rfl, by simp, read⟩
      | ok keys =>
          have readable : Readable line := ⟨keys, read⟩
          obtain ⟨earlier, bad, later, fault, rfl, before, met⟩ :=
            ih (by simpa [readable] using unreadable)
          exact ⟨line :: earlier, bad, later, fault, rfl, by simpa [readable] using before, met⟩

end Script

namespace Terminal.Report

variable (r : Report) (trace : Bool) (s : Session)

/-! ## One script -/

section Script

variable {script : String}

/-- With or without a trace the keys are pressed in the same way. -/
theorem traceKeys_eq (keys : List Key) :
    r.traceKeys s keys =
      ((s.pressEach keys).1, (keys.zip (s.pressEach keys).2).flatMap fun (key, frame) =>
        r.frameLines (r.tracedFrame key frame) frame) := by
  induction keys generalizing s with
  | nil => rfl
  | cons key keys ih =>
      simp only [traceKeys, Session.pressEach, List.zip_cons_cons, List.flatMap_cons, ih]

theorem applyScript_of_keys {keys : List Key} (read : Script.keys script = .ok keys) :
    ∃ lines, r.applyScript trace s script = ((s.pressEach keys).1, .done lines) := by
  rw [applyScript, read]
  cases trace with
  | true => exact ⟨_, congrArg (fun left => (left.1, Answer.done left.2)) (r.traceKeys_eq s keys)⟩
  | false => exact ⟨_, rfl⟩

/-- A script that cannot be read is not pressed, and nothing is written about it. -/
theorem applyScript_unreadable {fault : Fault} (unreadable : Script.keys script = .error fault) :
    r.applyScript trace s script = (s, .failed (.calculation fault)) := by
  rw [applyScript, unreadable]

/-- Whether it is traced or not, and whether it can be read or not, a script leaves the session
that it leaves when nothing is written. -/
theorem applyScript_session : (r.applyScript trace s script).1 = (s.runScript script).1 := by
  cases read : Script.keys script with
  | ok keys =>
      obtain ⟨lines, pressed⟩ := r.applyScript_of_keys trace s read
      rw [pressed, s.runScript_of_keys read]
      rfl
  | error fault => rw [r.applyScript_unreadable trace s read, s.runScript_unreadable read]

end Script

/-! ## Scripts -/

theorem applyScripts_cons {script : String} {keys : List Key} (rest : List String)
    (read : Script.keys script = .ok keys) :
    r.applyScripts trace s (script :: rest) =
      let (next, answer) := r.applyScript trace s script
      let (last, more) := r.applyScripts trace next rest
      (last, more.after answer.lines) := by
  obtain ⟨lines, pressed⟩ := r.applyScript_of_keys trace s read
  rw [applyScripts, pressed]
  rfl

/-- Scripts leave the session that they leave when nothing is written. -/
theorem applyScripts_session (scripts : List String) :
    (r.applyScripts trace s scripts).1 = (Command.runAll s scripts).1 := by
  induction scripts generalizing s with
  | nil => rfl
  | cons script scripts ih =>
      have same : (r.applyScript trace s script).1 = (s.runScript script).1 :=
        r.applyScript_session trace s
      rw [Command.runAll]
      cases read : Script.keys script with
      | ok keys =>
          rw [s.runScript_of_keys read] at same ⊢
          rw [r.applyScripts_cons trace s scripts read]
          dsimp only at same ⊢
          rw [ih, same]
      | error fault =>
          rw [s.runScript_unreadable read, applyScripts, r.applyScript_unreadable trace s read]
          rfl

theorem applyScripts_of_readable {scripts : List String}
    (readable : ∀ script ∈ scripts, Script.Readable script) :
    (r.applyScripts trace s scripts).2.failure = none := by
  induction scripts generalizing s with
  | nil => rfl
  | cons script scripts ih =>
      obtain ⟨⟨keys, read⟩, later⟩ := List.forall_mem_cons.mp readable
      rw [r.applyScripts_cons trace s scripts read]
      exact ih _ later

/-- Scripts behind others that can be read are pressed where those leave off. -/
theorem applyScripts_append {first : List String}
    (readable : ∀ script ∈ first, Script.Readable script) (second : List String) :
    r.applyScripts trace s (first ++ second) =
      let (middle, answer) := r.applyScripts trace s first
      let (last, answer') := r.applyScripts trace middle second
      (last, answer'.after answer.lines) := by
  induction first generalizing s with
  | nil => rfl
  | cons script first ih =>
      obtain ⟨⟨keys, read⟩, later⟩ := List.forall_mem_cons.mp readable
      rw [List.cons_append, r.applyScripts_cons trace s _ read, r.applyScripts_cons trace s _ read]
      simp only [ih _ later, Answer.after, List.append_assoc]

/-- A script that cannot be read ends it, and nothing behind it counts. -/
theorem applyScripts_unreadable {earlier : List String}
    (readable : ∀ script ∈ earlier, Script.Readable script) {script : String} {fault : Fault}
    (unreadable : Script.keys script = .error fault) (later : List String) :
    r.applyScripts trace s (earlier ++ script :: later) =
      let (left, answer) := r.applyScripts trace s earlier
      (left, (Answer.failed (.calculation fault)).after answer.lines) := by
  rw [r.applyScripts_append trace s readable]
  dsimp only
  rw [applyScripts, r.applyScript_unreadable trace _ unreadable]
  rfl

end Terminal.Report

/-! ## Lines -/

namespace Command

variable (r : Terminal.Report) (trace : Bool) (s : Session)

/-- A line that cannot be read is reported, and leaves the session as it was. -/
theorem stepLine_unreadable {text : String} {fault : Fault}
    (unreadable : Script.keys text = .error fault) :
    stepLine r trace s (.script text) = (s, .done (r.emit ("! " ++ fault.message))) := by
  rw [stepLine, r.applyScript_unreadable trace s unreadable]
  rfl

theorem stepLine_of_keys {text : String} {keys : List Key} (read : Script.keys text = .ok keys) :
    stepLine r trace s (.script text) = r.applyScript trace s text := by
  obtain ⟨lines, pressed⟩ := r.applyScript_of_keys trace s read
  rw [stepLine, pressed]
  rfl

/-- No line fails: the fault of a script is reported instead. -/
theorem stepLine_failure (line : Line) : (stepLine r trace s line).2.failure = none := by
  cases line with
  | script text =>
      cases read : Script.keys text with
      | ok keys =>
          obtain ⟨lines, pressed⟩ := r.applyScript_of_keys trace s read
          rw [stepLine_of_keys r trace s read, pressed]
          rfl
      | error fault =>
          rw [stepLine_unreadable r trace s read]
          rfl
  | _ => rfl

/-- Behind a line that does not end the session the next one is obeyed. -/
theorem replLines_step {bytes : Text.Bytes} {text : String}
    (decoded : Text.decode? bytes = some text) (goesOn : Line.ofText text ≠ .quit)
    (rest : List Text.Bytes) :
    replLines r trace s (bytes :: rest) =
      let (next, answer) := stepLine r trace s (Line.ofText text)
      (replLines r trace next rest).after answer.lines := by
  rw [replLines, decoded]
  dsimp only
  split
  · rename_i quit
    exact absurd quit goesOn
  · rw [if_neg (by simp [stepLine_failure r trace s])]

/-! ## Room for the history -/

section Room

variable {settings : Settings}

theorem executeRepl_of_le (room : settings.capacity ≤ History.greatestCapacity)
    (outside : Surroundings) :
    executeRepl r settings trace outside =
      replLines r trace (.start settings) (Text.byteLines outside.input) := by
  rw [executeRepl, Session.start?_of_le room]

variable (large : History.greatestCapacity < settings.capacity)
include large

/-- Without room for the history nothing is written. -/
theorem executeRepl_of_lt (outside : Surroundings) :
    executeRepl r settings trace outside = .failed .noRoom := by
  rw [executeRepl, Session.start?_of_lt large]

/-- `run` looks for its scripts before it makes a history. -/
theorem executeRun_of_lt {a : RunArguments} {outside : Surroundings} {all : List String}
    (given : a.allScripts outside = .ok all) :
    executeRun r settings a outside = .failed .noRoom := by
  rw [executeRun, given]
  dsimp only
  rw [Session.start?_of_lt large]

theorem executeHistory_of_lt (scripts : List String) (format : HistoryFormat) :
    executeHistory r settings scripts format = .failed .noRoom := by
  rw [executeHistory, Session.start?_of_lt large]

end Room

end Command

end Calculator
