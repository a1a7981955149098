/-
# Calculator.Proofs.Command.Tracing -- every frame, or the last one

When it traces, `run` writes a frame for each key of a script, in front of it the key.  When
it does not, it writes the frame of the last key, which is the last of the traced ones without
its key; and for a script without keys it writes what is shown already, of which there is no
trace.  Both press the same keys, so they leave the same session and fail alike.

* `showingLines_traced`, `showingLines_untraced`: what is written about one script;
* `run_traced`: whole commands.
-/
import Calculator.Proofs.Command.Content

namespace Calculator

set_option autoImplicit false

open Terminal (Report)

namespace Session

/-- A script shows each of its keys, in order. -/
theorem showing_keys (s : Session) (keys : List Key) :
    (s.showing keys).pressed.map Prod.fst = keys := by
  apply List.map_fst_zip
  exact Nat.le_of_eq (s.length_pressEach keys).symm

theorem showings_keys (s : Session) (scripts : List (List Key)) :
    (s.showings scripts).map (fun showing => showing.pressed.map Prod.fst) = scripts := by
  induction scripts generalizing s with
  | nil => rfl
  | cons keys scripts ih => rw [showings, List.map_cons, showing_keys, ih]

/-- What is shown already is no failure: that was shown by an earlier key. -/
theorem showings_before {s : Session} {scripts : List (List Key)} {showing : Showing}
    (member : showing ∈ s.showings scripts) : showing.before.failure = none := by
  induction scripts generalizing s with
  | nil => cases member
  | cons keys scripts ih =>
      rcases List.mem_cons.mp member with rfl | later
      · rfl
      · exact ih later

end Session

namespace Terminal.Report

variable (r : Report)

/-- The key in front of a traced frame. -/
def keyColumn (key : Key) : String := paint r.colored [.cyan] (padLeft 2 key.label) ++ "  "

/-- What is written about a script. -/
def showingLines (trace : Bool) (showing : Showing) : List String :=
  (showing.blocks trace).flatMap r.blockLines

theorem showingLines_traced (showing : Showing) :
    r.showingLines true showing =
      showing.pressed.flatMap fun (key, frame) =>
        (r.keyColumn key ++ r.frame frame) :: r.reasons frame.failure := by
  rw [showingLines, Showing.blocks, if_pos rfl, List.flatMap_map]
  rfl

section Untraced

variable {showing : Showing}

/-- Behind a frame stands a reason, just when it failed and reasons are written. -/
theorem reasons_ne_nil_iff {failure? : Option Fault} :
    r.reasons failure? ≠ [] ↔ r.explains = true ∧ failure? ≠ none := by
  rw [reasons]
  split
  · cases failure? <;> simp_all
  · simp_all

theorem showingLines_untraced {earlier : List (Key × Frame)} {key : Key} {frame : Frame}
    (pressed : showing.pressed = earlier ++ [(key, frame)]) :
    r.showingLines false showing = r.frame frame :: r.reasons frame.failure := by
  have last : showing.last = frame := by simp [Showing.last, pressed]
  simp [showingLines, Showing.blocks, last, blockLines, line, Block.failure?]

theorem showingLines_unpressed (none : showing.pressed = [])
    (before : showing.before.failure = .none) :
    r.showingLines false showing = [r.frame showing.before] := by
  have last : showing.last = showing.before := by simp [Showing.last, none]
  simp [showingLines, Showing.blocks, last, blockLines, line, Block.failure?, before, reasons]

end Untraced

end Terminal.Report

namespace Command

section Run

variable (terminal : Bool) (c : Configuration) (a : RunArguments) (outside : Surroundings)

/-- What `run` writes about scripts, script by script, and then. -/
theorem execute_run_lines {all : List String} (given : a.allScripts outside = .ok all)
    (room : c.session.capacity ≤ History.greatestCapacity) (loud : c.verbosity.isQuiet = false) :
    let r := c.report terminal
    let s := Session.start c.session
    let keys := Script.keysUntilFault all
    (execute terminal c outside (.run a)).lines =
      (s.showings keys).flatMap (r.showingLines a.trace) ++
        r.write (closing a.history (s.pressEach keys.flatten).1 (Script.firstFault? all)) := by
  intro r s keys
  show (executeRun r c.session a outside).lines = _
  rw [executeRun_of_le r room given, Content.answer, scriptsContent, r.write_append,
    r.write_of_loud loud, List.flatMap_assoc]
  rfl

/-- How `run` ends depends on the scripts, and on the room for the history. -/
theorem execute_run_failure :
    (execute terminal c outside (.run a)).failure =
      match a.allScripts outside with
      | .error failure => some failure
      | .ok all =>
          if c.session.capacity ≤ History.greatestCapacity then
            (Script.firstFault? all).map .calculation
          else some .noRoom := by
  show (executeRun (c.report terminal) c.session a outside).failure = _
  cases given : a.allScripts outside with
  | error failure => rw [executeRun, given]; rfl
  | ok all =>
      dsimp only
      split
      case isTrue room =>
        rw [executeRun_of_le _ room given]
        rfl
      case isFalse large =>
        rw [executeRun_of_lt _ (Nat.lt_of_not_le large) given]
        rfl

end Run

/-- **Tracing changes what is written and nothing else.**  With and without a trace, `run`
succeeds or fails alike, and the scripts leave the same session.  If there can be no room for
the history, both are stopped before they write anything.  If there can, and unless it is
quiet, what `run` writes is what it writes about each script, up to the first that cannot be
read, and then the same listing of the history, if any.

About a script it writes with a trace a line for each key, in order: the key, and the frame of
the key; and behind that the reason, just when the key failed and reasons are written.
Without a trace it writes the last of these lines, without the key, and the reason behind it,
if any; and for a script without keys what is shown already. -/
theorem run_traced (terminal : Bool) (c : Configuration) (scripts : List String)
    (file : Option String) (history : Bool) (outside : Surroundings) :
    let r := c.report terminal
    let s := Session.start c.session
    let traced := execute terminal c outside (.run ⟨scripts, file, true, history⟩)
    let untraced := execute terminal c outside (.run ⟨scripts, file, false, history⟩)
    traced.failure = untraced.failure ∧
      (∀ all, (r.applyScripts true s all).1 = (r.applyScripts false s all).1) ∧
      ∀ all, RunArguments.allScripts ⟨scripts, file, true, history⟩ outside = .ok all →
        (History.greatestCapacity < c.session.capacity →
          traced = .failed .noRoom ∧ untraced = .failed .noRoom) ∧
        (c.session.capacity ≤ History.greatestCapacity → c.verbosity.isQuiet = false →
          let showings := s.showings (Script.keysUntilFault all)
          showings.map (fun showing => showing.pressed.map Prod.fst) = Script.keysUntilFault all ∧
            (∃ listing, traced.lines = showings.flatMap (r.showingLines true) ++ listing ∧
              untraced.lines = showings.flatMap (r.showingLines false) ++ listing) ∧
            ∀ showing ∈ showings,
              r.showingLines true showing =
                showing.pressed.flatMap (fun (key, frame) =>
                  (r.keyColumn key ++ r.frame frame) :: r.reasons frame.failure) ∧
              (∀ earlier key frame, showing.pressed = earlier ++ [(key, frame)] →
                r.showingLines false showing = r.frame frame :: r.reasons frame.failure) ∧
              (showing.pressed = [] → r.showingLines false showing = [r.frame showing.before]) ∧
              ∀ frame : Frame, (r.reasons frame.failure ≠ [] ↔
                c.verbosity.explains = true ∧ frame.failure ≠ none)) := by
  intro r s traced untraced
  refine ⟨?_, fun all => ?_, fun all given => ⟨fun large => ⟨?_, ?_⟩, fun room loud => ?_⟩⟩
  · have failed := execute_run_failure terminal c ⟨scripts, file, true, history⟩ outside
    exact failed.trans (execute_run_failure terminal c ⟨scripts, file, false, history⟩ outside).symm
  · rw [r.applyScripts_session, r.applyScripts_session]
  · exact executeRun_of_lt r large given
  · have given' : RunArguments.allScripts ⟨scripts, file, false, history⟩ outside = .ok all := given
    exact executeRun_of_lt r large given'
  · intro showings
    have lines := execute_run_lines terminal c ⟨scripts, file, true, history⟩ outside given room loud
    have lines' :=
      execute_run_lines terminal c ⟨scripts, file, false, history⟩ outside given room loud
    refine ⟨s.showings_keys _, ⟨_, lines, lines'⟩, fun showing member => ?_⟩
    refine ⟨r.showingLines_traced showing, fun earlier key frame pressed => ?_, fun none => ?_,
      fun frame => r.reasons_ne_nil_iff⟩
    · exact r.showingLines_untraced pressed
    · exact r.showingLines_unpressed none (Session.showings_before member)

/-- A division by zero with its reason, and a script without keys. -/
theorem run_traced_failure :
    let c : Configuration := ⟨.verbose, .always, false, .default⟩
    let r := c.report false
    let outside : Surroundings := ⟨[], []⟩
    let scripts := ["5/0=", " "]
    let keys := Script.keysUntilFault scripts
    RunArguments.allScripts ⟨scripts, none, true, true⟩ outside = .ok scripts ∧
      keys.map List.length = [4, 0] ∧
      ∃ listing,
        (execute false c outside (.run ⟨scripts, none, true, true⟩)).lines =
          ((Session.start c.session).showings keys).flatMap (r.showingLines true) ++ listing ∧
        (execute false c outside (.run ⟨scripts, none, false, true⟩)).lines =
          ((Session.start c.session).showings keys).flatMap (r.showingLines false) ++ listing := by
  intro c r outside scripts keys
  have given : RunArguments.allScripts ⟨scripts, none, true, true⟩ outside = .ok scripts := rfl
  obtain ⟨-, -, shown⟩ := run_traced false c scripts none true outside
  obtain ⟨-, lines, -⟩ := (shown scripts given).2 (by decide) rfl
  exact ⟨given, by decide, lines⟩

end Command

end Calculator
