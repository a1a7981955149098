/-
# Calculator.Proofs.Session.Invariant -- what holds in every session

A session starts with a well-formed calculation, and no step breaks it: a key keeps
it (`Calculation.WellFormed.next`), and clearing the history does not touch it.  So
wherever a run stands, numerals and operators alternate, and an evaluation that is
tried there can only fail over numbers.

* `run_wellFormed`: every run of a session, and every frame on the way.
-/
import Calculator.Proofs.Calculation.WellFormed
import Calculator.Proofs.Session.Run

namespace Calculator

set_option autoImplicit false

namespace Session

def WellFormed (s : Session) : Prop := s.machine.calculation.WellFormed

theorem wellFormed_start (settings : Settings) : (start settings).WellFormed :=
  Calculation.wellFormed_empty

namespace WellFormed

variable {s : Session} (wellFormed : s.WellFormed)
include wellFormed

theorem step (step : Step) : (s.step step).WellFormed := by
  cases step with
  | press key =>
      rw [WellFormed, Session.step, press_calculation]
      exact Calculation.WellFormed.next wellFormed s.machine.tolerance key
  | clearHistory => exact wellFormed

theorem after (steps : List Step) : (s.after steps).WellFormed :=
  after_induction WellFormed wellFormed (fun _ step kept => kept.step step) steps

theorem failure_numerical (key : Key) {fault : Fault}
    (failed : (s.press key).2.failure = some fault) : fault.Numerical := by
  rw [press_failure] at failed
  exact Calculation.WellFormed.fails_numerical wellFormed failed

/-- The frame of every key in a run is the frame of a key on a well-formed session. -/
theorem frames_numerical (steps : List Step) :
    ∀ frame ∈ s.frames steps, ∀ fault, frame.failure = some fault → fault.Numerical := by
  induction steps generalizing s with
  | nil =>
      intro frame member
      cases member
  | cons first steps ih =>
      have rest := ih (wellFormed.step first)
      cases first with
      | press key =>
          intro frame member fault failed
          rcases List.mem_cons.mp member with rfl | later
          · exact wellFormed.failure_numerical key failed
          · exact rest frame later fault failed
      | clearHistory => exact rest

end WellFormed

/-- **Every run keeps the calculation well formed.**  A numeral is being typed only
where one is missing, and no evaluation reports an unfinished or a malformed
expression, nor an unknown key. -/
theorem run_wellFormed (settings : Settings) (steps : List Step) :
    let s := start settings
    let c := (s.after steps).machine.calculation
    c.WellFormed ∧ (c.numeral ≠ "" → Token.Unfinished c.tokens) ∧
      ∀ frame ∈ s.frames steps, ∀ fault, frame.failure = some fault → fault.Numerical := by
  have start := wellFormed_start settings
  have reached := start.after steps
  exact ⟨reached, Calculation.WellFormed.unfinished_of_typed reached, start.frames_numerical steps⟩

end Session

end Calculator
