/-
# Calculator.Proofs.Session.Log -- what the history keeps of a run

A key that completes a calculation shows the entry in its frame.  `Session.logged` collects
these entries along a run, from the last time that the history was cleared; no key takes
one away again.  The history holds the end of that list, as many entries as it has room for
(`after_holds`), so that none is lost before its time, held twice, or out of order.

* `logged_press`, `logged_clearHistory`: what one more step adds to the log;
* `press_history_of_unsuccessful`: only a success touches the history;
* `history_conserved`: every run, and what is evicted.
-/
import Mathlib.Data.List.DropRight
import Calculator.Proofs.History.Window
import Calculator.Proofs.Session.Run

namespace Calculator

set_option autoImplicit false

/-- Whether a step leaves the history to be added to. -/
def Step.isPress : Step → Bool
  | .press _ => true
  | .clearHistory => false

namespace Session

/-! ## The log of a run -/

/-- The entries that the frames of a run show, since the history was last cleared. -/
def logged (s : Session) (steps : List Step) : List Entry :=
  let cleared := s.after (steps.rdropWhile Step.isPress)
  (cleared.frames (steps.rtakeWhile Step.isPress)).filterMap Frame.appended

theorem logged_press (s : Session) (steps : List Step) (key : Key) :
    s.logged (steps ++ [.press key]) =
      s.logged steps ++ ((s.after steps).press key).2.appended.toList := by
  have whole : steps.rdropWhile Step.isPress ++ steps.rtakeWhile Step.isPress = steps :=
    List.rdropWhile_append_rtakeWhile
  have reached : s.after steps =
      (s.after (steps.rdropWhile Step.isPress)).after (steps.rtakeWhile Step.isPress) := by
    rw [← after_append, whole]
  rw [reached]
  simp only [logged, List.rdropWhile_concat_pos Step.isPress steps (.press key) rfl,
    List.rtakeWhile_concat_pos Step.isPress steps (.press key) rfl, frames_append,
    List.filterMap_append]
  rfl

theorem logged_clearHistory (s : Session) (steps : List Step) :
    s.logged (steps ++ [.clearHistory]) = [] := by
  have cut : ¬ Step.isPress .clearHistory = true := Bool.false_ne_true
  rw [logged, List.rtakeWhile_concat_neg Step.isPress steps _ cut]
  rfl

/-- Every entry of the log was shown by the frame of a key. -/
theorem exists_press_of_mem_logged {s : Session} {steps : List Step} {entry : Entry}
    (member : entry ∈ s.logged steps) :
    ∃ earlier key, ((s.after earlier).press key).2.appended = some entry := by
  induction steps using List.reverseRecOn with
  | nil => cases member
  | append_singleton steps last ih =>
      cases last with
      | press key =>
          rw [logged_press, List.mem_append, Option.mem_toList] at member
          rcases member with before | now
          · exact ih before
          · exact ⟨steps, key, now⟩
      | clearHistory =>
          rw [logged_clearHistory] at member
          cases member

/-! ## The history of a run -/

theorem press_history (s : Session) (key : Key) :
    (s.press key).1.history = s.history.record (s.press key).2.appended := by
  rw [press_appended, press_eq]
  rfl

theorem after_capacity (settings : Settings) (steps : List Step) :
    ((start settings).after steps).history.capacity = settings.capacity := by
  refine after_induction (fun s => s.history.capacity = settings.capacity) rfl ?_ steps
  intro s step same
  cases step with
  | press key =>
      rw [step, press_history]
      cases (s.press key).2.appended with
      | none => exact same
      | some entry => exact (s.history.push_capacity entry).trans same
  | clearHistory => exact same

/-- The history holds the end of the log. -/
theorem after_holds (settings : Settings) (steps : List Step) :
    ((start settings).after steps).history.Holds ((start settings).logged steps) := by
  -- on the last step: what it adds to the log, it adds to the history
  induction steps using List.reverseRecOn with
  | nil => exact History.holds_empty settings.capacity
  | append_singleton steps last ih =>
      rw [after_append]
      cases last with
      | press key =>
          rw [logged_press]
          show ((((start settings).after steps).press key).1.history).Holds _
          rw [press_history]
          cases (((start settings).after steps).press key).2.appended with
          | none => simpa [History.record] using ih
          | some entry => exact ih.push entry
      | clearHistory =>
          rw [logged_clearHistory]
          exact History.holds_empty _

/-- Only an evaluation that succeeds touches the history. -/
theorem press_history_of_unsuccessful {s : Session} {key : Key}
    (unsuccessful : ¬ (key = .evaluate ∧ ∃ value entry, s.machine.evaluate.2 = .success value entry)) :
    (s.press key).1.history = s.history := by
  have none : (s.press key).2.appended = none := by
    rw [Option.eq_none_iff_forall_ne_some]
    intro entry appended
    obtain ⟨pressed, value, succeeded⟩ := press_appended_iff.mp appended
    exact unsuccessful ⟨pressed, value, entry, succeeded⟩
  rw [press_history, none]
  rfl

/-- **No entry is lost, held twice or out of order.**  Wherever a run stands, the history
holds the latest entries of the log, as many as the settings give it room for; the newest
of them is the newest of the log.  Only a successful evaluation changes it.  And what a
history hands back, however many entries are added, comes before what it holds. -/
theorem history_conserved (settings : Settings) (steps : List Step) :
    let s := (start settings).after steps
    let log := (start settings).logged steps
    s.history.entries <:+ log ∧
      s.history.entries.length = min settings.capacity log.length ∧
      s.history.last? = (if settings.capacity = 0 then none else log.getLast?) ∧
      (∀ key, ¬ (key = .evaluate ∧ ∃ value entry, s.machine.evaluate.2 = .success value entry) →
        (s.press key).1.history = s.history) ∧
      (∀ capacity entries,
        let pushed := (History.empty capacity).pushEach entries
        pushed.2 ++ pushed.1.entries = entries) ∧
      ∀ entry, (History.empty 0).push entry = (.empty 0, some entry) := by
  have holds := after_holds settings steps
  have capacity := after_capacity settings steps
  refine ⟨holds.latest, ?_, ?_, fun key => press_history_of_unsuccessful, fun capacity entries => ?_,
    History.push_empty_zero⟩
  · rw [holds.length_eq, capacity]
  · rw [holds.last?_eq, capacity]
  · exact History.pushEach_entries (.empty capacity) entries

end Session

end Calculator
