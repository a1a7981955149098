/-
# Calculator.Proofs.Session.Script -- pressing the keys of a script

A script is read before any of its keys is pressed.  So a script with an unknown key does
nothing, not even with the keys in front of it: beside the fault stands the session as it
was (`runScript_unreadable`).

A script that can be read is its keys, one after the other, and nothing else.  It can be
cut where one likes: the parts leave the session that the whole leaves, and the last part
that has a key answers the frame of the whole.

* `pressAll_append_session`, `pressAll_append_frame`: keys pressed in two parts;
* `runScript_whole`: what scripts do.
-/
import Calculator.Session
import Calculator.Proofs.Keypad.Script

namespace Calculator

set_option autoImplicit false

namespace Session

/-! ## Keys in two parts -/

section Parts

variable (s : Session) (first : List Key) {second : List Key}

theorem pressAll_append_session :
    (s.pressAll (first ++ second)).1 = ((s.pressAll first).1.pressAll second).1 := by
  simp only [pressAll, pressEach_append]

/-- The last key answers, and it is in the second part, if that has any. -/
theorem pressAll_append_frame (nonempty : second ≠ []) :
    (s.pressAll (first ++ second)).2 = ((s.pressAll first).1.pressAll second).2 := by
  have frames : ((s.pressEach first).1.pressEach second).2 ≠ [] := by
    rw [← List.length_pos_iff, length_pressEach]
    exact List.length_pos_iff.mpr nonempty
  simp only [pressAll, pressEach_append, List.getLast?_append_of_ne_nil _ frames]
  rw [List.getLast?_eq_some_getLast frames]
  rfl

end Parts

/-! ## Scripts -/

section Scripts

variable (s : Session) {script : String}

theorem runScript_of_keys {keys : List Key} (read : Script.keys script = .ok keys) :
    s.runScript script = ((s.pressAll keys).1, .ok (s.pressAll keys).2) := by
  rw [runScript, read]

theorem runScript_unreadable {fault : Fault} (unreadable : Script.keys script = .error fault) :
    s.runScript script = (s, .error fault) := by
  rw [runScript, unreadable]

/-- A script either is pressed or leaves the session as it was. -/
theorem runScript_failed {fault : Fault} (failed : (s.runScript script).2 = .error fault) :
    Script.keys script = .error fault ∧ (s.runScript script).1 = s := by
  cases read : Script.keys script with
  | ok keys =>
      rw [s.runScript_of_keys read] at failed
      cases failed
  | error met =>
      rw [s.runScript_unreadable read] at failed ⊢
      cases failed
      exact ⟨rfl, rfl⟩

/-- A script in two parts, both of which can be read. -/
theorem runScript_append {first second : String} {keys more : List Key}
    (read : Script.keys first = .ok keys) (read' : Script.keys second = .ok more) :
    ∃ middle last, ∃ shown shown' whole : Frame,
      s.runScript first = (middle, .ok shown) ∧ middle.runScript second = (last, .ok shown') ∧
        s.runScript (first ++ second) = (last, .ok whole) ∧
        (more ≠ [] → whole = shown') ∧ (more = [] → shown' = middle.frame) := by
  have both : Script.keys (first ++ second) = .ok (keys ++ more) := by
    rw [Script.keys, String.toList_append, Script.keysOfChars_append _ read]
    exact congrArg (Except.map (keys ++ ·)) read'
  have parts : (s.pressAll (keys ++ more)).1 = ((s.pressAll keys).1.pressAll more).1 :=
    s.pressAll_append_session keys
  refine ⟨(s.pressAll keys).1, ((s.pressAll keys).1.pressAll more).1, (s.pressAll keys).2,
    ((s.pressAll keys).1.pressAll more).2, (s.pressAll (keys ++ more)).2,
    s.runScript_of_keys read, runScript_of_keys _ read', ?_, ?_, ?_⟩
  · rw [s.runScript_of_keys both, ← parts]
  · exact s.pressAll_append_frame keys
  · rintro rfl
    rfl

/-- Blanks do not count. -/
theorem runScript_blanks (front back : String) {blanks : String}
    (blank : ∀ c ∈ blanks.toList, Text.isBlank c = true) :
    s.runScript (front ++ blanks ++ back) = s.runScript (front ++ back) := by
  have same : Script.visible (front ++ blanks ++ back) = Script.visible (front ++ back) := by
    simp only [Script.visible_append, Script.visible_eq_nil_iff.mpr blank, List.append_nil]
  rw [runScript, runScript, Script.keys_congr same]

end Scripts

/-- **A script is pressed whole or not at all, and can be cut anywhere.**  Its keys are
those of its visible characters, in order, if each of them is one, and then they are
pressed.  Otherwise the first that is none is the fault, and the session is left as it was;
no script that ends in a fault leaves another session.  Two scripts that can be read leave
the same session one after the other and as one script; its frame is that of the second, if
that has a key, and without one the second shows what is shown already.  Blanks put in or
left out anywhere change nothing. -/
theorem runScript_whole (s : Session) :
    (∀ script keys, Script.keys script = .ok keys ↔
      (Script.visible script).map Key.ofChar? = keys.map some) ∧
    (∀ script fault, Script.keys script = .error fault ↔
      ∃ c, Script.firstUnknown? script = some c ∧ fault = .unknownKey (String.singleton c)) ∧
    (∀ script keys, Script.keys script = .ok keys →
      s.runScript script = ((s.pressAll keys).1, .ok (s.pressAll keys).2)) ∧
    (∀ script fault, Script.keys script = .error fault →
      s.runScript script = (s, .error fault)) ∧
    (∀ script fault, (s.runScript script).2 = .error fault →
      Script.keys script = .error fault ∧ (s.runScript script).1 = s) ∧
    (∀ first second keys more, Script.keys first = .ok keys → Script.keys second = .ok more →
      ∃ middle last, ∃ shown shown' whole : Frame,
        s.runScript first = (middle, .ok shown) ∧ middle.runScript second = (last, .ok shown') ∧
          s.runScript (first ++ second) = (last, .ok whole) ∧
          (more ≠ [] → whole = shown') ∧ (more = [] → shown' = middle.frame)) ∧
    ∀ front blanks back, (∀ c ∈ blanks.toList, Text.isBlank c = true) →
      s.runScript (front ++ blanks ++ back) = s.runScript (front ++ back) := by
  refine ⟨fun script keys => Script.keys_eq_ok_iff, fun script fault => Script.keys_eq_error_iff,
    fun script keys => s.runScript_of_keys, fun script fault => s.runScript_unreadable,
    fun script fault => s.runScript_failed, ?_, ?_⟩
  · intro first second keys more read read'
    exact s.runScript_append read read'
  · intro front blanks back blank
    exact s.runScript_blanks front back blank

end Session

end Calculator
