/-
# Calculator.Proofs.Keypad.Script -- scripts are read whole or not at all

Only the characters of a script that are not blank count (`Script.visible`).  If each of
them stands for a key, these are the keys of the script, in order; if not, the first that
does not is the fault (`Script.firstUnknown?`), whatever stands before or behind it.

* `keys_eq`: all that reading a script does;
* `keys_eq_ok_iff`, `keys_eq_error_iff`: which keys are read, and which fault is met;
* `keys_congr`: blanks can be put in and left out anywhere.
-/
import Mathlib.Data.List.Basic
import Calculator.Proofs.Keypad.Spelling

namespace Calculator.Script

set_option autoImplicit false

/-- The characters of a script that are not blank. -/
def visible (script : String) : List Char := script.toList.filter fun c => !Text.isBlank c

/-- The first of them that stands for no key. -/
def firstUnknown? (script : String) : Option Char :=
  (visible script).find? fun c => (Key.ofChar? c).isNone

/-! ## Reading -/

/-- A script with an unknown character has a fault, and any other has keys. -/
theorem keys_eq (script : String) :
    keys script =
      match firstUnknown? script with
      | some c => .error (.unknownKey (String.singleton c))
      | none => .ok ((visible script).filterMap Key.ofChar?) := by
  unfold keys firstUnknown? visible
  induction script.toList with
  | nil => rfl
  | cons c rest ih =>
      rw [keysOfChars]
      by_cases blank : Text.isBlank c = true
      · rw [if_pos blank, List.filter_cons_of_neg (by simp [blank])]
        exact ih
      · rw [if_neg blank, List.filter_cons_of_pos (by simp [blank])]
        cases known : Key.ofChar? c with
        | none => rw [List.find?_cons_of_pos (by simp [known])]
        | some key =>
            rw [List.find?_cons_of_neg (by simp [known]), List.filterMap_cons_some known, ih]
            generalize List.find? _ _ = unknown
            cases unknown <;> rfl

theorem map_ofChar?_eq {cs : List Char} (known : ∀ c ∈ cs, Key.ofChar? c ≠ none) :
    cs.map Key.ofChar? = (cs.filterMap Key.ofChar?).map some := by
  induction cs with
  | nil => rfl
  | cons c cs ih =>
      obtain ⟨key, read⟩ := Option.ne_none_iff_exists'.mp (known c List.mem_cons_self)
      have later := ih fun d member => known d (List.mem_cons_of_mem c member)
      rw [List.map_cons, List.filterMap_cons_some read, List.map_cons, read, later]

section Reading

variable {script : String}

theorem firstUnknown?_eq_none_iff :
    firstUnknown? script = none ↔ ∀ c ∈ visible script, Key.ofChar? c ≠ none := by
  simp [firstUnknown?, List.find?_eq_none]

/-- The keys of a script are those of its visible characters, and each of them is one. -/
theorem keys_eq_ok_iff {read : List Key} :
    keys script = .ok read ↔ (visible script).map Key.ofChar? = read.map some := by
  rw [keys_eq]
  cases unknown : firstUnknown? script with
  | none =>
      rw [map_ofChar?_eq (firstUnknown?_eq_none_iff.mp unknown),
        List.map_inj_right fun _ _ => Option.some.inj]
      exact ⟨Except.ok.inj, congrArg _⟩
  | some c =>
      have member := List.mem_of_find?_eq_some unknown
      have noKey : Key.ofChar? c = none := by simpa using List.find?_some unknown
      constructor
      · intro impossible
        cases impossible
      · intro all
        have mapped : none ∈ read.map some := by
          rw [← all, ← noKey]
          exact List.mem_map_of_mem member
        simp at mapped

theorem keys_eq_error_iff {fault : Fault} :
    keys script = .error fault ↔
      ∃ c, firstUnknown? script = some c ∧ fault = .unknownKey (String.singleton c) := by
  rw [keys_eq]
  cases firstUnknown? script with
  | none => simp
  | some c => simp [eq_comm]

end Reading

/-! ## Blanks -/

/-- Scripts with the same visible characters are the same to a reader. -/
theorem keys_congr {first second : String} (same : visible first = visible second) :
    keys first = keys second := by
  rw [keys_eq, keys_eq, firstUnknown?, firstUnknown?, same]

theorem visible_append (first second : String) :
    visible (first ++ second) = visible first ++ visible second := by
  simp [visible]

theorem visible_eq_nil_iff {script : String} :
    visible script = [] ↔ ∀ c ∈ script.toList, Text.isBlank c = true := by
  simp [visible]

theorem filter_dropWhile_blank (cs : List Char) :
    (cs.dropWhile Text.isBlank).filter (fun c => !Text.isBlank c) =
      cs.filter fun c => !Text.isBlank c := by
  induction cs with
  | nil => rfl
  | cons c cs ih =>
      by_cases blank : Text.isBlank c = true
      · rw [List.dropWhile_cons_of_pos blank, ih, List.filter_cons_of_neg (by simp [blank])]
      · rw [List.dropWhile_cons_of_neg blank]

theorem visible_trim (text : String) : visible (Text.trim text) = visible text := by
  simp only [visible, Text.trim, String.toList_ofList, Text.trimEndChars, List.filter_reverse,
    filter_dropWhile_blank, List.reverse_reverse]

end Calculator.Script
