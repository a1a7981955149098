/-
# Calculator.Proofs.Terminal.Escape -- taking the colours out of a text

An escape sequence is the escape character, a bracket, digits and an `m`.  A terminal takes
all of them out of a text (`stripped`), from the left, and whoever wrote them.  So it is not
enough that the sequences of a style go: where two texts meet, no new sequence may come about,
and what was written without colours must stay.

`Uncolors colored plain` says that the one text leaves the other, whatever stands behind it.
It is kept when texts are put together (`Uncolors.append`), and painting keeps it
(`Uncolors.paint`).  An escape character in a text does no harm unless a bracket follows.

* `uncolors_of_plain`, `uncolors_quoted`: what stays, with or without an escape character;
* `Uncolors.stripped`: what is left of a coloured text.
-/
import Mathlib.Data.List.Basic
import Calculator.Terminal

namespace Calculator.Terminal

set_option autoImplicit false

/-! ## Sequences -/

/-- What stands behind the escape sequence that some characters start with, if they do. -/
def behindSequence? : List Char → Option (List Char)
  | '\x1b' :: '[' :: rest =>
      match rest.takeWhile Char.isDigit, rest.dropWhile Char.isDigit with
      | _ :: _, 'm' :: behind => some behind
      | _, _ => none
  | _ => none

theorem length_behindSequence? {cs behind : List Char} (found : behindSequence? cs = some behind) :
    behind.length < cs.length := by
  unfold behindSequence? at found
  split at found
  · rename_i rest
    split at found
    · rename_i digits dropped
      obtain rfl := Option.some.inj found
      have shorter := (List.dropWhile_suffix Char.isDigit (l := rest)).length_le
      simp only [dropped, List.length_cons] at shorter ⊢
      omega
    · cases found
  · cases found

/-- The characters outside of escape sequences. -/
def withoutSequences : List Char → List Char
  | [] => []
  | c :: rest =>
    match _found : behindSequence? (c :: rest) with
    | some behind => withoutSequences behind
    | none => c :: withoutSequences rest
termination_by cs => cs.length
decreasing_by
  · exact length_behindSequence? _found
  · simp

/-- The text without its escape sequences. -/
def stripped (text : String) : String := String.ofList (withoutSequences text.toList)

theorem withoutSequences_nil : withoutSequences [] = [] := by
  rw [withoutSequences]

theorem withoutSequences_of_sequence {cs behind : List Char}
    (found : behindSequence? cs = some behind) : withoutSequences cs = withoutSequences behind := by
  cases cs with
  | nil => cases found
  | cons c rest =>
      rw [withoutSequences]
      split
      · rename_i other same
        rw [found] at same
        obtain rfl := Option.some.inj same
        rfl
      · rename_i none
        rw [found] at none
        cases none

theorem withoutSequences_of_none {c : Char} {rest : List Char}
    (none : behindSequence? (c :: rest) = none) :
    withoutSequences (c :: rest) = c :: withoutSequences rest := by
  rw [withoutSequences]
  split
  · rename_i behind found
    rw [none] at found
    cases found
  · rfl

/-- No sequence starts with any other character. -/
theorem withoutSequences_cons {c : Char} (other : c ≠ '\x1b') (rest : List Char) :
    withoutSequences (c :: rest) = c :: withoutSequences rest := by
  apply withoutSequences_of_none
  unfold behindSequence?
  split
  · rename_i escaped
    exact absurd (List.cons.inj escaped).1 other
  · rfl

theorem withoutSequences_append {front : List Char} (plain : '\x1b' ∉ front) (rest : List Char) :
    withoutSequences (front ++ rest) = front ++ withoutSequences rest := by
  induction front with
  | nil => rfl
  | cons c front ih =>
      have other : c ≠ '\x1b' := (List.ne_of_not_mem_cons plain).symm
      have later : '\x1b' ∉ front := List.not_mem_of_not_mem_cons plain
      rw [List.cons_append, withoutSequences_cons other, ih later, List.cons_append]

/-! ## Coloured texts -/

/-- Taking the sequences out of the one text leaves the other, whatever follows. -/
def Uncolors (colored plain : String) : Prop :=
  ∀ rest, withoutSequences (colored.toList ++ rest) = plain.toList ++ withoutSequences rest

theorem uncolors_of_plain {text : String} (plain : '\x1b' ∉ text.toList) : Uncolors text text :=
  fun rest => withoutSequences_append plain rest

theorem uncolors_empty : Uncolors "" "" := uncolors_of_plain (by simp)

/-- A lone escape character is no sequence. -/
theorem uncolors_quoted (c : Char) :
    Uncolors (String.singleton c ++ "'") (String.singleton c ++ "'") := by
  intro rest
  have apart : ('\'' : Char) ≠ '\x1b' := by decide
  have alone : behindSequence? (c :: '\'' :: rest) = none := by
    unfold behindSequence?
    split
    · rename_i bracket
      have quote := (List.cons.inj (List.cons.inj bracket).2).1
      cases quote
    · rfl
  simp only [String.toList_append, String.toList_singleton, List.cons_append, List.nil_append]
  show withoutSequences (c :: '\'' :: rest) = c :: '\'' :: withoutSequences rest
  rw [withoutSequences_of_none alone, withoutSequences_cons apart]

/-- A sequence of digits leaves nothing. -/
theorem uncolors_escape {code : String} (nonempty : code.toList ≠ [])
    (allDigits : code.toList.all Char.isDigit) : Uncolors (escape code) "" := by
  intro rest
  obtain ⟨first, later, spelled⟩ := List.exists_cons_of_ne_nil nonempty
  rw [spelled] at allDigits
  have digits : ∀ c ∈ first :: later, c.isDigit := List.all_eq_true.mp allDigits
  have found : behindSequence? ('\x1b' :: '[' :: (first :: later ++ 'm' :: rest)) = some rest := by
    have taken : (first :: later ++ 'm' :: rest).takeWhile Char.isDigit = first :: later := by
      rw [List.takeWhile_append_of_pos digits]
      simp
    have dropped : (first :: later ++ 'm' :: rest).dropWhile Char.isDigit = 'm' :: rest := by
      rw [List.dropWhile_append_of_pos digits]
      simp
    simp only [behindSequence?, taken, dropped]
  have sequence : (escape code).toList ++ rest =
      '\x1b' :: '[' :: (first :: later ++ 'm' :: rest) := by
    simp [escape, spelled]
  rw [sequence, withoutSequences_of_sequence found]
  simp

theorem uncolors_attribute (a : Attribute) : Uncolors (escape a.code) "" := by
  cases a <;> exact uncolors_escape (by decide) (by decide)

theorem uncolors_reset : Uncolors reset "" := uncolors_escape (by decide) (by decide)

namespace Uncolors

variable {colored plain : String} (uncolors : Uncolors colored plain)
include uncolors

/-- What is left of a coloured text. -/
theorem stripped : Terminal.stripped colored = plain := by
  have alone := uncolors []
  rw [List.append_nil, withoutSequences_nil, List.append_nil] at alone
  rw [Terminal.stripped, alone, String.ofList_toList]

theorem append {colored' plain' : String} (second : Uncolors colored' plain') :
    Uncolors (colored ++ colored') (plain ++ plain') := by
  intro rest
  rw [String.toList_append, String.toList_append, List.append_assoc, uncolors, second,
    List.append_assoc]

/-- With and without colours, a painted text leaves the text. -/
theorem paint (on : Bool) (style : List Attribute) :
    Uncolors (Terminal.paint on style colored) plain := by
  have sequences : Uncolors (String.join (style.map fun a => escape a.code)) "" := by
    induction style with
    | nil => exact uncolors_empty
    | cons a style ih =>
        rw [List.map_cons, String.join_cons]
        exact (uncolors_attribute a).append ih
  unfold Terminal.paint
  split
  · have painted := (sequences.append uncolors).append uncolors_reset
    rwa [String.empty_append, String.append_empty] at painted
  · exact uncolors

end Uncolors

/-- Texts one after the other. -/
theorem uncolors_join {α : Type} {xs : List α} {colored plain : α → String}
    (each : ∀ x ∈ xs, Uncolors (colored x) (plain x)) :
    Uncolors (String.join (xs.map colored)) (String.join (xs.map plain)) := by
  induction xs with
  | nil => exact uncolors_empty
  | cons x xs ih =>
      obtain ⟨first, later⟩ := List.forall_mem_cons.mp each
      rw [List.map_cons, List.map_cons, String.join_cons, String.join_cons]
      exact first.append (ih later)

/-- Bold and red leave the word. -/
example : stripped "\x1b[31m\x1b[1mError\x1b[0m" = "Error" := by decide +kernel

/-- A sequence needs its digits. -/
example : stripped "\x1b[m \x1b[1" = "\x1b[m \x1b[1" := by decide +kernel

end Calculator.Terminal
