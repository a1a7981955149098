/-
# Calculator.Proofs.CommandLine.Argument -- the text of an argument

`Argument.text` writes an argument; every text is written by the argument that it is read as
(`text_ofText`).  The other way round, what is written is read back where no name has an
equals sign in it and no group of letters starts with a dash.

* `ofText_long`, `ofText_longValue`, `ofText_short`: the forms of options;
* `ofText_plain`: all that is no option.
-/
import Mathlib.Data.List.TakeWhile
import Calculator.CommandLine.Options

namespace Calculator.CommandLine

set_option autoImplicit false

/-! ## A name and its value -/

theorem ne_equals_of_notMem {cs : List Char} (noEquals : '=' ∉ cs) :
    ∀ c ∈ cs, (c != '=') = true := by
  intro c member
  rw [bne_iff_ne]
  rintro rfl
  exact noEquals member

theorem splitValue_of_notMem {cs : List Char} (noEquals : '=' ∉ cs) :
    splitValue cs = (String.ofList cs, none) := by
  have all := ne_equals_of_notMem noEquals
  rw [splitValue, List.dropWhile_eq_nil_iff.mpr all, List.takeWhile_eq_self_iff.mpr all]

theorem splitValue_append {cs : List Char} (noEquals : '=' ∉ cs) (value : List Char) :
    splitValue (cs ++ '=' :: value) = (String.ofList cs, some (String.ofList value)) := by
  have all := ne_equals_of_notMem noEquals
  rw [splitValue, List.takeWhile_append_of_pos all, List.dropWhile_append_of_pos all]
  simp

/-- An argument that does not look like an option, and so may be the value of one. -/
def Detachable (text : String) : Prop := text = "-" ∨ text.toList.head? ≠ some '-'

namespace Argument

def text : Argument → String
  | .plain text => text
  | .endOfOptions => "--"
  | .long name none => "--" ++ name
  | .long name (some value) => "--" ++ name ++ "=" ++ value
  | .short letters => String.ofList ('-' :: letters)

/-! ## Reading what is written -/

/-- Behind two dashes there is a name. -/
theorem ofText_dashes {rest : List Char} (present : rest ≠ []) :
    ofText (String.ofList ('-' :: '-' :: rest)) =
      .long (splitValue rest).1 (splitValue rest).2 := by
  obtain ⟨c, cs, rfl⟩ := List.exists_cons_of_ne_nil present
  simp [ofText]

theorem ofText_long {name : String} (named : name ≠ "") (noEquals : '=' ∉ name.toList) :
    ofText ("--" ++ name) = .long name none := by
  have written : "--" ++ name = String.ofList ('-' :: '-' :: name.toList) := by
    rw [← String.toList_inj]
    simp
  rw [written, ofText_dashes (by simpa using named), splitValue_of_notMem noEquals,
    String.ofList_toList]

theorem ofText_longValue {name : String} (noEquals : '=' ∉ name.toList) (value : String) :
    ofText ("--" ++ name ++ "=" ++ value) = .long name (some value) := by
  have written : "--" ++ name ++ "=" ++ value =
      String.ofList ('-' :: '-' :: (name.toList ++ '=' :: value.toList)) := by
    rw [← String.toList_inj]
    simp
  rw [written, ofText_dashes (by simp), splitValue_append noEquals, String.ofList_toList,
    String.ofList_toList]

theorem ofText_short {letter : Char} {letters : List Char} (noName : letter ≠ '-') :
    ofText (String.ofList ('-' :: letter :: letters)) = .short (letter :: letters) := by
  simp [ofText, noName]

/-- What does not look like an option is plain. -/
theorem ofText_plain {argument : String} (detachable : Detachable argument) :
    ofText argument = .plain argument := by
  rcases detachable with rfl | other
  · rfl
  · unfold ofText
    split
    · rename_i dashes
      simp [dashes] at other
    · rename_i dashes
      simp [dashes] at other
    · rename_i dash
      simp [dash] at other
    · rfl

/-! ## Writing what was read -/

theorem text_splitValue (cs : List Char) :
    (long (splitValue cs).1 (splitValue cs).2).text = String.ofList ('-' :: '-' :: cs) := by
  rw [← String.toList_inj]
  by_cases equals : '=' ∈ cs
  · obtain ⟨name, value, rfl, noEquals⟩ := List.eq_append_cons_of_mem equals
    rw [splitValue_append noEquals]
    simp [text]
  · rw [splitValue_of_notMem equals]
    simp [text]

/-- Every text is written by the argument that it is read as. -/
theorem text_ofText (argument : String) : (ofText argument).text = argument := by
  unfold ofText
  split
  · rename_i dashes
    exact (String.toList_inj.mp dashes).symm
  · rename_i rest _ dashes
    rw [text_splitValue, ← dashes, String.ofList_toList]
  · rename_i letter letters _ dash
    rw [text, ← dash, String.ofList_toList]
  · rfl

theorem eq_of_plain {argument text : String} (plain : ofText argument = .plain text) :
    argument = text := by
  rw [← text_ofText argument, plain]
  rfl

/-- A group has letters. -/
theorem ne_nil_of_short {argument : String} {letters : List Char}
    (short : ofText argument = .short letters) : letters ≠ [] := by
  unfold ofText at short
  split at short <;> cases short
  exact List.cons_ne_nil _ _

/-- What is read as plain does not look like an option. -/
theorem detachable_of_plain {argument text : String} (plain : ofText argument = .plain text) :
    Detachable argument := by
  unfold ofText at plain
  split at plain
  · cases plain
  · cases plain
  · cases plain
  · rename_i noGroup
    by_cases dash : argument.toList.head? = some '-'
    · -- behind a dash there is nothing, for anything would make an option
      obtain ⟨rest, list⟩ := List.head?_eq_some_iff.mp dash
      cases rest with
      | nil => exact .inl (String.toList_inj.mp list)
      | cons letter letters => exact absurd list (noGroup letter letters)
    · exact .inr dash

end Argument

end Calculator.CommandLine
