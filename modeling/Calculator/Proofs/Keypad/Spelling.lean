/-
# Calculator.Proofs.Keypad.Spelling -- the characters of a key

`Key.spellings` lists the characters that a script may write for a key, and
`Key.ofChar?_eq_some_iff` says that the list is complete: no other character stands
for the key.  None of them is blank, so a script that spells keys, one after the
other, is read as those keys.

* `Key.ofChar?_eq_some_iff`: which characters stand for a key;
* `Script.keysOfChars_cons`, `Script.keysOfChars_append`: scripts are read in parts.
-/
import Calculator.Keypad
import Calculator.Proofs.Decimal.Digits

namespace Calculator

set_option autoImplicit false

/-- What a list's test decides holds of each of its members. -/
theorem of_all {α : Type} {p : α → Prop} [DecidablePred p] {xs : List α}
    (all : xs.all (fun x => decide (p x)) = true) {x : α} (member : x ∈ xs) : p x :=
  of_decide_eq_true (List.all_eq_true.mp all x member)

namespace Operator

/-- The characters of an operator's key: those of the operator, and the letter for
times. -/
def spellings : Operator → List Char
  | .add => ['+']
  | .subtract => ['-', '−']
  | .multiply => ['×', '*', 'x', 'X']
  | .divide => ['÷', '/']

theorem mem_spellings_of_ofChar? {c : Char} {op : Operator} (read : ofChar? c = some op) :
    c ∈ op.spellings := by
  unfold ofChar? at read
  split at read <;> cases read <;> decide

/-- An operator's own character is one of its key's. -/
theorem glyph_mem_spellings (op : Operator) : op.glyph ∈ op.spellings := by
  cases op <;> decide

end Operator

namespace Key

/-- The characters that stand for a key; a digit above nine has none. -/
def spellings : Key → List Char
  | .digit value => if value < 10 then [value.digitChar] else []
  | .point => ['.']
  | .operator op => op.spellings
  | .toggleSign => ['~', 'n', '±']
  | .clearAll => ['c', 'C']
  | .evaluate => ['=']

theorem mem_spellings_of_ofChar? {c : Char} {key : Key} (read : ofChar? c = some key) :
    c ∈ key.spellings := by
  unfold ofChar? at read
  split at read
  · rename_i digit
    obtain ⟨small, same⟩ := Decimal.digitChar_of_isDigit digit
    obtain rfl := Option.some.inj read
    rw [spellings, if_pos small, same, List.mem_singleton]
  · split at read
    any_goals
      obtain rfl := Option.some.inj read
      decide
    obtain ⟨op, spelled, rfl⟩ := Option.map_eq_some_iff.mp read
    exact Operator.mem_spellings_of_ofChar? spelled

/-- A script reads a character as a key: it stands for the key, and is not skipped. -/
def ReadAs (key : Key) (c : Char) : Prop := ofChar? c = some key ∧ Text.isBlank c = false

instance (key : Key) (c : Char) : Decidable (key.ReadAs c) :=
  inferInstanceAs (Decidable (_ ∧ _))

theorem readAs_digit {value : Nat} (small : value < 10) : ReadAs (.digit value) value.digitChar := by
  have digit : value.digitChar.isDigit := by simp [Nat.isDigit_digitChar, small]
  have same := Nat.toNat_digitChar_of_lt_ten small
  refine ⟨?_, ?_⟩
  · unfold ofChar?
    rw [if_pos digit, same, show '0'.toNat = 48 from rfl, Nat.add_sub_cancel_left]
  · simp only [Text.isBlank, Text.blankRanges, same, List.any_cons, List.any_nil, Bool.or_false,
      Bool.or_eq_false_iff, Bool.and_eq_false_iff, decide_eq_false_iff_not]
    omega

theorem readAs_of_mem_spellings {c : Char} {key : Key} (spelled : c ∈ key.spellings) :
    key.ReadAs c := by
  cases key with
  | digit value =>
      rw [spellings] at spelled
      split at spelled
      · rename_i small
        obtain rfl := List.mem_singleton.mp spelled
        exact readAs_digit small
      · cases spelled
  | operator op => cases op <;> exact of_all (by decide) spelled
  | _ => exact of_all (by decide) spelled

/-- **A key has its spellings and no other.** -/
theorem ofChar?_eq_some_iff {c : Char} {key : Key} :
    ofChar? c = some key ↔ c ∈ key.spellings :=
  ⟨mem_spellings_of_ofChar?, fun spelled => (readAs_of_mem_spellings spelled).1⟩

end Key

namespace Script

theorem keysOfChars_cons {c : Char} {key : Key} (spelled : c ∈ key.spellings) {rest : List Char}
    {keys : List Key} (read : keysOfChars rest = .ok keys) :
    keysOfChars (c :: rest) = .ok (key :: keys) := by
  obtain ⟨known, visible⟩ := Key.readAs_of_mem_spellings spelled
  rw [keysOfChars, if_neg (by simp [visible]), known, read]

/-- A script that can be read goes on with the keys of what follows. -/
theorem keysOfChars_append {first : List Char} {keys : List Key} (second : List Char)
    (read : keysOfChars first = .ok keys) :
    keysOfChars (first ++ second) = (keysOfChars second).map (keys ++ ·) := by
  induction first generalizing keys with
  | nil =>
      obtain rfl := Except.ok.inj read
      rw [List.nil_append]
      cases keysOfChars second <;> rfl
  | cons c first ih =>
      rw [keysOfChars] at read
      rw [List.cons_append, keysOfChars]
      split at read
      · rename_i blank
        rw [if_pos blank]
        exact ih read
      · rename_i visible
        rw [if_neg visible]
        cases known : Key.ofChar? c with
        | none =>
            rw [known] at read
            cases read
        | some key =>
          rw [known] at read
          dsimp only at read ⊢
          cases earlier : keysOfChars first with
          | error fault =>
              rw [earlier] at read
              cases read
          | ok more =>
              rw [earlier] at read
              obtain rfl := Except.ok.inj read
              rw [ih earlier]
              cases keysOfChars second <;> rfl

end Script

end Calculator
