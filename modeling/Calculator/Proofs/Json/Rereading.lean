/-
# Calculator.Proofs.Json.Rereading -- a tree that was written is read again

In either layout the text of a tree is read as that tree, if its strings are texts and its
numbers have digits (`Value.Legible`).  The induction is on the tree.  Each value is read up to
what stands behind it, with a fuel of twice its characters (`Value.Reread`); the blanks of a
layout are skipped in front of an item, a member and a closing bracket, and cost nothing.

* `Value.Legible.reread`: a value in front of anything that cannot be part of it;
* `Value.ofText?_written`: a whole text, in either layout.
-/
import Mathlib.Data.List.DropRight
import Calculator.Proofs.Json.Numbers
import Calculator.Proofs.Json.Strings

namespace Calculator.Json

set_option autoImplicit false

/-- Texts, and numbers with digits wherever the reader asks for them, all the way down. -/
inductive Value.Legible : Value → Prop
  | null : Legible .null
  | bool (b : Bool) : Legible (.bool b)
  | number {n : Number} (legible : n.Legible) : Legible (.number n)
  | string {ps : List Piece} (text : IsText ps) : Legible (.string ps)
  | array {items : List Value} (each : ∀ item ∈ items, Legible item) : Legible (.array items)
  | object {members : List (List Piece × Value)} (keys : ∀ member ∈ members, IsText member.1)
      (values : ∀ member ∈ members, Legible member.2) : Legible (.object members)

/-! ## Blanks -/

theorem skipBlanks_cons {c : Char} (visible : isBlank c = false) (cs : List Char) :
    skipBlanks (c :: cs) = c :: cs := by
  simp [skipBlanks, visible]

theorem skipBlanks_skipBlanks (cs : List Char) : skipBlanks (skipBlanks cs) = skipBlanks cs :=
  List.dropWhile_idempotent _ _

/-- The blanks of a layout are skipped. -/
theorem skipBlanks_lineBreak (layout : Layout) (cs : List Char) :
    skipBlanks (layout.lineBreak ++ cs) = skipBlanks cs := by
  have blank : ∀ c ∈ layout.lineBreak, isBlank c = true := by
    intro c member
    cases layout with
    | compact => cases member
    | pretty depth =>
        rcases List.mem_cons.mp member with rfl | space
        · rfl
        · rw [List.eq_of_mem_replicate space]
          rfl
  exact List.dropWhile_append_of_pos blank

theorem readValue_skipBlanks (fuel : Nat) (cs : List Char) :
    readValue fuel (skipBlanks cs) = readValue fuel cs := by
  cases fuel with
  | zero => rfl
  | succ fuel => rw [readValue, readValue, skipBlanks_skipBlanks]

/-- A value is read behind the blanks of a layout. -/
theorem readValue_lineBreak (fuel : Nat) (layout : Layout) (cs : List Char) :
    readValue fuel (layout.lineBreak ++ cs) = readValue fuel cs := by
  rw [← readValue_skipBlanks, skipBlanks_lineBreak, readValue_skipBlanks]

theorem readItems_lineBreak (fuel : Nat) (layout : Layout) (cs : List Char) :
    readItems fuel (layout.lineBreak ++ cs) = readItems fuel cs := by
  cases fuel with
  | zero => rfl
  | succ fuel => rw [readItems, readItems, readValue_lineBreak]

theorem readMembers_lineBreak (fuel : Nat) (layout : Layout) (cs : List Char) :
    readMembers fuel (layout.lineBreak ++ cs) = readMembers fuel cs := by
  cases fuel with
  | zero => rfl
  | succ fuel => rw [readMembers, readMembers, skipBlanks_lineBreak]

/-- What a layout puts behind a value ends it. -/
theorem ends_lineBreak (layout : Layout) {rest : List Char} (ends : Ends rest) :
    Ends (layout.lineBreak ++ rest) := by
  cases layout with
  | compact => exact ends
  | pretty depth => exact ends_cons (by decide) _

/-! ## Atoms -/

/-- The value is read in front of whatever ends it. -/
def Value.Reread (value : Value) : Prop :=
  ∀ (layout : Layout) (fuel : Nat) (rest : List Char),
    2 * (value.written layout).length ≤ fuel → Ends rest →
      readValue fuel (value.written layout ++ rest) = some (value, rest)

/-- The first character of a number. -/
theorem Number.Legible.exists_first {n : Number} (legible : n.Legible) :
    ∃ c cs, n.written = c :: cs ∧ (c = '-' ∨ c.isDigit) := by
  obtain ⟨d, ds, whole⟩ := List.exists_cons_of_ne_nil legible.whole.nonempty
  rw [Number.written_eq, whole]
  cases n.negative with
  | true => exact ⟨'-', _, rfl, .inl rfl⟩
  | false =>
      refine ⟨d, _, rfl, .inr (legible.whole.each d ?_)⟩
      rw [whole]
      exact List.mem_cons_self

/-- What a value is that begins like a number. -/
theorem readValue_number {c : Char} (first : c = '-' ∨ c.isDigit) (fuel : Nat) (cs : List Char) :
    readValue (fuel + 1) (c :: cs) =
      (readNumber (c :: cs)).bind fun (n, rest) => some (.number n, rest) := by
  have other (d : Char) (plain : d.isDigit = false ∧ d ≠ '-') : c ≠ d := by
    rintro rfl
    rcases first with minus | digit
    · exact plain.2 minus
    · exact absurd digit (by simp [plain.1])
  have visible : isBlank c = false := by simp [isBlank, other]
  rw [readValue, skipBlanks_cons visible]
  split
  case h_7 => rfl
  all_goals
    rename_i shape
    exact absurd (List.cons.inj shape).1 (other _ (by decide))

theorem readValue_string (fuel : Nat) (cs : List Char) :
    readValue (fuel + 1) ('"' :: cs) =
      (readPieces cs).bind fun (ps, rest) => some (.string ps, rest) := by
  rw [readValue, skipBlanks_cons rfl]
  rfl

/-- An array with something other than its closing bracket behind the opening one. -/
theorem readValue_array (fuel : Nat) (layout : Layout) {c : Char}
    (inside : isBlank c = false ∧ c ≠ ']') (cs : List Char) :
    readValue (fuel + 1) ('[' :: (layout.lineBreak ++ c :: cs)) =
      (readItems fuel (c :: cs)).bind fun read => some (.array read.1, read.2) := by
  have other : ∀ rest, c :: cs ≠ ']' :: rest := fun rest closed =>
    inside.2 (List.cons.inj closed).1
  rw [readValue, skipBlanks_cons rfl]
  simp only [skipBlanks_lineBreak, skipBlanks_cons inside.1]
  rfl

/-- An object with a key behind the opening brace. -/
theorem readValue_object (fuel : Nat) (layout : Layout) (cs : List Char) :
    readValue (fuel + 1) ('\x7b' :: (layout.lineBreak ++ '"' :: cs)) =
      (readMembers fuel ('"' :: cs)).bind fun read => some (.object read.1, read.2) := by
  have visible : isBlank '"' = false := rfl
  rw [readValue, skipBlanks_cons rfl]
  simp only [skipBlanks_lineBreak, skipBlanks_cons visible]
  rfl

theorem reread_number {n : Number} (legible : n.Legible) : (Value.number n).Reread := by
  intro layout fuel rest enough ends
  obtain ⟨c, cs, written, first⟩ := legible.exists_first
  have read := readNumber_written legible ends
  rw [Value.written] at enough ⊢
  rw [written] at enough read ⊢
  obtain ⟨fuel, rfl⟩ : ∃ k, fuel = k + 1 := ⟨fuel - 1, by simp at enough; omega⟩
  rw [List.cons_append] at read ⊢
  rw [readValue_number first, read]
  rfl

theorem quoted_append (ps : List Piece) (rest : List Char) :
    quoted ps ++ rest = '"' :: (ps.flatMap Piece.written ++ '"' :: rest) := by
  simp [quoted]

theorem reread_string {ps : List Piece} (text : IsText ps) : (Value.string ps).Reread := by
  intro layout fuel rest enough ends
  rw [Value.written] at enough ⊢
  obtain ⟨fuel, rfl⟩ : ∃ k, fuel = k + 1 := ⟨fuel - 1, by simp [quoted] at enough; omega⟩
  rw [quoted_append, readValue_string, readPieces_written text]
  rfl

/-! ## Items and members -/

/-- The first character of a value. -/
theorem Value.Legible.exists_first {value : Value} (legible : value.Legible) (layout : Layout) :
    ∃ c cs, value.written layout = c :: cs ∧ isBlank c = false ∧ c ≠ ']' := by
  cases legible with
  | null => exact ⟨'n', _, rfl, by decide⟩
  | bool b => cases b <;> exact ⟨_, _, rfl, by decide⟩
  | number legible =>
      obtain ⟨c, cs, written, first⟩ := legible.exists_first
      refine ⟨c, cs, by rw [Value.written, written], ?_⟩
      rcases first with rfl | digit
      · decide
      · have other (d : Char) (plain : d.isDigit = false) : c ≠ d := by
          rintro rfl
          exact absurd digit (by simp [plain])
        simp [isBlank, other]
  | string text => exact ⟨'"', _, rfl, by decide⟩
  | @array items each =>
      cases items <;> exact ⟨'[', _, rfl, by decide⟩
  | @object members keys values =>
      cases members <;> exact ⟨'\x7b', _, rfl, by decide⟩

/-- A closing bracket on its own line ends a value. -/
theorem ends_closing (layout : Layout) {bracket : Char} (closing : bracket = ']' ∨ bracket = '\x7d')
    (rest : List Char) : Ends (layout.lineBreak ++ bracket :: rest) := by
  refine ends_lineBreak layout (ends_cons ?_ rest)
  rcases closing with rfl | rfl <;> decide

/-- What stands behind an item ends it: a comma, or the closing bracket. -/
theorem ends_writtenItems (layout outer : Layout) (items : List Value) (rest : List Char) :
    Ends (writtenItems layout items ++ (outer.lineBreak ++ ']' :: rest)) := by
  cases items with
  | nil => exact ends_closing outer (.inl rfl) rest
  | cons item items => exact ends_cons (by decide) _

theorem ends_writtenMembers (layout outer : Layout) (members : List (List Piece × Value))
    (rest : List Char) :
    Ends (writtenMembers layout members ++ (outer.lineBreak ++ '\x7d' :: rest)) := by
  cases members with
  | nil => exact ends_closing outer (.inr rfl) rest
  | cons member members => exact ends_cons (by decide) _

/-- Items are read up to the closing bracket. -/
theorem readItems_written (layout outer : Layout) {items : List Value} :
    ∀ {item : Value}, (∀ value ∈ item :: items, value.Reread) → ∀ (fuel : Nat) (rest : List Char),
      2 * (item.written layout ++ writtenItems layout items).length + 1 ≤ fuel →
        readItems fuel (item.written layout ++
            (writtenItems layout items ++ (outer.lineBreak ++ ']' :: rest))) =
          some (item :: items, rest) := by
  induction items with
  | nil =>
      intro item each fuel rest enough
      obtain ⟨fuel, rfl⟩ : ∃ k, fuel = k + 1 := ⟨fuel - 1, by omega⟩
      rw [List.length_append] at enough
      have first := each item List.mem_cons_self layout fuel _ (by omega)
        (ends_writtenItems layout outer [] rest)
      rw [readItems, first, Option.bind_eq_bind, Option.bind_some]
      dsimp only
      rw [writtenItems, List.nil_append, skipBlanks_lineBreak, skipBlanks_cons (by decide)]
      rfl
  | cons next items ih =>
      intro item each fuel rest enough
      obtain ⟨fuel, rfl⟩ : ∃ k, fuel = k + 1 := ⟨fuel - 1, by omega⟩
      have first := each item List.mem_cons_self layout fuel _ (by
        rw [List.length_append] at enough
        omega) (ends_writtenItems layout outer (next :: items) rest)
      have others := ih (fun value member => each value (List.mem_cons_of_mem item member)) fuel
        rest (by
          simp only [writtenItems, List.length_append, List.length_cons] at enough ⊢
          omega)
      rw [readItems, first, Option.bind_eq_bind, Option.bind_some]
      dsimp only
      rw [writtenItems]
      simp only [List.cons_append, List.append_assoc]
      rw [skipBlanks_cons (by decide)]
      show (readItems fuel (layout.lineBreak ++ _)).bind _ = _
      rw [readItems_lineBreak, others]
      rfl

/-- Behind the colon a value may stand after a blank. -/
theorem readValue_colon (layout : Layout) :
    ∃ gap, layout.colon = ':' :: gap ∧
      ∀ (fuel : Nat) (cs : List Char), readValue fuel (gap ++ cs) = readValue fuel cs := by
  cases layout with
  | compact => exact ⟨[], rfl, fun _ _ => rfl⟩
  | pretty depth =>
      refine ⟨[' '], rfl, fun fuel cs => ?_⟩
      rw [← readValue_skipBlanks fuel cs, ← readValue_skipBlanks fuel ([' '] ++ cs)]
      rfl

/-- One member is read; what stands behind it says whether there are more. -/
theorem readMembers_cons {layout : Layout} {key : List Piece} {value : Value} (text : IsText key)
    (reread : value.Reread) {fuel : Nat} {rest : List Char}
    (enough : 2 * (value.written layout).length ≤ fuel) (ends : Ends rest) :
    readMembers (fuel + 1) (quoted key ++ (layout.colon ++ (value.written layout ++ rest))) =
      match skipBlanks rest with
      | ',' :: rest => (readMembers fuel rest).bind fun (members, rest) =>
          some ((key, value) :: members, rest)
      | '\x7d' :: rest => some ([(key, value)], rest)
      | _ => none := by
  obtain ⟨gap, colon, skipped⟩ := readValue_colon layout
  have member := reread layout fuel rest enough ends
  rw [quoted_append, readMembers, skipBlanks_cons (by decide)]
  show (readPieces _).bind _ = _
  rw [readPieces_written text, Option.bind_some, colon]
  dsimp only
  rw [List.cons_append, skipBlanks_cons (by decide)]
  show (readValue fuel (gap ++ _)).bind _ = _
  rw [skipped, member, Option.bind_some]
  rfl

/-- Members are read up to the closing brace. -/
theorem readMembers_written (layout outer : Layout) {members : List (List Piece × Value)} :
    ∀ {key : List Piece} {value : Value},
      (∀ member ∈ (key, value) :: members, IsText member.1 ∧ member.2.Reread) →
      ∀ (fuel : Nat) (rest : List Char),
        2 * (value.written layout ++ writtenMembers layout members).length + 1 ≤ fuel →
          readMembers fuel (quoted key ++ (layout.colon ++ (value.written layout ++
              (writtenMembers layout members ++ (outer.lineBreak ++ '\x7d' :: rest))))) =
            some ((key, value) :: members, rest) := by
  induction members with
  | nil =>
      intro key value each fuel rest enough
      obtain ⟨fuel, rfl⟩ : ∃ k, fuel = k + 1 := ⟨fuel - 1, by omega⟩
      obtain ⟨text, reread⟩ := each (key, value) List.mem_cons_self
      have enoughFirst : 2 * (value.written layout).length ≤ fuel := by
        rw [List.length_append] at enough
        omega
      rw [readMembers_cons text reread enoughFirst (ends_writtenMembers layout outer [] rest),
        writtenMembers, List.nil_append, skipBlanks_lineBreak, skipBlanks_cons (by decide)]
      rfl
  | cons next members ih =>
      obtain ⟨nextKey, nextValue⟩ := next
      intro key value each fuel rest enough
      obtain ⟨fuel, rfl⟩ : ∃ k, fuel = k + 1 := ⟨fuel - 1, by omega⟩
      obtain ⟨text, reread⟩ := each (key, value) List.mem_cons_self
      have others := ih (fun member inside => each member (List.mem_cons_of_mem _ inside)) fuel
        rest (by
          simp only [writtenMembers, List.length_append, List.length_cons] at enough ⊢
          omega)
      have enoughFirst : 2 * (value.written layout).length ≤ fuel := by
        rw [List.length_append] at enough
        omega
      rw [readMembers_cons text reread enoughFirst
        (ends_writtenMembers layout outer ((nextKey, nextValue) :: members) rest), writtenMembers]
      simp only [List.cons_append, List.append_assoc]
      rw [skipBlanks_cons (by decide)]
      show (readMembers fuel (layout.lineBreak ++ _)).bind _ = _
      rw [readMembers_lineBreak, others]
      rfl

/-! ## Trees -/

theorem reread_array {items : List Value} (legible : ∀ item ∈ items, item.Legible)
    (each : ∀ item ∈ items, item.Reread) : (Value.array items).Reread := by
  intro layout fuel rest enough ends
  cases items with
  | nil =>
      obtain ⟨fuel, rfl⟩ : ∃ k, fuel = k + 1 :=
        ⟨fuel - 1, by simp [Value.written] at enough; omega⟩
      rfl
  | cons item items =>
      rw [Value.written] at enough ⊢
      simp only [List.length_append, List.length_cons, List.length_nil] at enough
      obtain ⟨fuel, rfl⟩ : ∃ k, fuel = k + 1 := ⟨fuel - 1, by omega⟩
      obtain ⟨c, cs, first, visible, notClosed⟩ :=
        (legible item List.mem_cons_self).exists_first layout.deeper
      have read := readItems_written layout.deeper layout each fuel rest (by
        rw [List.length_append]
        omega)
      simp only [List.cons_append, List.append_assoc, List.nil_append]
      rw [first, List.cons_append] at read ⊢
      rw [readValue_array fuel layout.deeper ⟨visible, notClosed⟩, read]
      rfl

theorem reread_object {members : List (List Piece × Value)}
    (each : ∀ member ∈ members, IsText member.1 ∧ member.2.Reread) :
    (Value.object members).Reread := by
  intro layout fuel rest enough ends
  cases members with
  | nil =>
      obtain ⟨fuel, rfl⟩ : ∃ k, fuel = k + 1 :=
        ⟨fuel - 1, by simp [Value.written] at enough; omega⟩
      rfl
  | cons member members =>
      obtain ⟨key, value⟩ := member
      rw [Value.written] at enough ⊢
      simp only [List.length_append, List.length_cons, List.length_nil] at enough
      obtain ⟨fuel, rfl⟩ : ∃ k, fuel = k + 1 := ⟨fuel - 1, by omega⟩
      have read := readMembers_written layout.deeper layout each fuel rest (by
        rw [List.length_append]
        omega)
      simp only [List.cons_append, List.append_assoc, List.nil_append]
      rw [quoted_append] at read ⊢
      rw [readValue_object fuel layout.deeper, read]
      rfl

/-- **A tree is read from what it was written as**, whatever follows that does not go on. -/
theorem Value.Legible.reread {value : Value} (legible : value.Legible) : value.Reread := by
  induction legible with
  | null =>
      intro layout fuel rest enough ends
      obtain ⟨fuel, rfl⟩ : ∃ k, fuel = k + 1 := ⟨fuel - 1, by simp [written] at enough; omega⟩
      rfl
  | bool b =>
      intro layout fuel rest enough ends
      obtain ⟨fuel, rfl⟩ : ∃ k, fuel = k + 1 :=
        ⟨fuel - 1, by cases b <;> simp [written] at enough <;> omega⟩
      cases b <;> rfl
  | number legible => exact reread_number legible
  | string text => exact reread_string text
  | array legible each => exact reread_array legible each
  | object texts legible each =>
      exact reread_object fun member inside => ⟨texts member inside, each member inside⟩

/-- **A text that was written from a tree is read as that tree**, in either layout. -/
theorem Value.ofText?_written {value : Value} (legible : value.Legible) (layout : Layout) :
    ofText? (String.ofList (value.written layout)) = some value := by
  have read := legible.reread layout (2 * (value.written layout).length + 2) [] (by omega) ends_nil
  rw [List.append_nil] at read
  rw [ofText?, String.toList_ofList, read]
  rfl

theorem Value.ofText?_pretty {value : Value} (legible : value.Legible) :
    ofText? value.pretty = some value :=
  ofText?_written legible (.pretty 0)

end Calculator.Json
