/-
# Calculator.Proofs.Expression.Alternation -- numerals and operators in turn

Numerals belong at the even positions of a list of tokens and operators at the odd
ones (`Token.Fits`).  A list is an expression when all its tokens fit and the last
one is a numeral; of any other list the end is looked at first, then the first token
that does not fit.

* `Token.expression_iff`: expressions are a numeral and operators with a numeral each;
* `checkShape_alternates`: they pass the check;
* `checkShape_unfinished`: an unfinished list is incomplete;
* `checkShape_unfit`: otherwise the first unfit token is at fault.
-/
import Mathlib.Data.List.Basic
import Mathlib.Data.List.Induction
import Calculator.Expression

namespace Calculator

set_option autoImplicit false

namespace Token

/-! ## Tokens in their places -/

/-- Numerals have even positions and operators odd ones. -/
def Fits (position : Nat) (token : Token) : Prop := token.isNumeral ↔ position % 2 = 0

instance (position : Nat) (token : Token) : Decidable (token.Fits position) :=
  inferInstanceAs (Decidable (_ ↔ _))

/-- All tokens fit when the first of them has the given position. -/
def AlternatesFrom (position : Nat) (tokens : List Token) : Prop :=
  ∀ (i : Nat) (token : Token), tokens[i]? = some token → token.Fits (position + i)

/-- Numerals and operators alternate, a numeral first. -/
def Alternates (tokens : List Token) : Prop := AlternatesFrom 0 tokens

/-- There is no expression, or an operator waits for its operand. -/
def Unfinished (tokens : List Token) : Prop :=
  tokens = [] ∨ ∃ op, tokens.getLast? = some (.operator op)

theorem not_unfinished_iff {tokens : List Token} :
    ¬ Unfinished tokens ↔ ∃ text, tokens.getLast? = some (.numeral text) := by
  rw [Unfinished]
  cases last : tokens.getLast? with
  | none => simp [List.getLast?_eq_none_iff.mp last]
  | some token =>
      have present : tokens ≠ [] := fun empty => by simp [empty] at last
      cases token <;> simp [present]

theorem fits_iff {position : Nat} {token : Token} :
    token.Fits position ↔ token.isNumeral = (position % 2 == 0) := by
  rw [Bool.eq_iff_iff, beq_iff_eq, Fits]

theorem alternatesFrom_nil (position : Nat) : AlternatesFrom position [] := by
  intro i token found
  simp at found

theorem alternatesFrom_cons {position : Nat} {token : Token} {tokens : List Token} :
    AlternatesFrom position (token :: tokens) ↔
      token.Fits position ∧ AlternatesFrom (position + 1) tokens := by
  constructor
  · intro fit
    refine ⟨fit 0 token rfl, fun i t found => ?_⟩
    have shifted := fit (i + 1) t (by simpa using found)
    rwa [show position + (i + 1) = position + 1 + i by omega] at shifted
  · rintro ⟨first, rest⟩ i t found
    cases i with
    | zero =>
        obtain rfl : token = t := by simpa using found
        exact first
    | succ i =>
        rw [show position + (i + 1) = position + 1 + i by omega]
        exact rest i t (by simpa using found)

theorem alternatesFrom_append {position : Nat} {front back : List Token} :
    AlternatesFrom position (front ++ back) ↔
      AlternatesFrom position front ∧ AlternatesFrom (position + front.length) back := by
  induction front generalizing position with
  | nil => simp [alternatesFrom_nil]
  | cons token front ih =>
      rw [List.cons_append, alternatesFrom_cons, alternatesFrom_cons, ih, and_assoc,
        List.length_cons, show position + 1 + front.length = position + (front.length + 1) by omega]

/-- Only the parity of the position matters. -/
theorem alternatesFrom_congr {position other : Nat} {tokens : List Token}
    (same : position % 2 = other % 2) :
    AlternatesFrom position tokens ↔ AlternatesFrom other tokens := by
  have parity (i : Nat) : (position + i) % 2 = (other + i) % 2 := by omega
  simp only [AlternatesFrom, Fits, parity]

theorem alternates_append_singleton {tokens : List Token} {token : Token} :
    Alternates (tokens ++ [token]) ↔ Alternates tokens ∧ token.Fits tokens.length := by
  rw [Alternates, alternatesFrom_append, alternatesFrom_cons]
  simp [Alternates, alternatesFrom_nil]

/-- A list that does not alternate has a first token that does not fit. -/
theorem exists_first_unfit {tokens : List Token} (broken : ¬ Alternates tokens) :
    ∃ before token after, tokens = before ++ token :: after ∧ Alternates before ∧
      ¬ token.Fits before.length := by
  -- on the last token: either an earlier one is unfit, or it is the first
  induction tokens using List.reverseRecOn with
  | nil => exact absurd (alternatesFrom_nil 0) broken
  | append_singleton tokens last ih =>
      by_cases alternates : Alternates tokens
      · refine ⟨tokens, last, [], rfl, alternates, fun fits => broken ?_⟩
        exact alternates_append_singleton.mpr ⟨alternates, fits⟩
      · obtain ⟨before, token, after, rfl, rest⟩ := ih alternates
        exact ⟨before, token, after ++ [last], by simp, rest⟩

theorem eq_operator_of_fits {position : Nat} {token : Token} (odd : position % 2 = 1)
    (fits : token.Fits position) : ∃ op, token = .operator op := by
  cases token with
  | operator op => exact ⟨op, rfl⟩
  | numeral text => simp [Fits, isNumeral, odd] at fits

theorem eq_numeral_of_fits {position : Nat} {token : Token} (even : position % 2 = 0)
    (fits : token.Fits position) : ∃ text, token = .numeral text := by
  cases token with
  | numeral text => exact ⟨text, rfl⟩
  | operator op => simp [Fits, isNumeral, even] at fits

/-! ## Expressions -/

/-- Operators, each with a numeral behind it. -/
inductive Operations : List Token → Prop where
  | nil : Operations []
  | cons (op : Operator) (text : String) {rest : List Token} (more : Operations rest) :
      Operations (.operator op :: .numeral text :: rest)

theorem Operations.append {front back : List Token} (first : Operations front)
    (second : Operations back) : Operations (front ++ back) := by
  induction first with
  | nil => exact second
  | cons op text _ ih => exact .cons op text ih

theorem Operations.flatMap {α : Type} {f : α → List Token} (each : ∀ x, Operations (f x))
    (list : List α) : Operations (list.flatMap f) := by
  induction list with
  | nil => exact .nil
  | cons x list ih => exact (each x).append ih

theorem Operations.alternatesFrom {rest : List Token} (operations : Operations rest) :
    AlternatesFrom 1 rest := by
  induction operations with
  | nil => exact alternatesFrom_nil 1
  | cons op text _ ih =>
      have shifted := (alternatesFrom_congr (show 1 % 2 = 3 % 2 from rfl)).mp ih
      simp [alternatesFrom_cons, Fits, isNumeral, shifted]

theorem Operations.even_length {rest : List Token} (operations : Operations rest) :
    rest.length % 2 = 0 := by
  induction operations with
  | nil => rfl
  | cons op text _ ih =>
      rw [List.length_cons, List.length_cons]
      omega

/-- A list that alternates from an operator on, and ends with a numeral. -/
theorem operations_of_alternatesFrom :
    ∀ {rest : List Token}, AlternatesFrom 1 rest → rest.length % 2 = 0 → Operations rest
  | [], _, _ => .nil
  | [_], _, even => by simp at even
  | token :: operand :: rest, alternates, even => by
      obtain ⟨first, second, others⟩ :=
        (alternatesFrom_cons.trans (and_congr_right' alternatesFrom_cons)).mp alternates
      obtain ⟨op, rfl⟩ := eq_operator_of_fits rfl first
      obtain ⟨text, rfl⟩ := eq_numeral_of_fits rfl second
      rw [List.length_cons, List.length_cons] at even
      have earlier := (alternatesFrom_congr (show 3 % 2 = 1 % 2 from rfl)).mp others
      exact .cons op text (operations_of_alternatesFrom earlier (by omega))

/-- In a list that alternates, an operand is missing at the even lengths. -/
theorem Alternates.unfinished_iff {tokens : List Token} (alternates : Alternates tokens) :
    Unfinished tokens ↔ tokens.length % 2 = 0 := by
  obtain rfl | ⟨front, last, rfl⟩ := List.eq_nil_or_concat' tokens
  · simp [Unfinished]
  · have fits := (alternates_append_singleton.mp alternates).2
    rw [List.length_append, List.length_singleton]
    cases last with
    | numeral text =>
        have even : front.length % 2 = 0 := fits.mp rfl
        have finished : ¬ Unfinished (front ++ [.numeral text]) :=
          not_unfinished_iff.mpr ⟨text, List.getLast?_concat⟩
        refine ⟨fun unfinished => absurd unfinished finished, fun odd => ?_⟩
        omega
    | operator op =>
        have odd : ¬ front.length % 2 = 0 := fun even => by cases fits.mpr even
        refine ⟨fun _ => by omega, fun _ => .inr ⟨op, List.getLast?_concat⟩⟩

/-- What alternates and ends with a numeral: a numeral, and operators with theirs. -/
theorem expression_iff {tokens : List Token} :
    Alternates tokens ∧ ¬ Unfinished tokens ↔
      ∃ text rest, tokens = .numeral text :: rest ∧ Operations rest := by
  constructor
  · rintro ⟨alternates, finished⟩
    rw [alternates.unfinished_iff] at finished
    cases tokens with
    | nil => simp at finished
    | cons token rest =>
        obtain ⟨first, others⟩ := alternatesFrom_cons.mp alternates
        obtain ⟨text, rfl⟩ := eq_numeral_of_fits rfl first
        refine ⟨text, rest, rfl, operations_of_alternatesFrom others ?_⟩
        rw [List.length_cons] at finished
        omega
  · rintro ⟨text, rest, rfl, operations⟩
    have alternates : Alternates (.numeral text :: rest) := by
      rw [Alternates, alternatesFrom_cons]
      exact ⟨by simp [Fits, isNumeral], operations.alternatesFrom⟩
    refine ⟨alternates, ?_⟩
    have even := operations.even_length
    rw [alternates.unfinished_iff, List.length_cons]
    omega

end Token

/-! ## The check -/

open Token

/-- Tokens that fit pass. -/
theorem checkPlaces_append {front : List Token} (back : List Token) {position : Nat}
    (alternates : AlternatesFrom position front) :
    checkPlaces position (front ++ back) = checkPlaces (position + front.length) back := by
  induction front generalizing position with
  | nil => rfl
  | cons token front ih =>
      obtain ⟨fits, others⟩ := alternatesFrom_cons.mp alternates
      rw [List.cons_append, checkPlaces, if_pos (fits_iff.mp fits), ih others, List.length_cons,
        Nat.add_right_comm, Nat.add_assoc]

theorem checkShape_unfinished {tokens : List Token} (unfinished : Unfinished tokens) :
    checkShape tokens = .error .incomplete := by
  rcases unfinished with rfl | ⟨op, last⟩
  · rfl
  · rw [checkShape, last]

theorem checkShape_finished {tokens : List Token} (finished : ¬ Unfinished tokens) :
    checkShape tokens = checkPlaces 0 tokens := by
  obtain ⟨text, last⟩ := not_unfinished_iff.mp finished
  rw [checkShape, last]

theorem checkShape_alternates {tokens : List Token} (alternates : Alternates tokens)
    (finished : ¬ Unfinished tokens) : checkShape tokens = .ok () := by
  have passed := checkPlaces_append [] alternates
  rwa [List.append_nil, checkPlaces, ← checkShape_finished finished] at passed

/-- In a finished list the first token that does not fit is at fault. -/
theorem checkShape_unfit {before after : List Token} {token : Token}
    (finished : ¬ Unfinished (before ++ token :: after)) (alternates : Alternates before)
    (unfit : ¬ token.Fits before.length) :
    checkShape (before ++ token :: after) = .error (.malformed
      ("unexpected '" ++ token.text ++ "' at position " ++ toString before.length)) := by
  rw [checkShape_finished finished, checkPlaces_append _ alternates, Nat.zero_add, checkPlaces,
    if_neg (fun fits => unfit (fits_iff.mpr fits))]

end Calculator
