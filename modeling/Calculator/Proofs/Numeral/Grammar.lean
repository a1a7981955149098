/-
# Calculator.Proofs.Numeral.Grammar -- which texts are numerals, and what they are worth

A numeral is an optional sign and a body: digits, at least one of them, and at most one point
among, before or after them (`Readable`).  The body denotes a decimal (`decimal`): all its
digits, with as many places as there are digits behind the point.  Its value is the double that
this number rounds to, with the sign of the text; a number that rounds to no magnitude, because
it is too large, has none (`Reads`).

* `unsigned?_eq_some_iff`: the bodies that are read, and the decimals they are read as;
* `toBinary64_eq_finite_iff`: a decimal is read with one correct rounding;
* `value_reads`: which texts have a value and which value it is.
-/
import Calculator.Proofs.Binary64.Rounding
import Calculator.Proofs.Expression.Reduction

namespace Calculator

set_option autoImplicit false

namespace Decimal

/-- The number of a decimal as a quotient of units. -/
theorem toRat_eq_units (d : Decimal) :
    d.toRat = (d.numerator * Magnitude.unitsPerOne : Nat) / d.denominator /
      Magnitude.unitsPerOne := by
  have unit := Magnitude.cast_unitsPerOne_pos.ne'
  rw [d.toRat_eq]
  push_cast
  field_simp

theorem readsAs_iff_roundsTo {d : Decimal} {m : Magnitude} :
    d.readsAs m ↔ Magnitude.RoundsTo d.toRat m := by
  rw [readsAs_iff_nearest, Magnitude.nearest_eq_some_iff d.denominator_pos, toRat_eq_units]

/-- **A decimal is read as a finite double by rounding its number correctly.** -/
theorem toBinary64_eq_finite_iff {d : Decimal} {negative : Bool} {m : Magnitude} :
    d.toBinary64 negative = .finite negative m ↔ Magnitude.RoundsTo d.toRat m := by
  rw [← readsAs_iff_roundsTo, readsAs_iff_nearest, toBinary64]
  constructor
  · intro read
    cases found : Magnitude.nearest (d.numerator * Magnitude.unitsPerOne) d.denominator with
    | some n =>
      rw [Binary64.nearest_of_some found] at read
      simpa using read
    | none =>
      rw [Binary64.nearest_of_none found] at read
      cases read
  · intro found
    exact Binary64.nearest_of_some found negative

end Decimal

namespace Numeral

/-! ## Bodies -/

/-- Digits and at most one point, and at least one digit. -/
structure Readable (body : List Char) : Prop extends Body body where
  digit : ∃ c ∈ body, c.isDigit

/-- The decimal that a body denotes: all its digits, and a place for each behind the point. -/
def decimal (body : List Char) : Decimal :=
  ⟨Decimal.ofDigits (body.filter Char.isDigit), -((body.dropWhile (· != '.')).tail.length : Int)⟩

/-- A body is digits, or has a point between digits. -/
theorem Body.digits_or_point {body : List Char} (valid : Body body) :
    (∀ c ∈ body, c.isDigit) ∨ ∃ whole fraction, body = whole ++ '.' :: fraction ∧
      (∀ c ∈ whole, c.isDigit) ∧ ∀ c ∈ fraction, c.isDigit := by
  by_cases point : '.' ∈ body
  · obtain ⟨whole, fraction, rfl⟩ := List.append_of_mem point
    have count := valid.onePoint
    rw [List.count_append, List.count_cons_self] at count
    have digits (part : List Char) (all : ∀ c ∈ part, c ∈ whole ++ '.' :: fraction)
        (none : part.count '.' = 0) : ∀ c ∈ part, c.isDigit := by
      intro c member
      refine (valid.chars c (all c member)).resolve_right ?_
      rintro rfl
      exact List.count_eq_zero.mp none member
    exact .inr ⟨whole, fraction, rfl, digits whole (by simp +contextual) (by omega),
      digits fraction (by simp +contextual) (by omega)⟩
  · left
    intro c member
    refine (valid.chars c member).resolve_right ?_
    rintro rfl
    exact point member

theorem ne_point_of_isDigit {c : Char} (digit : c.isDigit) : (c != '.') = true := by
  rw [bne_iff_ne]
  rintro rfl
  cases digit

section Decimal

variable {whole fraction : List Char} (left : ∀ c ∈ whole, c.isDigit)
  (right : ∀ c ∈ fraction, c.isDigit)
include left

theorem decimal_of_digits : decimal whole = ⟨Decimal.ofDigits whole, 0⟩ := by
  have no_point : ∀ c ∈ whole, (c != '.') = true :=
    fun c member => ne_point_of_isDigit (left c member)
  rw [decimal, List.filter_eq_self.mpr left, List.dropWhile_eq_nil_iff.mpr no_point]
  rfl

include right

theorem decimal_of_point : decimal (whole ++ '.' :: fraction) =
    ⟨Decimal.ofDigits (whole ++ fraction), -(fraction.length : Int)⟩ := by
  have no_point : ∀ c ∈ whole, (c != '.') = true :=
    fun c member => ne_point_of_isDigit (left c member)
  rw [decimal, List.dropWhile_append_of_pos no_point, List.filter_append, List.filter_cons_of_neg,
    List.filter_eq_self.mpr left, List.filter_eq_self.mpr right]
  · rfl
  · decide

end Decimal

theorem Readable.unsigned?_eq {body : List Char} (readable : Readable body) :
    unsigned? body = some (decimal body) := by
  rcases readable.toBody.digits_or_point with digits | ⟨whole, fraction, rfl, left, right⟩
  · rw [unsigned?_of_digits readable.nonempty digits, decimal_of_digits digits]
  · have some_digit : whole ≠ [] ∨ fraction ≠ [] := by
      obtain ⟨c, member, digit⟩ := readable.digit
      by_contra none
      obtain ⟨rfl, rfl⟩ := not_or.mp none |>.imp not_not.mp not_not.mp
      obtain rfl := List.mem_singleton.mp member
      cases digit
    rw [unsigned?_of_point some_digit left right, decimal_of_point left right]

theorem readable_of_digits {body : List Char} (nonempty : body ≠ []) (digits : ∀ c ∈ body, c.isDigit) :
    Readable body where
  toBody := body_of_digits nonempty digits
  digit := by
    obtain ⟨c, rest, rfl⟩ := List.exists_cons_of_ne_nil nonempty
    exact ⟨c, List.mem_cons_self, digits c List.mem_cons_self⟩

theorem readable_of_point {whole fraction : List Char} (some_digit : whole ≠ [] ∨ fraction ≠ [])
    (left : ∀ c ∈ whole, c.isDigit) (right : ∀ c ∈ fraction, c.isDigit) :
    Readable (whole ++ '.' :: fraction) where
  toBody := body_of_point left right
  digit := by
    rcases some_digit with nonempty | nonempty
    · obtain ⟨c, rest, rfl⟩ := List.exists_cons_of_ne_nil nonempty
      exact ⟨c, by simp, left c List.mem_cons_self⟩
    · obtain ⟨c, rest, rfl⟩ := List.exists_cons_of_ne_nil nonempty
      exact ⟨c, by simp, right c List.mem_cons_self⟩

theorem readable_of_unsigned? {body : List Char} {d : Decimal} (read : unsigned? body = some d) :
    Readable body := by
  have split : body.takeWhile Char.isDigit ++ body.dropWhile Char.isDigit = body :=
    List.takeWhile_append_dropWhile
  have left : ∀ c ∈ body.takeWhile Char.isDigit, c.isDigit :=
    fun c member => List.mem_takeWhile_imp member
  unfold unsigned? at read
  dsimp only at read
  generalize body.takeWhile Char.isDigit = whole at *
  generalize body.dropWhile Char.isDigit = rest at *
  subst split
  split at read
  · split at read
    · cases read
    · rename_i nonempty
      rw [List.append_nil]
      exact readable_of_digits (by simpa using nonempty) left
  · rename_i fraction
    split at read
    · rename_i digits
      rw [Bool.and_eq_true, List.all_eq_true] at digits
      refine readable_of_point ?_ left digits.1
      by_contra none
      obtain ⟨rfl, rfl⟩ := not_or.mp none |>.imp not_not.mp not_not.mp
      exact absurd digits.2 (by decide)
    · cases read
  · cases read

/-- **The bodies that are read** are the readable ones, as the decimals that they denote. -/
theorem unsigned?_eq_some_iff {body : List Char} {d : Decimal} :
    unsigned? body = some d ↔ Readable body ∧ decimal body = d := by
  constructor
  · intro read
    have readable := readable_of_unsigned? read
    exact ⟨readable, Option.some.inj (readable.unsigned?_eq.symm.trans read)⟩
  · rintro ⟨readable, rfl⟩
    exact readable.unsigned?_eq

/-- The number that a body denotes. -/
def number (body : List Char) : ℚ :=
  Decimal.ofDigits (body.filter Char.isDigit) / 10 ^ (body.dropWhile (· != '.')).tail.length

theorem toRat_decimal (body : List Char) : (decimal body).toRat = number body := by
  rw [Decimal.toRat, decimal, number, zpow_neg, zpow_natCast, div_eq_mul_inv]

/-! ## Signs -/

/-- What may stand in front of a body, and whether it makes the value negative. -/
inductive Sign : List Char → Bool → Prop where
  | none : Sign [] false
  | plus : Sign ['+'] false
  | minus : Sign ['-'] true

/-- A text is split into its sign and a body, if it has a readable one. -/
theorem splitSign_eq_iff {text body : List Char} {negative : Bool} (readable : Readable body) :
    splitSign text = (negative, body) ↔ ∃ sign, Sign sign negative ∧ text = sign ++ body := by
  constructor
  · intro split
    unfold splitSign at split
    split at split <;> cases split
    · exact ⟨['-'], .minus, rfl⟩
    · exact ⟨['+'], .plus, rfl⟩
    · exact ⟨[], .none, rfl⟩
  · rintro ⟨sign, which, rfl⟩
    cases which with
    | none => simpa [signed] using readable.toBody.splitSign_signed false
    | plus => rfl
    | minus => rfl

/-! ## Values -/

/-- **What a text is worth as a numeral**: it is a sign and a readable body, and the value is the
double that the body's number rounds to, with that sign. -/
def Reads (text : String) (x : Binary64) : Prop :=
  ∃ sign negative body m, text.toList = sign ++ body ∧ Sign sign negative ∧ Readable body ∧
    Magnitude.RoundsTo (number body) m ∧ x = .finite negative m

theorem value?_eq_of_split {text : String} {negative : Bool} {body : List Char}
    (split : splitSign text.toList = (negative, body)) (readable : Readable body) :
    value? text =
      if ((decimal body).toBinary64 negative).isFinite then
        some ((decimal body).toBinary64 negative)
      else none := by
  simp only [value?, split, readable.unsigned?_eq]

theorem reads_of_value? {text : String} {x : Binary64} (read : value? text = some x) :
    Reads text x := by
  obtain ⟨⟨negative, body⟩, split⟩ : ∃ parts, splitSign text.toList = parts := ⟨_, rfl⟩
  cases unsigned : unsigned? body with
  | none =>
    simp only [value?, split, unsigned] at read
    cases read
  | some d =>
    obtain ⟨readable, -⟩ := unsigned?_eq_some_iff.mp unsigned
    rw [value?_eq_of_split split readable] at read
    split at read
    · rename_i finite
      obtain ⟨sign, which, whole⟩ := (splitSign_eq_iff readable).mp split
      obtain ⟨m, found⟩ := Binary64.exists_nearest finite
      have double : (decimal body).toBinary64 negative = .finite negative m :=
        Binary64.nearest_of_some found negative
      have rounds := Decimal.toBinary64_eq_finite_iff.mp double
      rw [toRat_decimal] at rounds
      refine ⟨sign, negative, body, m, whole, which, readable, rounds, ?_⟩
      rw [← double]
      exact (Option.some.inj read).symm
    · cases read

theorem value?_of_reads {text : String} {x : Binary64} (reads : Reads text x) :
    value? text = some x := by
  obtain ⟨sign, negative, body, m, whole, which, readable, rounds, rfl⟩ := reads
  have split := (splitSign_eq_iff readable).mpr ⟨sign, which, whole⟩
  rw [← toRat_decimal] at rounds
  have double : (decimal body).toBinary64 negative = .finite negative m :=
    Decimal.toBinary64_eq_finite_iff.mpr rounds
  rw [value?_eq_of_split split readable, double, Binary64.isFinite, if_pos rfl]

/-! ## The sign key -/

/-- A text with a value and no plus in front is a signed body. -/
theorem exists_signed_of_reads {text : String} {x : Binary64} (reads : Reads text x)
    (unplussed : text.toList.head? ≠ some '+') :
    ∃ negative body, Body body ∧ text = signed negative body := by
  obtain ⟨sign, negative, body, -, whole, which, readable, -, -⟩ := reads
  refine ⟨negative, body, readable.toBody, ?_⟩
  rw [← String.toList_inj, toList_signed, whole]
  cases which with
  | none => rfl
  | plus => exact absurd (by rw [whole]; rfl) unplussed
  | minus => rfl

theorem Shaped.toggleSign_toggleSign {text : String} (shaped : Shaped text) :
    Numeral.toggleSign (Numeral.toggleSign text) = text := by
  obtain ⟨negative, body, valid, rfl⟩ := shaped
  rw [valid.toggleSign_signed, valid.toggleSign_signed, Bool.not_not]

/-- **A text is a numeral exactly when it is an optional sign and digits with at most one point,
and its number rounds to a finite double**, which is then its value, with the sign of the text.
Any other text is at fault as a whole.  The sign key negates what has a value and no plus in
front, and pressed again it gives the text back. -/
theorem value_reads (text : String) :
    (∀ x, Numeral.value text = .ok x ↔ Reads text x) ∧
      ((¬ ∃ x, Reads text x) → Numeral.value text = .error (.badNumeral text)) ∧
      ∀ x, Numeral.value text = .ok x → text.toList.head? ≠ some '+' →
        Numeral.value (toggleSign text) = .ok x.neg ∧ toggleSign (toggleSign text) = text := by
  refine ⟨fun x => ?_, fun unread => ?_, fun x read unplussed => ?_⟩
  · rw [Numeral.value_eq_ok]
    exact ⟨reads_of_value?, value?_of_reads⟩
  · rw [Numeral.value]
    cases read : value? text with
    | some x => exact absurd ⟨x, reads_of_value? read⟩ unread
    | none => rfl
  · rw [Numeral.value_eq_ok] at read ⊢
    have shaped : Shaped text := exists_signed_of_reads (reads_of_value? read) unplussed
    refine ⟨?_, shaped.toggleSign_toggleSign⟩
    rw [shaped.value?_toggleSign, read, Option.map_some]

/-- Half way between two doubles the even one is read, and the sign key negates it. -/
theorem value_reads_halfway :
    Reads "-9007199254740993" (.ofBits 0xc340000000000000) ∧
      Numeral.value (toggleSign "-9007199254740993") = .ok (.ofBits 0x4340000000000000) := by
  have read : Numeral.value "-9007199254740993" = .ok (.ofBits 0xc340000000000000) := by
    decide +kernel
  obtain ⟨reads, -, toggles⟩ := value_reads "-9007199254740993"
  exact ⟨(reads _).mp read, (toggles _ read (by decide)).1⟩

end Numeral

end Calculator
