/-
# Calculator.Proofs.Expression.Divisors -- what the tolerance forbids

The tolerance is looked at in one place, in front of a division, and all that it can do there
is to forbid it.  So a greater tolerance answers what a smaller one does, or that a division
is forbidden (`Restricts`), through both passes and whatever the tokens are.

What is divided by is a numeral of the expression.  A pass combines from the left, so that a
partial result of the upper tier is a left operand there, and a right one of plus and minus
only.  A division by zero that the tolerance lets through is infinite or NaN, and refused as
not finite.

* `restricts_evaluate`: a greater tolerance forbids divisions and changes nothing else;
* `evaluate_divisors`: that, and which divisions are forbidden.
-/
import Calculator.Proofs.Expression.Chain
import Calculator.Proofs.Expression.Complaint

namespace Calculator

set_option autoImplicit false

/-! ## Tolerances in order -/

namespace Binary64

/-- Whether the first double is at most the second; never so with a NaN, and the two zeros
are equal. -/
def le : Binary64 → Binary64 → Bool
  | .nan, _ => false
  | _, .nan => false
  | x, y => !y.lt x

theorem lt_of_lt_of_le {x y z : Binary64} (first : x.lt y) (second : y.le z) : x.lt z := by
  cases x <;> cases y <;> cases z <;> simp_all [lt, le]
  omega

/-- A quotient by zero is infinite or NaN. -/
theorem isFinite_div_zero (x : Binary64) {y : Binary64} (zero : y.isZero) :
    ¬ (x.div y).isFinite := by
  cases y with
  | nan => cases zero
  | infinity negative => cases zero
  | finite negative n =>
      have none : n.isZero = true := zero
      cases x with
      | nan => simp [div, isFinite]
      | infinity sign => simp [div, isFinite]
      | finite sign m =>
          rw [div, if_pos none]
          split <;> simp [isFinite]

end Binary64

theorem Tolerance.forbids_of_le {t₁ t₂ : Tolerance} (le : t₁.bound.le t₂.bound)
    {divisor : Binary64} (forbidden : t₁.forbids divisor) : t₂.forbids divisor :=
  Binary64.lt_of_lt_of_le forbidden le

/-! ## Two tolerances -/

/-- The strict computation answers as the other one does, or that a division is forbidden. -/
def Restricts {α : Type} (strict lenient : Except Fault α) : Prop :=
  strict = .error .divisionByZero ∨ strict = lenient

namespace Restricts

variable {α β : Type}

theorem refl (x : Except Fault α) : Restricts x x := .inr rfl

theorem bind {strict lenient : Except Fault α} {next other : α → Except Fault β}
    (first : Restricts strict lenient) (rest : ∀ x, Restricts (next x) (other x)) :
    Restricts (strict >>= next) (lenient >>= other) := by
  rcases first with forbidden | same
  · left
    rw [forbidden]
    rfl
  · subst same
    cases strict with
    | error fault => exact refl _
    | ok x => exact rest x

variable {strict lenient : Except Fault α}

theorem ok (restricts : Restricts strict lenient) {x : α} (done : strict = .ok x) :
    lenient = .ok x := by
  rcases restricts with forbidden | same
  · rw [forbidden] at done
    cases done
  · rwa [← same]

theorem other_fault (restricts : Restricts strict lenient) {fault : Fault}
    (other : fault ≠ .divisionByZero) (failed : strict = .error fault) :
    lenient = .error fault := by
  rcases restricts with forbidden | same
  · rw [forbidden] at failed
    cases failed
    exact absurd rfl other
  · rwa [← same]

theorem fails (restricts : Restricts strict lenient) {fault : Fault}
    (failed : lenient = .error fault) : ∃ met, strict = .error met := by
  rcases restricts with forbidden | same
  · exact ⟨_, forbidden⟩
  · exact ⟨fault, same.trans failed⟩

end Restricts

section Passes

variable {t₁ t₂ : Tolerance} (le : t₁.bound.le t₂.bound)
include le

theorem restricts_applyOperator (left right : Token) (op : Operator) :
    Restricts (applyOperator t₂ left op right) (applyOperator t₁ left op right) := by
  refine (Restricts.refl left.value).bind fun x => (Restricts.refl right.value).bind fun y => ?_
  by_cases strict : op = .divide ∧ t₂.forbids y
  · left
    rw [if_pos strict]
  · have lenient : ¬ (op = .divide ∧ t₁.forbids y) := fun forbidden =>
      strict ⟨forbidden.1, Tolerance.forbids_of_le le forbidden.2⟩
    rw [if_neg strict, if_neg lenient]
    exact .refl _

theorem restricts_reduceProducts (work : List Token) (cursor : Nat) :
    Restricts (reduceProducts t₂ work cursor) (reduceProducts t₁ work cursor) := by
  fun_induction reduceProducts t₂ work cursor with
  | case1 work cursor inside op found tier ih =>
      rw [reduceProducts.eq_def t₁ work cursor, dif_pos inside]
      simp only [found, if_pos tier]
      exact (restricts_applyOperator le _ _ op).bind ih
  | case2 work cursor inside op found tier ih =>
      rw [reduceProducts.eq_def t₁ work cursor, dif_pos inside]
      simpa only [found, if_neg tier] using ih
  | case3 work cursor inside none ih =>
      rw [reduceProducts.eq_def t₁ work cursor, dif_pos inside]
      simpa only [none] using ih
  | case4 work cursor outside =>
      rw [reduceProducts, dif_neg outside]
      exact .refl _

theorem restricts_reduceSums (work : List Token) :
    Restricts (reduceSums t₂ work) (reduceSums t₁ work) := by
  fun_induction reduceSums t₂ work with
  | case1 left token right rest op found ih =>
      rw [reduceSums]
      simp only [found]
      exact (restricts_applyOperator le left right op).bind ih
  | case2 left token right rest none =>
      rw [reduceSums]
      simp only [none]
      exact .refl _
  | case3 work short =>
      rw [reduceSums]
      · exact .refl _
      · exact short

/-- **A greater tolerance only forbids divisions.** -/
theorem restricts_evaluate (tokens : List Token) :
    Restricts (evaluate t₂ tokens) (evaluate t₁ tokens) := by
  refine (Restricts.refl (checkShape tokens)).bind fun _ => ?_
  refine (restricts_reduceProducts le tokens 1).bind fun products => ?_
  exact (restricts_reduceSums le products).bind fun _ => .refl _

end Passes

/-! ## Steps of a fold and of a traversal -/

section Steps

variable {α β : Type}

/-- A fold that succeeds has succeeded at every step. -/
theorem exists_of_foldlM_ok {step : β → α → Except Fault β} {list : List α} {start done : β}
    (folded : list.foldlM step start = .ok done) :
    ∀ x ∈ list, ∃ before after, step before x = .ok after := by
  induction list generalizing start with
  | nil => simp
  | cons x list ih =>
      rw [List.foldlM_cons] at folded
      obtain ⟨after, first, rest⟩ := bind_eq_ok_iff.mp folded
      intro y member
      rcases List.mem_cons.mp member with rfl | later
      · exact ⟨start, after, first⟩
      · exact ih rest y later

/-- A fold fails at one of its steps. -/
theorem exists_of_foldlM_error {step : β → α → Except Fault β} {list : List α} {start : β}
    {fault : Fault} (failed : list.foldlM step start = .error fault) :
    ∃ x ∈ list, ∃ before, step before x = .error fault := by
  induction list generalizing start with
  | nil => cases failed
  | cons x list ih =>
      rw [List.foldlM_cons] at failed
      rcases bind_eq_error_iff.mp failed with first | ⟨after, -, rest⟩
      · exact ⟨x, List.mem_cons_self, start, first⟩
      · obtain ⟨y, later, step⟩ := ih rest
        exact ⟨y, List.mem_cons_of_mem x later, step⟩

/-- A traversal that succeeds has an image for every element, and no other ones. -/
theorem exists_of_mapM_ok {f : α → Except Fault β} {list : List α} {images : List β}
    (mapped : list.mapM f = .ok images) :
    (∀ x ∈ list, ∃ y, f x = .ok y) ∧ ∀ y ∈ images, ∃ x ∈ list, f x = .ok y := by
  induction list generalizing images with
  | nil =>
      cases mapped
      simp
  | cons x list ih =>
      rw [List.mapM_cons] at mapped
      obtain ⟨y, first, rest⟩ := bind_eq_ok_iff.mp mapped
      obtain ⟨ys, others, same⟩ := bind_eq_ok_iff.mp rest
      cases same
      obtain ⟨forth, back⟩ := ih others
      refine ⟨List.forall_mem_cons.mpr ⟨⟨y, first⟩, forth⟩, ?_⟩
      refine List.forall_mem_cons.mpr ⟨⟨x, List.mem_cons_self, first⟩, fun z later => ?_⟩
      obtain ⟨w, member, image⟩ := back z later
      exact ⟨w, List.mem_cons_of_mem x member, image⟩

/-- A traversal fails at one of its elements. -/
theorem exists_of_mapM_error {f : α → Except Fault β} {list : List α} {fault : Fault}
    (failed : list.mapM f = .error fault) : ∃ x ∈ list, f x = .error fault := by
  induction list with
  | nil => cases failed
  | cons x list ih =>
      rw [List.mapM_cons] at failed
      rcases bind_eq_error_iff.mp failed with first | ⟨y, -, rest⟩
      · exact ⟨x, List.mem_cons_self, first⟩
      · rcases bind_eq_error_iff.mp rest with others | ⟨ys, -, none⟩
        · obtain ⟨z, later, step⟩ := ih others
          exact ⟨z, List.mem_cons_of_mem x later, step⟩
        · cases none

end Steps

/-! ## Divisors -/

/-- Reading a numeral forbids nothing. -/
theorem Numeral.value_ne_divisionByZero (text : String) :
    Numeral.value text ≠ .error .divisionByZero := by
  rw [Numeral.value]
  split <;> simp

theorem Operand.value_ne_divisionByZero (operand : Operand String) :
    operand.value Numeral.value ≠ .error .divisionByZero := by
  rw [← operand.value_text]
  exact Numeral.value_ne_divisionByZero operand.text

section Tree

variable {tolerance : Tolerance}

/-- A division that succeeds has a divisor that is not forbidden, and not zero. -/
theorem divisor_of_combine {left result : Operand String} {text : String}
    (combined : combine Numeral.value tolerance left .divide (.unread text) = .ok result)
    {z : Binary64} (read : Numeral.value text = .ok z) :
    ¬ z.isZero ∧ ¬ z.abs.lt tolerance.bound := by
  obtain ⟨x, -, rest⟩ := bind_eq_ok_iff.mp combined
  obtain ⟨y, found, rest⟩ := bind_eq_ok_iff.mp rest
  obtain rfl : z = y := Except.ok.inj (read.symm.trans found)
  split at rest
  · cases rest
  · rename_i large
    refine ⟨fun zero => ?_, fun small => large ⟨rfl, small⟩⟩
    have refused : PartialResult.of (Operator.apply .divide x z) = .error .notFinite :=
      dif_neg (x.isFinite_div_zero zero)
    rw [refused] at rest
    cases rest

/-- Only a division is forbidden, and it is one by a small divisor. -/
theorem forbidden_of_combine {left right : Operand String} {op : Operator}
    (failed : combine Numeral.value tolerance left op right = .error .divisionByZero) :
    op = .divide ∧ ∃ z, right.value Numeral.value = .ok z ∧ z.abs.lt tolerance.bound := by
  rcases bind_eq_error_iff.mp failed with unread | ⟨x, -, rest⟩
  · exact absurd unread left.value_ne_divisionByZero
  rcases bind_eq_error_iff.mp rest with unread | ⟨y, read, rest⟩
  · exact absurd unread right.value_ne_divisionByZero
  split at rest
  · rename_i forbidden
    exact ⟨forbidden.1, y, read, forbidden.2⟩
  · unfold PartialResult.of at rest
    split at rest <;> cases rest

theorem divisor_of_reduce {term : Term String} {result : Operand String}
    (reduced : term.reduce Numeral.value tolerance = .ok result) {factor : Factor String}
    (member : factor ∈ term.factors) (divides : factor.op = .divide) {z : Binary64}
    (read : Numeral.value factor.operand = .ok z) : ¬ z.isZero ∧ ¬ z.abs.lt tolerance.bound := by
  obtain ⟨before, after, combined⟩ := exists_of_foldlM_ok reduced factor member
  rw [divides] at combined
  exact divisor_of_combine combined read

theorem forbidden_of_reduce {term : Term String}
    (failed : term.reduce Numeral.value tolerance = .error .divisionByZero) :
    ∃ factor ∈ term.factors, factor.op = .divide ∧
      ∃ z, Numeral.value factor.operand = .ok z ∧ z.abs.lt tolerance.bound := by
  obtain ⟨factor, member, before, combined⟩ := exists_of_foldlM_error failed
  obtain ⟨divides, z, read, small⟩ := forbidden_of_combine combined
  exact ⟨factor, member, divides, z, read, small⟩

/-- A summand is reduced to what its term is, behind its operator. -/
theorem reduce_of_summand {summand : Summand String} {pair : Operator × Operand String}
    (reduced : summand.reduce Numeral.value tolerance = .ok pair) :
    pair.1 = summand.op ∧ summand.term.reduce Numeral.value tolerance = .ok pair.2 := by
  unfold Summand.reduce at reduced
  cases term : summand.term.reduce Numeral.value tolerance with
  | error fault =>
      rw [term] at reduced
      cases reduced
  | ok operand =>
      rw [term] at reduced
      cases reduced
      exact ⟨rfl, rfl⟩

theorem failed_of_summand {summand : Summand String} {fault : Fault}
    (failed : summand.reduce Numeral.value tolerance = .error fault) :
    summand.term.reduce Numeral.value tolerance = .error fault := by
  unfold Summand.reduce at failed
  cases term : summand.term.reduce Numeral.value tolerance with
  | error met =>
      rw [term] at failed
      cases failed
      rfl
  | ok operand =>
      rw [term] at failed
      cases failed

/-- A tree with a value has no divisor that is forbidden or zero. -/
theorem SumTree.divisor_of_value {tree : SumTree String} {x : Binary64}
    (valued : tree.value Numeral.value tolerance = .ok x) {factor : Factor String}
    (member : factor ∈ tree.factors) (divides : factor.op = .divide) {z : Binary64}
    (read : Numeral.value factor.operand = .ok z) : ¬ z.isZero ∧ ¬ z.abs.lt tolerance.bound := by
  obtain ⟨first, head, rest⟩ := bind_eq_ok_iff.mp valued
  obtain ⟨reduced, terms, -⟩ := bind_eq_ok_iff.mp rest
  obtain ⟨term, among, within⟩ := List.mem_flatMap.mp member
  rcases List.mem_cons.mp among with rfl | later
  · exact divisor_of_reduce head within divides read
  · obtain ⟨summand, chosen, rfl⟩ := List.mem_map.mp later
    obtain ⟨pair, done⟩ := (exists_of_mapM_ok terms).1 summand chosen
    exact divisor_of_reduce (reduce_of_summand done).2 within divides read

/-- A division that is forbidden is one by a divisor of the tree: plus and minus do not
divide. -/
theorem SumTree.forbidden_of_value {tree : SumTree String}
    (failed : tree.value Numeral.value tolerance = .error .divisionByZero) :
    ∃ factor ∈ tree.factors, factor.op = .divide ∧
      ∃ z, Numeral.value factor.operand = .ok z ∧ z.abs.lt tolerance.bound := by
  -- the fault is met in the first term, in one behind it, in their sum, or at its reading
  rcases bind_eq_error_iff.mp failed with head | ⟨first, -, rest⟩
  · obtain ⟨factor, within, forbidden⟩ := forbidden_of_reduce head
    exact ⟨factor, List.mem_flatMap.mpr ⟨_, List.mem_cons_self, within⟩, forbidden⟩
  rcases bind_eq_error_iff.mp rest with term | ⟨reduced, terms, rest⟩
  · obtain ⟨summand, among, failed⟩ := exists_of_mapM_error term
    obtain ⟨factor, within, forbidden⟩ := forbidden_of_reduce (failed_of_summand failed)
    exact ⟨factor, List.mem_flatMap.mpr ⟨_, mem_terms among, within⟩, forbidden⟩
  rcases bind_eq_error_iff.mp rest with sum | ⟨total, -, unread⟩
  · obtain ⟨pair, among, before, combined⟩ := exists_of_foldlM_error sum
    obtain ⟨summand, -, done⟩ := (exists_of_mapM_ok terms).2 pair among
    have divides := (forbidden_of_combine combined).1
    rw [(reduce_of_summand done).1] at divides
    exact absurd divides summand.op_ne_divide
  · exact absurd unread total.value_ne_divisionByZero

end Tree

/-! ## Divisors among the tokens -/

/-- Any answer but one about the shape is that of a chain. -/
theorem exists_chain_of_evaluate {tolerance : Tolerance} {tokens : List Token}
    {answer : Except Fault Binary64} (evaluated : evaluate tolerance tokens = answer)
    (complete : answer ≠ .error .incomplete)
    (formed : ∀ message, answer ≠ .error (.malformed message)) :
    ∃ first links, tokens = .numeral first :: linkTokens links ∧
      (SumTree.ofChain first links).value Numeral.value tolerance = answer := by
  have chain : ∃ first links, tokens = .numeral first :: linkTokens links := by
    cases (evaluates_iff tolerance tokens answer).mpr evaluated with
    | incomplete unfinished => exact absurd rfl complete
    | malformed finished alternates unfit => exact absurd rfl (formed _)
    | value tree => exact exists_linkTokens_eq tree.expression.1 tree.expression.2
  obtain ⟨first, links, rfl⟩ := chain
  refine ⟨first, links, rfl, ?_⟩
  rw [← evaluate_tokens, SumTree.tokens_ofChain, evaluated]

section Evaluation

variable {tolerance : Tolerance} {tokens : List Token}

/-- What has a value divides by nothing that is zero or forbidden. -/
theorem divisor_of_evaluate {x : Binary64} (evaluated : evaluate tolerance tokens = .ok x)
    {text : String} (divides : [.operator .divide, .numeral text] <:+: tokens) {z : Binary64}
    (read : Numeral.value text = .ok z) : ¬ z.isZero ∧ ¬ z.abs.lt tolerance.bound := by
  obtain ⟨first, links, rfl, valued⟩ :=
    exists_chain_of_evaluate evaluated (by simp) (by simp)
  have link := infix_linkTokens_iff.mp divides
  obtain ⟨factor, member, division, rfl⟩ := (SumTree.mem_factors_ofChain rfl first).mp link
  exact SumTree.divisor_of_value valued member division read

/-- A division is forbidden only where one of the divisors is too small. -/
theorem forbidden_of_evaluate (failed : evaluate tolerance tokens = .error .divisionByZero) :
    ∃ text z, [.operator .divide, .numeral text] <:+: tokens ∧ Numeral.value text = .ok z ∧
      z.abs.lt tolerance.bound := by
  obtain ⟨first, links, rfl, valued⟩ := exists_chain_of_evaluate failed (by simp) (by simp)
  obtain ⟨factor, member, division, z, read, small⟩ := SumTree.forbidden_of_value valued
  have link := (SumTree.mem_factors_ofChain rfl first).mpr ⟨factor, member, division, rfl⟩
  exact ⟨factor.operand, z, infix_linkTokens_iff.mpr link, read, small⟩

end Evaluation

/-- **The tolerance forbids divisions, and nothing else.**  For tokens in any order: with a
smaller tolerance there is every value, bit for bit, and every fault that there is with a
greater one, but for divisions by zero.  And whatever the tolerance is, nothing with a divisor
of zero, or one closer to zero than the tolerance, has a value, and there is no division by
zero without a divisor closer to zero than the tolerance. -/
theorem evaluate_divisors (tokens : List Token) :
    (∀ t₁ t₂ : Tolerance, t₁.bound.le t₂.bound →
      (∀ x, evaluate t₂ tokens = .ok x → evaluate t₁ tokens = .ok x) ∧
      (∀ fault, evaluate t₁ tokens = .error fault → ∃ met, evaluate t₂ tokens = .error met) ∧
      ∀ fault, fault ≠ .divisionByZero → evaluate t₂ tokens = .error fault →
        evaluate t₁ tokens = .error fault) ∧
    (∀ (t : Tolerance) (text : String) (z : Binary64),
      [.operator .divide, .numeral text] <:+: tokens → Numeral.value text = .ok z →
      z.isZero ∨ z.abs.lt t.bound → ∀ x, evaluate t tokens ≠ .ok x) ∧
    ∀ t : Tolerance, evaluate t tokens = .error .divisionByZero →
      ∃ text z, [.operator .divide, .numeral text] <:+: tokens ∧ Numeral.value text = .ok z ∧
        z.abs.lt t.bound := by
  refine ⟨fun t₁ t₂ le => ?_, fun t text z divides read close x evaluated => ?_, fun t failed => ?_⟩
  · have restricts := restricts_evaluate le tokens
    exact ⟨fun x => restricts.ok, fun fault => restricts.fails, fun fault => restricts.other_fault⟩
  · obtain ⟨nonzero, large⟩ := divisor_of_evaluate evaluated divides read
    rcases close with zero | small
    · exact nonzero zero
    · exact large small
  · exact forbidden_of_evaluate failed

/-- Six divided by two is three for a tolerance of two as well as for none, and forbidden for
an infinite one; one divided by zero is not finite where nothing is forbidden. -/
theorem evaluate_divisors_quotients :
    let six := [Token.numeral "6", .operator .divide, .numeral "2"]
    let one := [Token.numeral "1", .operator .divide, .numeral "0"]
    let two := Tolerance.of (.ofBits 0x4000000000000000)
    let none := Tolerance.of .zero
    let all := Tolerance.of (.infinity false)
    (none.bound.le two.bound ∧ evaluate two six = .ok (.ofBits 0x4008000000000000) ∧
      evaluate none six = .ok (.ofBits 0x4008000000000000)) ∧
    (evaluate all six = .error .divisionByZero ∧
      ∃ text z, [.operator .divide, .numeral text] <:+: six ∧ Numeral.value text = .ok z ∧
        z.abs.lt all.bound) ∧
    evaluate none one = .error .notFinite ∧ ∀ x, evaluate none one ≠ .ok x := by
  intro six one two none all
  have quotient : evaluate two six = .ok (.ofBits 0x4008000000000000) := by decide +kernel
  have forbidden : evaluate all six = .error .divisionByZero := by decide +kernel
  have order : none.bound.le two.bound := by decide +kernel
  obtain ⟨smaller, -, divisor⟩ := evaluate_divisors six
  obtain ⟨-, pole, -⟩ := evaluate_divisors one
  refine ⟨⟨order, quotient, (smaller none two order).1 _ quotient⟩,
    ⟨forbidden, divisor all forbidden⟩, by decide +kernel, ?_⟩
  exact pole none "0" .zero ⟨[.numeral "1"], [], rfl⟩
    (Numeral.value_eq_ok.mpr Numeral.value?_zero) (.inl rfl)

end Calculator
