/-
# Calculator.Proofs.Expression.Integers -- sums and products of integers

A tree of integers has a total, and partial results on the way to it (`SumTree.total`,
`SumTree.partials`): those of each term from the left, and those of the sum of the terms from the
left.  When no operand and no partial result exceeds `2 ^ 53`, and there is no division, the
evaluation has the same partial results, as doubles that represent them: every step is exact, and
none is refused.

* `exists_combine`: one operator;
* `SumTree.exists_value`: a tree;
* `exists_evaluate_of_integers`: the tokens of a chain.
-/
import Mathlib.Algebra.Order.Ring.Int
import Calculator.Proofs.Expression.Chain
import Calculator.Proofs.Numeral.Integers

namespace Calculator

set_option autoImplicit false

/-! ## The computation over the integers -/

/-- The operation on integers.  Quotients are the whole ones, and nothing is said about them. -/
def Operator.onIntegers : Operator → Int → Int → Int
  | .add => (· + ·)
  | .subtract => (· - ·)
  | .multiply => (· * ·)
  | .divide => (· / ·)

section Reference

variable {α : Type} (integer : α → Int)

/-- What a term comes to behind its first operand and behind each factor. -/
def Term.partials (term : Term α) : List Int :=
  term.factors.scanl (fun left factor => factor.op.onIntegers left (integer factor.operand))
    (integer term.first)

def Term.total (term : Term α) : Int :=
  term.factors.foldl (fun left factor => factor.op.onIntegers left (integer factor.operand))
    (integer term.first)

/-- What the sum comes to behind each term. -/
def SumTree.sums (tree : SumTree α) : List Int :=
  tree.rest.scanl (fun left summand => summand.op.onIntegers left (summand.term.total integer))
    (tree.first.total integer)

/-- All partial results: of the terms, and of their sum. -/
def SumTree.partials (tree : SumTree α) : List Int :=
  tree.terms.flatMap (Term.partials integer) ++ tree.sums integer

def SumTree.total (tree : SumTree α) : Int :=
  tree.rest.foldl (fun left summand => summand.op.onIntegers left (summand.term.total integer))
    (tree.first.total integer)

end Reference

def Term.operands {α : Type} (term : Term α) : List α :=
  term.first :: term.factors.map Factor.operand

def SumTree.operands {α : Type} (tree : SumTree α) : List α := tree.terms.flatMap Term.operands

/-- The operands of a chain, in their order. -/
theorem SumTree.operands_ofChain {α : Type} (first : α) (links : List (Operator × α)) :
    (ofChain first links).operands = first :: links.map Prod.snd := by
  induction links generalizing first with
  | nil => rfl
  | cons link links ih =>
      obtain ⟨op, right⟩ := link
      have behind := ih right
      have head := ofChain_first right links
      rw [operands, terms, List.flatMap_cons, Term.operands, head, List.cons_append] at behind
      rw [List.map_cons, ← behind, ofChain]
      split <;> simp [operands, terms, Term.operands, head]

/-! ## Folds in step -/

section Steps

variable {α β γ δ : Type} {step : β → δ → Except Fault β} {f : γ → α → γ} {Holds : β → γ → Prop}
  {Matches : α → δ → Prop} {Bounded : γ → Prop}

/-- A fold that may fail is in step with one that does not, as long as the results of the other
are bounded. -/
theorem exists_foldlM
    (each : ∀ {y c x d}, Holds y c → Matches x d → Bounded (f c x) →
      ∃ z, step y d = .ok z ∧ Holds z (f c x))
    {list : List α} {others : List δ} (matched : List.Forall₂ Matches list others) {start : β}
    {c : γ} (holds : Holds start c) (bounded : ∀ n ∈ list.scanl f c, Bounded n) :
    ∃ z, others.foldlM step start = .ok z ∧ Holds z (list.foldl f c) := by
  induction matched generalizing start c with
  | nil => exact ⟨start, rfl, holds⟩
  | @cons x d list others first _ ih =>
      rw [List.scanl_cons] at bounded
      have rest : ∀ n ∈ list.scanl f (f c x), Bounded n := fun n member =>
        bounded n (List.mem_cons_of_mem c member)
      have next : f c x ∈ list.scanl f (f c x) := by cases list <;> simp
      obtain ⟨y, done, still⟩ := each holds first (rest _ next)
      obtain ⟨z, folded, last⟩ := ih still rest
      refine ⟨z, ?_, last⟩
      rw [List.foldlM_cons, done]
      exact folded

/-- A traversal succeeds when it does so at each element. -/
theorem exists_mapM {g : α → Except Fault δ} {list : List α}
    (each : ∀ x ∈ list, ∃ y, g x = .ok y ∧ Matches x y) :
    ∃ others, list.mapM g = .ok others ∧ List.Forall₂ Matches list others := by
  induction list with
  | nil => exact ⟨[], rfl, .nil⟩
  | cons x list ih =>
      obtain ⟨y, done, first⟩ := each x List.mem_cons_self
      obtain ⟨ys, rest, matched⟩ := ih fun z member => each z (List.mem_cons_of_mem x member)
      refine ⟨y :: ys, ?_, .cons first matched⟩
      rw [List.mapM_cons, done, rest]
      rfl

end Steps

/-! ## The evaluation of integers -/

/-- **An operator on integers is exact.** -/
theorem Operator.represents_apply {op : Operator} (whole : op ≠ .divide) {x y : Binary64}
    {i j : Int} (left : x.Represents i) (right : y.Represents j)
    (small : (op.onIntegers i j).natAbs ≤ 2 ^ 53) :
    (op.apply x y).Represents (op.onIntegers i j) := by
  cases op with
  | add => exact left.add right small
  | subtract => exact left.sub right small
  | multiply => exact left.mul right small
  | divide => exact absurd rfl whole

/-- The operand has a value, which is the integer. -/
def Operand.Represents (operand : Operand String) (n : Int) : Prop :=
  ∃ x, operand.value Numeral.value = .ok x ∧ x.Represents n

section Evaluation

variable (tolerance : Tolerance) {integer : String → Int}

/-- A combination of integers that is not too large is their result. -/
theorem exists_combine {left right : Operand String} {op : Operator} (whole : op ≠ .divide)
    {i j : Int} (first : left.Represents i) (second : right.Represents j)
    (small : (op.onIntegers i j).natAbs ≤ 2 ^ 53) :
    ∃ result, combine Numeral.value tolerance left op right = .ok result ∧
      result.Represents (op.onIntegers i j) := by
  obtain ⟨x, readLeft, left_represents⟩ := first
  obtain ⟨y, readRight, right_represents⟩ := second
  have exact_result := op.represents_apply whole left_represents right_represents small
  have finite := exact_result.isFinite
  refine ⟨.computed ⟨_, Binary64.isFinite_unsignZero finite, Binary64.unsignZero_unsignZero _⟩,
    ?_, _, rfl, exact_result.unsignZero⟩
  rw [combine, readLeft, readRight, ok_bind, ok_bind, if_neg fun divides => whole divides.1,
    PartialResult.of, dif_pos finite]
  rfl

/-- A term of integers is reduced to its total. -/
theorem Term.exists_reduce {term : Term String}
    (operands : ∀ text ∈ term.operands, (Operand.unread text).Represents (integer text))
    (whole : ∀ factor ∈ term.factors, factor.op ≠ .divide)
    (small : ∀ n ∈ term.partials integer, n.natAbs ≤ 2 ^ 53) :
    ∃ result, term.reduce Numeral.value tolerance = .ok result ∧
      result.Represents (term.total integer) := by
  have factors : List.Forall₂
      (fun x d => x.op = d.op ∧ d.op ≠ .divide ∧
        (Operand.unread d.operand).Represents (integer x.operand)) term.factors term.factors := by
    rw [List.forall₂_same]
    intro factor member
    exact ⟨rfl, whole factor member,
      operands _ (List.mem_cons_of_mem _ (List.mem_map_of_mem member))⟩
  have start : (Operand.unread term.first).Represents (integer term.first) :=
    operands _ List.mem_cons_self
  refine exists_foldlM ?_ factors start small
  rintro left i x d holds ⟨same, whole, right⟩ bounded
  rw [same] at bounded ⊢
  exact exists_combine tolerance whole holds right bounded

/-- **A tree of integers is worth its total.** -/
theorem SumTree.exists_value {tree : SumTree String}
    (operands : ∀ text ∈ tree.operands, (Operand.unread text).Represents (integer text))
    (whole : ∀ factor ∈ tree.factors, factor.op ≠ .divide)
    (small : ∀ n ∈ tree.partials integer, n.natAbs ≤ 2 ^ 53) :
    ∃ x, tree.value Numeral.value tolerance = .ok x ∧ x.Represents (tree.total integer) := by
  have reduces : ∀ term ∈ tree.terms, ∃ result,
      term.reduce Numeral.value tolerance = .ok result ∧ result.Represents (term.total integer) := by
    intro term among
    apply Term.exists_reduce
    · exact fun text member => operands text (List.mem_flatMap.mpr ⟨term, among, member⟩)
    · exact fun factor member => whole factor (List.mem_flatMap.mpr ⟨term, among, member⟩)
    · intro n member
      exact small n (List.mem_append_left _ (List.mem_flatMap.mpr ⟨term, among, member⟩))
  obtain ⟨first, head, start⟩ := reduces tree.first List.mem_cons_self
  obtain ⟨rest, mapped, matched⟩ : ∃ rest,
      tree.rest.mapM (Summand.reduce Numeral.value tolerance) = .ok rest ∧
        List.Forall₂ (fun summand pair => pair.1 = summand.op ∧ pair.1 ≠ .divide ∧
          pair.2.Represents (summand.term.total integer)) tree.rest rest := by
    apply exists_mapM
    intro summand among
    obtain ⟨result, reduced, represents⟩ := reduces summand.term (mem_terms among)
    refine ⟨(summand.op, result), ?_, rfl, summand.op_ne_divide, represents⟩
    rw [Summand.reduce, reduced]
    rfl
  obtain ⟨total, folded, x, read, represents⟩ : ∃ total,
      rest.foldlM (fun left pair => combine Numeral.value tolerance left pair.1 pair.2) first =
        .ok total ∧ total.Represents (tree.total integer) := by
    refine exists_foldlM ?_ matched start fun n member => small n (List.mem_append_right _ member)
    rintro left i summand pair holds ⟨same, whole, right⟩ bounded
    rw [← same] at bounded ⊢
    exact exists_combine tolerance whole holds right bounded
  refine ⟨x, ?_, represents⟩
  rw [value, head, ok_bind, mapped, ok_bind, folded, ok_bind, read]

/-- **A chain of integers is worth its total**, whatever the tolerance is. -/
theorem exists_evaluate_of_integers {first : String} {links : List (Operator × String)}
    (numerals : ∀ text ∈ first :: links.map Prod.snd,
      Numeral.IsInteger text ∧ (Numeral.integer text).natAbs ≤ 2 ^ 53)
    (operators : ∀ link ∈ links, link.1 ≠ .divide)
    (small : ∀ n ∈ (SumTree.ofChain first links).partials Numeral.integer, n.natAbs ≤ 2 ^ 53) :
    ∃ x, evaluate tolerance (.numeral first :: linkTokens links) = .ok x ∧
      x.Represents ((SumTree.ofChain first links).total Numeral.integer) := by
  rw [← SumTree.tokens_ofChain, evaluate_tokens]
  apply SumTree.exists_value
  · rw [SumTree.operands_ofChain]
    intro text member
    obtain ⟨isInteger, bounded⟩ := numerals text member
    exact Numeral.exists_value_of_isInteger isInteger bounded
  · intro factor member divides
    have link := (SumTree.mem_factors_ofChain rfl first).mpr ⟨factor, member, divides, rfl⟩
    exact operators _ link rfl
  · exact small

end Evaluation

end Calculator
