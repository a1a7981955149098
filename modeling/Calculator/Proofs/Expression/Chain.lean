/-
# Calculator.Proofs.Expression.Chain -- an operand, and operators with theirs

An expression can also be given in the order in which it is typed: a first operand, and
behind it operators, each with its right operand.  `SumTree.ofChain` groups such a chain
into terms.  The operands are of any kind, as those of a tree are, and what they are only
matters for reading them (`SumTree.value_map`).

So a chain may start with a double instead of a numeral.  `valueFrom` is the value of such
a chain, and it is the value of the tokens in which any numeral of the double stands in
front (`evaluate_linkTokens`).

* `SumTree.tokens_ofChain`: a chain of numerals, as tokens;
* `infix_linkTokens_iff`, `SumTree.mem_factors_ofChain`: a link, in the tokens and in the tree;
* `valueFrom_add_zero`, `evaluate_add_zero`: adding zero shows what a chain starts with.
-/
import Calculator.Proofs.Binary64.Exact
import Calculator.Proofs.Expression.Reduction

namespace Calculator

set_option autoImplicit false

/-! ## Chains and trees -/

/-- The tree of an operand and of operators with one operand each: an operator of the upper
tier continues the term behind it, one of the lower tier starts a new one. -/
def SumTree.ofChain {α : Type} (first : α) : List (Operator × α) → SumTree α
  | [] => ⟨⟨first, []⟩, []⟩
  | (op, operand) :: links =>
      let behind := ofChain operand links
      match tier : op.isMultiplicative with
      | true => ⟨⟨first, ⟨op, tier, behind.first.first⟩ :: behind.first.factors⟩, behind.rest⟩
      | false => ⟨⟨first, []⟩, ⟨op, tier, behind.first⟩ :: behind.rest⟩

/-- The tokens of operators with numerals behind them. -/
def linkTokens (links : List (Operator × String)) : List Token :=
  links.flatMap fun link => [.operator link.1, .numeral link.2]

theorem SumTree.ofChain_first {α : Type} (first : α) (links : List (Operator × α)) :
    (ofChain first links).first.first = first := by
  cases links with
  | nil => rfl
  | cons link links =>
      rw [ofChain]
      split <;> rfl

/-- A chain of numerals is written in its order. -/
theorem SumTree.tokens_ofChain (first : String) (links : List (Operator × String)) :
    (ofChain first links).tokens = .numeral first :: linkTokens links := by
  induction links generalizing first with
  | nil => rfl
  | cons link links ih =>
      obtain ⟨op, operand⟩ := link
      have behind := ih operand
      have head := ofChain_first operand links
      rw [linkTokens, List.flatMap_cons, ← linkTokens, List.cons_append, List.singleton_append,
        ← behind, ofChain]
      split <;> simp [tokens, Term.tokens, Factor.tokens, Summand.tokens, head]

/-- Every expression is a chain. -/
theorem exists_linkTokens_eq {tokens : List Token} (alternates : Token.Alternates tokens)
    (finished : ¬ Token.Unfinished tokens) :
    ∃ first links, tokens = .numeral first :: linkTokens links := by
  obtain ⟨first, rest, rfl, operations⟩ := Token.expression_iff.mp ⟨alternates, finished⟩
  suffices ∃ links, rest = linkTokens links by
    obtain ⟨links, rfl⟩ := this
    exact ⟨first, links, rfl⟩
  clear alternates finished
  induction operations with
  | nil => exact ⟨[], rfl⟩
  | cons op text _ ih =>
      obtain ⟨links, rfl⟩ := ih
      exact ⟨(op, text) :: links, rfl⟩

/-- Behind an operator of the tokens stands its operand. -/
theorem infix_linkTokens_iff {op : Operator} {text first : String}
    {links : List (Operator × String)} :
    [.operator op, .numeral text] <:+: .numeral first :: linkTokens links ↔ (op, text) ∈ links := by
  induction links generalizing first with
  | nil => simp [linkTokens, List.infix_cons_iff]
  | cons link links ih =>
      rw [linkTokens, List.flatMap_cons, ← linkTokens, List.cons_append, List.infix_cons_iff,
        List.infix_cons_iff, List.singleton_append, ih]
      simp [Prod.ext_iff, eq_comm]

/-! ## The operands of a tree -/

theorem Summand.op_ne_divide {α : Type} (summand : Summand α) : summand.op ≠ .divide := by
  intro divides
  have tier := summand.additive
  rw [divides] at tier
  cases tier

namespace SumTree

variable {α : Type}

def terms (tree : SumTree α) : List (Term α) := tree.first :: tree.rest.map Summand.term

theorem mem_terms {tree : SumTree α} {summand : Summand α} (among : summand ∈ tree.rest) :
    summand.term ∈ tree.terms :=
  List.mem_cons_of_mem _ (List.mem_map_of_mem among)

/-- The operators of the upper tier, with their right operands. -/
def factors (tree : SumTree α) : List (Factor α) := tree.terms.flatMap Term.factors

/-- The factors of a chain's tree are the links of the chain with their operators. -/
theorem mem_factors_ofChain {op : Operator} (tier : op.isMultiplicative = true) (first : α)
    {operand : α} {links : List (Operator × α)} :
    (op, operand) ∈ links ↔
      ∃ factor ∈ (ofChain first links).factors, factor.op = op ∧ factor.operand = operand := by
  induction links generalizing first with
  | nil => simp [ofChain, factors, terms]
  | cons link links ih =>
      obtain ⟨other, right⟩ := link
      have behind := ih right
      have head := ofChain_first right links
      rw [factors, terms, List.flatMap_cons] at behind
      rw [List.mem_cons, behind, ofChain, factors, terms]
      split
      · simp [head, eq_comm]
      · rename_i lower
        have different : other ≠ op := by
          rintro rfl
          rw [tier] at lower
          cases lower
        simp [different.symm]

end SumTree

/-! ## Operands of another kind -/

section Map

variable {α β γ δ : Type}

/-- A fold whose steps agree along two maps agrees along them. -/
theorem foldlM_along {f : α → β} {g : γ → δ} {s : α → γ → Except Fault α}
    {t : β → δ → Except Fault β} (each : ∀ y x, t (f y) (g x) = f <$> s y x)
    (list : List γ) (start : α) :
    (list.map g).foldlM t (f start) = f <$> list.foldlM s start := by
  induction list generalizing start with
  | nil => rfl
  | cons x list ih =>
      rw [List.map_cons, List.foldlM_cons, List.foldlM_cons, each]
      cases s start x with
      | error fault => rfl
      | ok y => exact ih y

/-- A traversal whose steps agree along two maps agrees along them. -/
theorem mapM_along {f : α → β} {g : γ → δ} {s : γ → Except Fault α} {t : δ → Except Fault β}
    (each : ∀ x, t (g x) = f <$> s x) (list : List γ) :
    (list.map g).mapM t = List.map f <$> list.mapM s := by
  induction list with
  | nil => rfl
  | cons x list ih =>
      rw [List.map_cons, List.mapM_cons, List.mapM_cons, each, ih]
      cases s x with
      | error fault => rfl
      | ok y => cases list.mapM s <;> rfl

def Operand.map (f : α → β) : Operand α → Operand β
  | .unread operand => .unread (f operand)
  | .computed result => .computed result

def Factor.map (f : α → β) (factor : Factor α) : Factor β :=
  ⟨factor.op, factor.multiplicative, f factor.operand⟩

def Term.map (f : α → β) (term : Term α) : Term β :=
  ⟨f term.first, term.factors.map (Factor.map f)⟩

def Summand.map (f : α → β) (summand : Summand α) : Summand β :=
  ⟨summand.op, summand.additive, summand.term.map f⟩

def SumTree.map (f : α → β) (tree : SumTree α) : SumTree β :=
  ⟨tree.first.map f, tree.rest.map (Summand.map f)⟩

variable (f : α → β) (read : β → Except Fault Binary64) (tolerance : Tolerance)

theorem Operand.value_map (operand : Operand α) :
    (operand.map f).value read = operand.value (fun x => read (f x)) := by
  cases operand <;> rfl

theorem combine_map (left right : Operand α) (op : Operator) :
    combine read tolerance (left.map f) op (right.map f) =
      Operand.map f <$> combine (fun x => read (f x)) tolerance left op right := by
  unfold combine
  rw [left.value_map, right.value_map]
  cases left.value fun x => read (f x) with
  | error fault => rfl
  | ok x =>
    cases right.value fun x => read (f x) with
    | error fault => rfl
    | ok y =>
      by_cases small : op = .divide ∧ y.abs.lt tolerance.bound
      · simp only [ok_bind, if_pos small]
        rfl
      · simp only [ok_bind, if_neg small]
        cases PartialResult.of (op.apply x y) <;> rfl

theorem Term.reduce_map (term : Term α) :
    (term.map f).reduce read tolerance =
      Operand.map f <$> term.reduce (fun x => read (f x)) tolerance := by
  show (term.factors.map (Factor.map f)).foldlM
      (fun left factor => combine read tolerance left factor.op (.unread factor.operand))
      (Operand.map f (.unread term.first)) = _
  apply foldlM_along
  intro left factor
  exact combine_map f read tolerance left (.unread factor.operand) factor.op

theorem Summand.reduce_map (summand : Summand α) :
    (summand.map f).reduce read tolerance =
      (fun pair => (pair.1, pair.2.map f)) <$>
        summand.reduce (fun x => read (f x)) tolerance := by
  have term := summand.term.reduce_map f read tolerance
  simp only [reduce, map, term]
  cases summand.term.reduce (fun x => read (f x)) tolerance <;> rfl

/-- Reading other operands is reading through the map. -/
theorem SumTree.value_map (tree : SumTree α) :
    (tree.map f).value read tolerance = tree.value (fun x => read (f x)) tolerance := by
  have terms := mapM_along (Summand.reduce_map f read tolerance) tree.rest
  have sums (first : Operand α) (pairs : List (Operator × Operand α)) :
      (pairs.map fun pair => (pair.1, pair.2.map f)).foldlM
          (fun left pair => combine read tolerance left pair.1 pair.2) (first.map f) =
        Operand.map f <$> pairs.foldlM
          (fun left pair => combine (fun x => read (f x)) tolerance left pair.1 pair.2) first := by
    apply foldlM_along (f := Operand.map f)
    intro left pair
    exact combine_map f read tolerance left pair.2 pair.1
  simp only [value, map, Term.reduce_map, terms, bind_map_left, sums, Operand.value_map]

theorem SumTree.map_ofChain (first : α) (links : List (Operator × α)) :
    (ofChain first links).map f = ofChain (f first) (links.map fun link => (link.1, f link.2)) := by
  induction links generalizing first with
  | nil => rfl
  | cons link links ih =>
      obtain ⟨op, operand⟩ := link
      have behind := ih operand
      rw [List.map_cons, ofChain, ofChain, ← behind]
      cases op <;> rfl

end Map

/-! ## Chains that start with a double -/

section Value

variable (tolerance : Tolerance)

/-- The value of a double and of operators behind it, each with its operand's text. -/
def valueFrom (x : Binary64) (links : List (Operator × String)) : Except Fault Binary64 :=
  (SumTree.ofChain (.ok x) (links.map fun link => (link.1, Numeral.value link.2))).value id
    tolerance

/-- Any numeral of the double may stand in front. -/
theorem evaluate_linkTokens {text : String} {x : Binary64} (read : Numeral.value text = .ok x)
    (links : List (Operator × String)) :
    evaluate tolerance (.numeral text :: linkTokens links) = valueFrom tolerance x links := by
  have mapped := SumTree.value_map Numeral.value id tolerance (.ofChain text links)
  rw [SumTree.map_ofChain, read] at mapped
  rw [← SumTree.tokens_ofChain, evaluate_tokens]
  exact mapped.symm

end Value

/-! ## Adding zero -/

namespace Binary64

/-- Adding zero changes a finite double only where it is the negative zero. -/
theorem add_zero {x : Binary64} (finite : x.isFinite) : x.add .zero = x.unsignZero := by
  obtain ⟨negative, m, rfl⟩ := exists_finite finite
  have nothing : signedUnits false .zero = 0 := rfl
  rw [zero, add, nothing, Int.add_zero, unsignZero, isZero]
  by_cases none : m.isZero
  · have units := m.units_eq_zero_iff.mpr none
    have total : signedUnits negative m = 0 := by cases negative <;> simp [signedUnits, units]
    rw [if_pos none, if_pos total, Bool.and_false]
    rfl
  · have units : m.units ≠ 0 := fun empty => none (m.units_eq_zero_iff.mp empty)
    have total : signedUnits negative m ≠ 0 := by
      unfold signedUnits
      split <;> omega
    have size : (signedUnits negative m).natAbs = m.units := by
      unfold signedUnits
      split <;> omega
    have sign : decide (signedUnits negative m < 0) = negative := by
      unfold signedUnits
      cases negative with
      | false => simp
      | true =>
          simp only [if_true, decide_eq_true_eq]
          omega
    simp only [if_neg none, if_neg total, sign, size, nearest_units]

end Binary64

/-- A chain of one sum. -/
theorem valueFrom_add (tolerance : Tolerance) (x : Binary64) {text : String} {y : Binary64}
    (read : Numeral.value text = .ok y) :
    valueFrom tolerance x [(.add, text)] = PartialResult.value <$> PartialResult.of (x.add y) := by
  have tree : SumTree.ofChain (.ok x) [(.add, Numeral.value text)] =
      ⟨⟨.ok x, []⟩, [⟨.add, rfl, ⟨Numeral.value text, []⟩⟩]⟩ := rfl
  have combined : combine id tolerance (.unread (.ok x)) .add (.unread (.ok y)) =
      Operand.computed <$> PartialResult.of (x.add y) := rfl
  rw [valueFrom, List.map_singleton, tree, read]
  simp only [SumTree.value, Summand.reduce, Term.reduce, List.mapM_cons, List.mapM_nil,
    List.foldlM_cons, List.foldlM_nil, pure_bind, map_pure, bind_pure, combined]
  cases PartialResult.of (x.add y) <;> rfl

/-- A chain that only adds zero is worth what it starts with. -/
theorem valueFrom_add_zero (tolerance : Tolerance) {x : Binary64} (finite : x.isFinite) :
    valueFrom tolerance x [(.add, "0")] = .ok x.unsignZero := by
  have zero : Numeral.value "0" = .ok .zero := Numeral.value_eq_ok.mpr Numeral.value?_zero
  have same := Binary64.isFinite_unsignZero finite
  rw [valueFrom_add tolerance x zero, Binary64.add_zero finite, PartialResult.of, dif_pos same]
  exact congrArg Except.ok x.unsignZero_unsignZero

/-- A numeral to which only zero is added is worth what it reads as. -/
theorem evaluate_add_zero (tolerance : Tolerance) (text : String) :
    evaluate tolerance (.numeral text :: linkTokens [(.add, "0")]) =
      Binary64.unsignZero <$> Numeral.value text := by
  cases read : Numeral.value text with
  | ok x =>
      have finite := Numeral.isFinite_of_value? (Numeral.value_eq_ok.mp read)
      rw [evaluate_linkTokens tolerance read, valueFrom_add_zero tolerance finite]
      rfl
  | error fault =>
      have unread : combine Numeral.value tolerance (.unread text) .add (.unread "0") =
          .error fault := by
        rw [combine, Operand.value, read]
        rfl
      rw [← SumTree.tokens_ofChain, evaluate_tokens]
      show (combine Numeral.value tolerance (.unread text) .add (.unread "0") >>= _) >>= _ = _
      rw [unread]
      rfl

end Calculator
