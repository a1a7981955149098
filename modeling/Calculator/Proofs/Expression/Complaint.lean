/-
# Calculator.Proofs.Expression.Complaint -- the numeral that an evaluation complains about

A fault may carry a text: that of a numeral without a value.  While an expression is reduced
its tokens give way to others, so that the text could be one that nobody typed.  It is not:
the new tokens are partial results, which read back (`TokensComplain.splice`).

* `exists_token_of_badNumeral`: the text is that of a token of the expression.
-/
import Calculator.Proofs.Expression.Answer

namespace Calculator

set_option autoImplicit false

/-- A computation complains about texts of one kind only. -/
def Complains (kind : String → Prop) {α : Type} (x : Except Fault α) : Prop :=
  ∀ text, x = .error (.badNumeral text) → kind text

namespace Complains

variable {kind : String → Prop} {α β : Type}

theorem ok (x : α) : Complains kind (.ok x) := fun text found => by cases found

/-- The other faults carry no numeral. -/
theorem other {fault : Fault} (other : ∀ text, fault ≠ .badNumeral text) :
    Complains kind (.error fault : Except Fault α) := by
  intro text found
  exact absurd (Except.error.inj found) (other text)

theorem bind {x : Except Fault α} {next : α → Except Fault β} (first : Complains kind x)
    (rest : ∀ middle, x = .ok middle → Complains kind (next middle)) :
    Complains kind (x >>= next) := by
  intro text failed
  rcases bind_eq_error_iff.mp failed with early | ⟨middle, done, late⟩
  · exact first text early
  · exact rest middle done text late

end Complains

section Tokens

variable {kind : String → Prop} (tolerance : Tolerance)

theorem complains_checkFinite (value : Binary64) : Complains kind (checkFinite value) := by
  rw [checkFinite]
  split
  · exact .ok value
  · exact .other (by simp)

theorem isFinite_of_checkFinite {value checked : Binary64} (done : checkFinite value = .ok checked) :
    checked.isFinite := by
  rw [checkFinite] at done
  split at done
  · rename_i finite
    cases done
    exact finite
  · cases done

theorem complains_applyOperator {left right : Token} (first : Complains kind left.value)
    (second : Complains kind right.value) (op : Operator) :
    Complains kind (applyOperator tolerance left op right) := by
  refine first.bind fun x _ => second.bind fun y _ => ?_
  split
  · exact .other (by simp)
  · exact complains_checkFinite _

theorem isFinite_of_applyOperator {left right : Token} {op : Operator} {value : Binary64}
    (done : applyOperator tolerance left op right = .ok value) : value.isFinite := by
  obtain ⟨x, -, rest⟩ := bind_eq_ok_iff.mp done
  obtain ⟨y, -, rest⟩ := bind_eq_ok_iff.mp rest
  split at rest
  · cases rest
  · exact isFinite_of_checkFinite rest

/-- No token among these is without a value but for texts of one kind. -/
def TokensComplain (kind : String → Prop) (tokens : List Token) : Prop :=
  ∀ token ∈ tokens, Complains kind token.value

/-- The text of a partial result reads back. -/
theorem TokensComplain.splice {work : List Token} (all : TokensComplain kind work)
    (position : Nat) {value : Binary64} (finite : value.isFinite) :
    TokensComplain kind (splice work position value) := by
  intro token member
  rcases List.mem_append.mp member with before | later
  · exact all token (List.mem_of_mem_take before)
  · rcases List.mem_cons.mp later with rfl | behind
    · rw [Token.value, Numeral.value, Numeral.value?_ofValue finite]
      exact .ok _
    · exact all token (List.mem_of_mem_drop behind)

/-- A pass over some tokens that complains about texts of one kind, as do the tokens that are
left. -/
structure PassComplains (kind : String → Prop) (pass : Except Fault (List Token)) : Prop where
  complains : Complains kind pass
  left : ∀ reduced, pass = .ok reduced → TokensComplain kind reduced

theorem PassComplains.ok {work : List Token} (all : TokensComplain kind work) :
    PassComplains kind (.ok work) where
  complains := .ok work
  left reduced done := by
    cases done
    exact all

/-- A combination, and a pass over the list with its result. -/
theorem PassComplains.combine {left right : Token} (first : Complains kind left.value)
    (second : Complains kind right.value) (op : Operator)
    {next : Binary64 → Except Fault (List Token)}
    (later : ∀ value : Binary64, value.isFinite → PassComplains kind (next value)) :
    PassComplains kind (applyOperator tolerance left op right >>= next) where
  complains := (complains_applyOperator tolerance first second op).bind fun value applied =>
    (later value (isFinite_of_applyOperator tolerance applied)).complains
  left reduced done := by
    obtain ⟨value, applied, done⟩ := bind_eq_ok_iff.mp done
    exact (later value (isFinite_of_applyOperator tolerance applied)).left reduced done

theorem passComplains_reduceProducts {work : List Token} (all : TokensComplain kind work)
    (cursor : Nat) : PassComplains kind (reduceProducts tolerance work cursor) := by
  fun_induction reduceProducts tolerance work cursor with
  | case1 work cursor inside op found tier ih =>
      have operand (position : Nat) (within : position < work.length) :
          Complains kind work[position].value := all _ (List.getElem_mem within)
      refine .combine tolerance (operand _ _) (operand _ _) op ?_
      intro value finite
      exact ih value (all.splice (cursor - 1) finite)
  | case2 work cursor inside op found tier ih => exact ih all
  | case3 work cursor inside none ih => exact ih all
  | case4 work cursor outside => exact .ok all

theorem passComplains_reduceSums {work : List Token} (all : TokensComplain kind work) :
    PassComplains kind (reduceSums tolerance work) := by
  fun_induction reduceSums tolerance work with
  | case1 left token right rest op found ih =>
      refine .combine tolerance (all left (by simp)) (all right (by simp)) op ?_
      intro value finite
      exact ih value (all.splice 0 finite)
  | case2 left token right rest none =>
      refine ⟨.other (by simp), fun reduced done => ?_⟩
      cases done
  | case3 work short => exact .ok all

theorem complains_checkPlaces (position : Nat) (tokens : List Token) :
    Complains kind (checkPlaces position tokens) := by
  induction tokens generalizing position with
  | nil => exact .ok ()
  | cons token rest ih =>
      rw [checkPlaces]
      split
      · exact ih (position + 1)
      · exact .other (by simp)

/-- The shape of an expression is no matter of numerals. -/
theorem complains_checkShape (tokens : List Token) :
    Complains kind (checkShape tokens) := by
  unfold checkShape
  split
  · exact .other (by simp)
  · exact .other (by simp)
  · exact complains_checkPlaces 0 tokens

theorem complains_evaluate {tokens : List Token} (all : TokensComplain kind tokens) :
    Complains kind (evaluate tolerance tokens) := by
  have products := passComplains_reduceProducts tolerance all 1
  refine (complains_checkShape tokens).bind fun _ _ => products.complains.bind fun reduced done => ?_
  have sums := passComplains_reduceSums tolerance (products.left reduced done)
  refine sums.complains.bind fun rest done => ?_
  split
  · rename_i only
    have value : Complains kind only.value := sums.left _ done only (by simp)
    exact value.bind fun x _ => complains_checkFinite x
  · exact .other (by simp)

end Tokens

theorem Token.text_of_badNumeral {token : Token} {text : String}
    (failed : token.value = .error (.badNumeral text)) : token.text = text := by
  cases token with
  | operator op =>
      cases failed
      rfl
  | numeral own =>
      rw [Token.value, Numeral.value] at failed
      split at failed
      · cases failed
      · cases failed
        rfl

/-- **The text of a fault is a token's.**  What has been written for a partial result reads
back, so that only a token of the expression itself can be without a value. -/
theorem exists_token_of_badNumeral {tolerance : Tolerance} {tokens : List Token} {text : String}
    (failed : evaluate tolerance tokens = .error (.badNumeral text)) :
    ∃ token ∈ tokens, token.text = text := by
  have each : TokensComplain (fun text => ∃ token ∈ tokens, token.text = text) tokens := by
    intro token member named unread
    exact ⟨token, member, Token.text_of_badNumeral unread⟩
  exact complains_evaluate tolerance each text failed

end Calculator
