/-
# Calculator.Proofs.Session.Typing -- an expression is what was typed

A script types a numeral by its first character, then the other characters in order
with sign keys anywhere between and behind them: the numeral is negative when their
number is odd (`TypesNumeral`).  It types an expression by its numerals with a
character for each operator between them (`TypesExpression`).

Behind every prefix of such a script the numeral being typed is the part of the body
that has been typed, with a minus if the number of sign keys so far is odd
(`leads_signed`).  An operator settles it, so that a whole script leaves its tokens,
the last numeral still being typed (`TypesExpression.leads`).

* `exists_typesExpression`: every expression of shaped numerals can be typed;
* `runScript_typed`: on a fresh or cleared session its script shows the expression,
  and evaluating it then answers the value of its tokens.
-/
import Calculator.Proofs.Keypad.Spelling
import Calculator.Proofs.Session.Run
import Calculator.Proofs.Session.Script

namespace Calculator

set_option autoImplicit false

/-! ## Scripts -/

/-- A character that a script may write for the sign key. -/
def isSign (c : Char) : Bool := c ∈ Key.spellings .toggleSign

/-- The characters of a body in order, with sign keys behind the first one. -/
inductive TypesNumeral : List Char → String → Prop where
  | intro (first : Char) (tail : List Char) (negative : Bool)
      (body : Numeral.Body (first :: tail.filter (fun c => !isSign c)))
      (sign : negative = true ↔ tail.countP isSign % 2 = 1) :
      TypesNumeral (first :: tail)
        (Numeral.signed negative (first :: tail.filter (fun c => !isSign c)))

/-- Numerals, and between them any character for each operator. -/
inductive TypesExpression : List Char → List Token → Prop where
  | numeral {script : List Char} {text : String} (typed : TypesNumeral script text) :
      TypesExpression script [.numeral text]
  | operation {front script : List Char} {tokens : List Token} {op : Operator} {text : String}
      {c : Char} (before : TypesExpression front tokens) (spelled : c ∈ Key.spellings (.operator op))
      (typed : TypesNumeral script text) :
      TypesExpression (front ++ c :: script) (tokens ++ [.operator op, .numeral text])

/-! ## What the keys do -/

/-- The keys that a script spells take one calculation to another. -/
def Leads (tolerance : Tolerance) (script : List Char) (c d : Calculation) : Prop :=
  ∃ keys, Script.keysOfChars script = .ok keys ∧
    keys.foldl (fun c key => c.next tolerance key) c = d

section Leads

variable {tolerance : Tolerance}

theorem Leads.nil (c : Calculation) : Leads tolerance [] c c := ⟨[], rfl, rfl⟩

theorem Leads.cons {ch : Char} {key : Key} {rest : List Char} {c d : Calculation}
    (spelled : ch ∈ key.spellings) (more : Leads tolerance rest (c.next tolerance key) d) :
    Leads tolerance (ch :: rest) c d := by
  obtain ⟨keys, read, run⟩ := more
  exact ⟨key :: keys, Script.keysOfChars_cons spelled read, run⟩

theorem Leads.append {first second : List Char} {c d e : Calculation}
    (before : Leads tolerance first c d) (behind : Leads tolerance second d e) :
    Leads tolerance (first ++ second) c e := by
  obtain ⟨keys, read, run⟩ := before
  obtain ⟨more, read', run'⟩ := behind
  refine ⟨keys ++ more, ?_, ?_⟩
  · rw [Script.keysOfChars_append second read, read']
    rfl
  · rw [List.foldl_append, run, run']

/-- A digit or a point has a key that types it. -/
theorem exists_key (tolerance : Tolerance) {ch : Char} (char : ch.isDigit ∨ ch = '.') :
    ∃ key : Key, ch ∈ key.spellings ∧ ∀ c : Calculation, c.next tolerance key = c.typeChar ch := by
  rcases char with digit | rfl
  · obtain ⟨small, same⟩ := Decimal.digitChar_of_isDigit digit
    refine ⟨.digit (ch.toNat - '0'.toNat), ?_, fun c => ?_⟩
    · rw [Key.spellings, if_pos small, same, List.mem_singleton]
    · rw [Calculation.next, Calculation.typeDigit, if_pos small, same]
  · exact ⟨.point, List.mem_singleton_self '.', fun _ => rfl⟩

/-- A character that continues a body is typed behind it. -/
theorem typeChar_signed (front : List Token) (negative : Bool) {body : List Char} {ch : Char}
    (longer : Numeral.Body (body ++ [ch])) :
    Calculation.typeChar ⟨front, Numeral.signed negative body, false⟩ ch =
      ⟨front, Numeral.signed negative (body ++ [ch]), false⟩ := by
  have char := longer.chars ch (by simp)
  have onePoint : ¬ (ch = '.' ∧ '.' ∈ (Numeral.signed negative body).toList) := by
    rintro ⟨rfl, earlier⟩
    have typed := List.count_pos_iff.mpr (Numeral.point_mem_signed.mp earlier)
    have count := longer.onePoint
    rw [List.count_append, List.count_singleton_self] at count
    omega
  have numeralChar : Calculation.isNumeralChar ch := by simpa [Calculation.isNumeralChar] using char
  rw [Calculation.typeChar, if_pos numeralChar]
  simp only [Calculation.startFresh, Bool.false_eq_true, if_false, if_neg onePoint,
    Numeral.push_signed]

/-- The sign key changes the sign of what has been typed. -/
theorem toggleSign_signed (front : List Token) (negative : Bool) {body : List Char}
    (typed : Numeral.Body body) :
    Calculation.toggleSign ⟨front, Numeral.signed negative body, false⟩ =
      ⟨front, Numeral.signed (!negative) body, false⟩ := by
  have shaped : Numeral.Shaped (Numeral.signed negative body) := ⟨negative, body, typed, rfl⟩
  rw [Calculation.toggleSign, if_neg (by simpa using shaped.ne_empty),
    typed.toggleSign_signed negative]

/-- The rest of a numeral's script: digits and points go to the end of the body, and
each sign key changes the sign. -/
theorem leads_signed (front : List Token) (tail : List Char) {negative last : Bool}
    {body : List Char} (nonempty : body ≠ [])
    (whole : Numeral.Body (body ++ tail.filter (fun c => !isSign c)))
    (sign : last = negative ↔ tail.countP isSign % 2 = 0) :
    Leads tolerance tail ⟨front, Numeral.signed negative body, false⟩
      ⟨front, Numeral.signed last (body ++ tail.filter (fun c => !isSign c)), false⟩ := by
  induction tail generalizing negative body with
  | nil =>
      obtain rfl : last = negative := sign.mpr rfl
      rw [List.filter_nil, List.append_nil]
      exact .nil _
  | cons ch tail ih =>
      cases signed : isSign ch with
      | true =>
          have kept : (ch :: tail).filter (fun c => !isSign c) = tail.filter (fun c => !isSign c) := by
            simp [signed]
          have odd : last = !negative ↔ tail.countP isSign % 2 = 0 := by
            rw [List.countP_cons_of_pos signed] at sign
            cases last <;> cases negative <;> simp at sign ⊢ <;> omega
          rw [kept] at whole ⊢
          refine .cons (of_decide_eq_true signed) ?_
          rw [Calculation.next, toggleSign_signed front negative (whole.of_append nonempty)]
          exact ih nonempty whole odd
      | false =>
          have kept : (ch :: tail).filter (fun c => !isSign c) =
              ch :: tail.filter (fun c => !isSign c) := by
            simp [signed]
          have same : last = negative ↔ tail.countP isSign % 2 = 0 := by
            rwa [List.countP_cons_of_neg (by simp [signed])] at sign
          rw [kept, List.append_cons] at whole ⊢
          have longer : Numeral.Body (body ++ [ch]) := whole.of_append (by simp)
          obtain ⟨key, spelled, types⟩ := exists_key tolerance (longer.chars ch (by simp))
          refine .cons spelled ?_
          rw [types, typeChar_signed front negative longer]
          exact ih (by simp) whole same

/-- A numeral's script types its text on what its first character starts from. -/
theorem TypesNumeral.leads_of_startFresh {script : List Char} {text : String}
    (typed : TypesNumeral script text) {c : Calculation} {front : List Token}
    (fresh : c.startFresh = ⟨front, "", false⟩) :
    Leads tolerance script c ⟨front, text, false⟩ := by
  obtain ⟨first, tail, negative, body, sign⟩ := typed
  have one : Numeral.Body ([] ++ [first]) := Numeral.Body.of_append (List.cons_ne_nil _ _) body
  have char := one.chars first (by simp)
  obtain ⟨key, spelled, types⟩ := exists_key tolerance char
  have numeralChar : Calculation.isNumeralChar first := by simpa [Calculation.isNumeralChar] using char
  have even : negative = false ↔ tail.countP isSign % 2 = 0 := by
    cases negative <;> simp at sign ⊢ <;> omega
  have typed : c.typeChar first = Calculation.typeChar ⟨front, "", false⟩ first :=
    Calculation.typeChar_congr fresh numeralChar
  refine .cons spelled ?_
  rw [types, typed, show "" = Numeral.signed false [] from rfl, typeChar_signed front false one]
  exact leads_signed front tail (List.cons_ne_nil _ _) body even

theorem TypesNumeral.leads {script : List Char} {text : String} (typed : TypesNumeral script text)
    (front : List Token) : Leads tolerance script ⟨front, "", false⟩ ⟨front, text, false⟩ :=
  typed.leads_of_startFresh rfl

theorem TypesNumeral.ne_empty {script : List Char} {text : String}
    (typed : TypesNumeral script text) : text ≠ "" := by
  obtain ⟨first, tail, negative, body, sign⟩ := typed
  exact Numeral.Shaped.ne_empty ⟨negative, _, body, rfl⟩

/-- An operator settles what has been typed. -/
theorem operate_typed (front : List Token) {text : String} (nonempty : text ≠ "") (op : Operator) :
    Calculation.operate ⟨front, text, false⟩ op =
      ⟨front ++ [.numeral text, .operator op], "", false⟩ := by
  have all : Calculation.allTokens ⟨front, text, false⟩ = front ++ [.numeral text] :=
    Calculation.allTokens_of_nonempty nonempty
  have finished : ¬ Token.Unfinished (front ++ [.numeral text]) :=
    Token.not_unfinished_iff.mpr ⟨text, List.getLast?_concat⟩
  rw [← all] at finished
  rw [Calculation.operate_of_finished finished, all, List.append_assoc]
  rfl

/-- An expression's script leaves its tokens, the last numeral still being typed. -/
theorem TypesExpression.leads_of_startFresh {script : List Char} {tokens : List Token}
    (typed : TypesExpression script tokens) {c : Calculation} (fresh : c.startFresh = .empty) :
    ∃ front text, tokens = front ++ [.numeral text] ∧ text ≠ "" ∧
      Leads tolerance script c ⟨front, text, false⟩ := by
  induction typed with
  | @numeral script text typed =>
      exact ⟨[], text, rfl, typed.ne_empty, typed.leads_of_startFresh fresh⟩
  | @operation _ script _ op text c _ spelled typed ih =>
      obtain ⟨front, first, rfl, nonempty, leads⟩ := ih
      refine ⟨front ++ [.numeral first, .operator op], text, by simp, typed.ne_empty, ?_⟩
      refine leads.append (.cons spelled ?_)
      rw [Calculation.next, operate_typed front nonempty op]
      exact typed.leads _

theorem TypesExpression.leads {script : List Char} {tokens : List Token}
    (typed : TypesExpression script tokens) :
    ∃ front text, tokens = front ++ [.numeral text] ∧ text ≠ "" ∧
      Leads tolerance script .empty ⟨front, text, false⟩ :=
  typed.leads_of_startFresh rfl

end Leads

/-! ## Every expression can be typed -/

theorem isSign_of_char {c : Char} (char : c.isDigit ∨ c = '.') : isSign c = false := by
  rw [isSign, decide_eq_false_iff_not]
  intro sign
  have cases : c = '~' ∨ c = 'n' ∨ c = '±' := by simpa [Key.spellings] using sign
  rcases cases with rfl | rfl | rfl <;> revert char <;> decide

theorem exists_typesNumeral {text : String} (shaped : Numeral.Shaped text) :
    ∃ script, TypesNumeral script text := by
  obtain ⟨negative, body, valid, rfl⟩ := shaped
  obtain ⟨first, rest, rfl⟩ := List.exists_cons_of_ne_nil valid.nonempty
  have plain : ∀ c ∈ rest, isSign c = false := fun c member =>
    isSign_of_char (valid.chars c (List.mem_cons_of_mem first member))
  have kept : rest.filter (fun c => !isSign c) = rest :=
    List.filter_eq_self.mpr fun c member => by simp [plain c member]
  have none : rest.countP isSign = 0 := List.countP_eq_zero.mpr fun c member => by
    simp [plain c member]
  cases negative with
  | false =>
      have typed := TypesNumeral.intro first rest false (by rwa [kept]) (by simp [none])
      rw [kept] at typed
      exact ⟨_, typed⟩
  | true =>
      have sign : isSign '~' = true := rfl
      have behind : ('~' :: rest).filter (fun c => !isSign c) = rest := by simp [sign, kept]
      have typed := TypesNumeral.intro first ('~' :: rest) true (by rwa [behind])
        (by simp [sign, none])
      rw [behind] at typed
      exact ⟨_, typed⟩

theorem exists_typesExpression_append {rest : List Token} (operations : Token.Operations rest)
    (shaped : ∀ text, .numeral text ∈ rest → Numeral.Shaped text) {front : List Token}
    {script : List Char} (before : TypesExpression script front) :
    ∃ script, TypesExpression script (front ++ rest) := by
  induction operations generalizing front script with
  | nil => exact ⟨script, by rwa [List.append_nil]⟩
  | @cons op text rest _ ih =>
      have spelled : op.glyph ∈ Key.spellings (.operator op) := op.glyph_mem_spellings
      obtain ⟨next, typed⟩ := exists_typesNumeral (shaped text (by simp))
      have others (other : String) (member : .numeral other ∈ rest) : Numeral.Shaped other :=
        shaped other (by simp [member])
      obtain ⟨whole, typed⟩ := ih others (before.operation spelled typed)
      exact ⟨whole, by simpa using typed⟩

/-- Scripts exist for all expressions of shaped numerals. -/
theorem exists_typesExpression {tokens : List Token} (alternates : Token.Alternates tokens)
    (finished : ¬ Token.Unfinished tokens)
    (shaped : ∀ text, .numeral text ∈ tokens → Numeral.Shaped text) :
    ∃ script, TypesExpression script tokens := by
  obtain ⟨text, rest, rfl, operations⟩ := Token.expression_iff.mp ⟨alternates, finished⟩
  obtain ⟨first, typed⟩ := exists_typesNumeral (shaped text List.mem_cons_self)
  have others := fun other member => shaped other (List.mem_cons_of_mem _ member)
  exact exists_typesExpression_append operations others (.numeral typed)

/-! ## Running a script -/

namespace Session

/-- A session with nothing typed: it has just started, or was cleared in some run. -/
inductive Fresh (settings : Settings) : Session → Prop where
  | start : Fresh settings (start settings)
  | cleared (steps : List Step) :
      Fresh settings (((start settings).after steps).press .clearAll).1

namespace Fresh

variable {settings : Settings} {s : Session} (fresh : s.Fresh settings)
include fresh

theorem calculation : s.machine.calculation = .empty := by
  cases fresh with
  | start => rfl
  | cleared steps => exact press_calculation _ _

theorem tolerance : s.machine.tolerance = .of settings.zeroTolerance := by
  cases fresh with
  | start => rfl
  | cleared steps => exact (press_tolerance _ _).trans (after_tolerance _ steps)

theorem settings_eq : s.settings = settings := by
  cases fresh with
  | start => rfl
  | cleared steps => exact (press_settings _ _).trans (after_settings _ steps)

end Fresh

theorem after_calculation (s : Session) (keys : List Key) :
    (s.after (keys.map .press)).machine.calculation =
      keys.foldl (fun c key => c.next s.machine.tolerance key) s.machine.calculation := by
  induction keys generalizing s with
  | nil => rfl
  | cons key keys ih =>
      have rest := ih (s.press key).1
      rwa [press_calculation, press_tolerance] at rest

/-- A script that can be read leaves what its keys lead to. -/
theorem runScript_leads {s : Session} {script : String} {d : Calculation}
    (leads : Leads s.machine.tolerance script.toList s.machine.calculation d) :
    ∃ typed frame, s.runScript script = (typed, .ok frame) ∧ frame.equation = d.display ∧
      typed.machine.calculation = d ∧ typed.machine.tolerance = s.machine.tolerance ∧
      typed.settings = s.settings := by
  obtain ⟨keys, read, run⟩ := leads
  have left : (s.pressAll keys).1 = s.after (keys.map .press) := s.pressEach_eq_after keys
  have calculation : (s.pressAll keys).1.machine.calculation = d := by
    rw [left, after_calculation, run]
  refine ⟨(s.pressAll keys).1, (s.pressAll keys).2, s.runScript_of_keys read, ?_, calculation,
    ?_, ?_⟩
  · rw [pressAll_equation, equation, Machine.display, calculation]
  · rw [left, after_tolerance]
  · rw [left, after_settings]

/-- Unless an expression is being entered, a typed one starts from nothing. -/
theorem startFresh_of_phase {c : Calculation} (idle : c.phase ≠ .entering) :
    c.startFresh = .empty := by
  rw [Calculation.startFresh]
  split
  · rfl
  · rename_i other
    rw [Calculation.phase, if_neg other] at idle
    split at idle
    · rename_i none
      obtain ⟨tokens, numeral, isResult⟩ := c
      obtain rfl : isResult = false := by simpa using other
      by_cases empty : numeral = ""
      · subst empty
        obtain rfl : tokens = [] := by simpa [Calculation.allTokens] using none
        rfl
      · simp [Calculation.allTokens, empty] at none
    · exact absurd rfl idle

/-- On a cleared calculation, or on a result, the script of an expression leaves its tokens. -/
theorem runScript_expression {s : Session} (fresh : s.machine.calculation.startFresh = .empty)
    {script : String} {tokens : List Token} (typed : TypesExpression script.toList tokens) :
    ∃ after frame, s.runScript script = (after, .ok frame) ∧
      frame.equation = Token.render tokens ∧ after.machine.calculation.allTokens = tokens ∧
      after.machine.tolerance = s.machine.tolerance := by
  obtain ⟨front, text, rfl, nonempty, leads⟩ := typed.leads_of_startFresh fresh
  obtain ⟨after, frame, run, shown, calculation, tolerance, -⟩ := runScript_leads leads
  have all : after.machine.calculation.allTokens = front ++ [.numeral text] := by
    rw [calculation, Calculation.allTokens_of_nonempty nonempty]
  refine ⟨after, frame, run, ?_, all, tolerance⟩
  rw [shown, ← calculation, Calculation.display, all, if_neg (by simp)]

/-- An expression with a value is logged with it, and the value is what is left. -/
theorem press_evaluate_of_value {s : Session} {value : Binary64}
    (evaluated : Calculator.evaluate s.machine.tolerance s.machine.calculation.allTokens =
      .ok value) :
    (s.press .evaluate).2 =
      ⟨Numeral.ofValue value, Numeral.shown value,
        some ⟨Token.render s.machine.calculation.allTokens, Numeral.shown value⟩, none⟩ := by
  rw [press_evaluate_ok (Calculation.answer_eq_ok_iff.mpr evaluated), Calculation.display_ofValue]

/-- An expression with a value, typed where nothing is being entered, and evaluated. -/
theorem press_evaluate_typed {s : Session} (fresh : s.machine.calculation.startFresh = .empty)
    {script : String} {tokens : List Token} (typed : TypesExpression script.toList tokens)
    {x : Binary64} (evaluated : Calculator.evaluate s.machine.tolerance tokens = .ok x) :
    ∃ after frame, s.runScript script = (after, .ok frame) ∧
      frame.equation = Token.render tokens ∧
      (after.press .evaluate).2 =
        ⟨Numeral.ofValue x, Numeral.shown x, some ⟨Token.render tokens, Numeral.shown x⟩, none⟩ := by
  obtain ⟨after, frame, run, shown, all, tolerance⟩ := runScript_expression fresh typed
  rw [← all, ← tolerance] at evaluated
  refine ⟨after, frame, run, shown, ?_⟩
  rw [press_evaluate_of_value evaluated, all]

/-- **Typing an expression and evaluating it answers its value.**  The script runs and
shows the expression; then the evaluation logs it with its value, or reports its
fault and leaves it shown. -/
theorem runScript_typed {settings : Settings} {s : Session} {script : String}
    {tokens : List Token} (fresh : s.Fresh settings)
    (typed : TypesExpression script.toList tokens) :
    ∃ after frame, s.runScript script = (after, .ok frame) ∧
      frame.equation = Token.render tokens ∧ after.equation = Token.render tokens ∧
      match Calculator.evaluate (.of settings.zeroTolerance) tokens with
      | .ok value =>
          (after.press .evaluate).2 =
            ⟨Numeral.ofValue value, Numeral.shown value,
              some ⟨Token.render tokens, Numeral.shown value⟩, none⟩
      | .error fault =>
          (after.press .evaluate).2 =
            ⟨Token.render tokens, settings.errorIndicator, none, some fault⟩ := by
  obtain ⟨front, text, rfl, nonempty, leads⟩ := typed.leads
  have start := fresh.calculation ▸ leads
  obtain ⟨after, frame, run, shown, calculation, tolerance, kept⟩ := runScript_leads start
  have all : after.machine.calculation.allTokens = front ++ [.numeral text] := by
    rw [calculation, Calculation.allTokens_of_nonempty nonempty]
  have display : after.equation = Token.render (front ++ [.numeral text]) := by
    rw [equation, Machine.display, Calculation.display, all, if_neg (by simp)]
  have same : frame.equation = after.equation := by
    rw [shown, equation, Machine.display, calculation]
  have answered : after.machine.calculation.answer after.machine.tolerance =
      some (Calculator.evaluate (.of settings.zeroTolerance) (front ++ [.numeral text])) := by
    rw [Calculation.answer_of_finished, all, tolerance, fresh.tolerance]
    rw [all]
    exact Token.not_unfinished_iff.mpr ⟨text, List.getLast?_concat⟩
  refine ⟨after, frame, run, same.trans display, display, ?_⟩
  cases evaluated : Calculator.evaluate (.of settings.zeroTolerance) (front ++ [.numeral text]) with
  | ok value =>
      rw [evaluated] at answered
      exact (press_evaluate_ok answered).trans (by rw [all, Calculation.display_ofValue])
  | error fault =>
      rw [evaluated] at answered
      exact (press_evaluate_error answered).trans (by rw [display, kept, fresh.settings_eq])

/-- Minus a half times three.  Two sign keys behind the three cancel out, and a letter
stands for times. -/
theorem runScript_typed_product :
    TypesExpression "0.~5x3nn".toList [.numeral "-0.5", .operator .multiply, .numeral "3"] ∧
      ∃ after frame, (start .default).runScript "0.~5x3nn" = (after, .ok frame) ∧
        frame.equation = "-0.5 × 3" ∧
        (after.press .evaluate).2.appended = some ⟨"-0.5 × 3", "-1.5"⟩ := by
  have half : TypesNumeral ['0', '.', '~', '5'] "-0.5" := by
    have body : Numeral.Body ['0', '.', '5'] := ⟨by decide, by simp, by decide⟩
    exact .intro '0' ['.', '~', '5'] true body (by decide)
  have three : TypesNumeral ['3', 'n', 'n'] "3" := by
    have body : Numeral.Body ['3'] := ⟨by decide, by simp, by decide⟩
    exact .intro '3' ['n', 'n'] false body (by decide)
  have typed : TypesExpression "0.~5x3nn".toList
      [.numeral "-0.5", .operator .multiply, .numeral "3"] :=
    (TypesExpression.numeral half).operation (by decide) three
  have value : (Calculator.evaluate (.of Settings.default.zeroTolerance)
      [.numeral "-0.5", .operator .multiply, .numeral "3"]).map Numeral.shown = .ok "-1.5" := by
    decide +kernel
  obtain ⟨after, frame, run, shown, -, answered⟩ := runScript_typed .start typed
  refine ⟨typed, after, frame, run, shown, ?_⟩
  split at answered
  · rename_i x evaluated
    rw [evaluated] at value
    rw [answered, Except.ok.inj value]
    rfl
  · rename_i fault evaluated
    rw [evaluated] at value
    cases value

end Session

end Calculator
