/-
# Calculator.Proofs.CommandLine.Placement -- global options on both sides

Global options may be spread over both sides of the name of a command, in any order and any
spelling (`Spread`).  As long as the verbose flags are all on one side, both sides together say
what one side says that has them all (`Merges`).  So the outcome of the command line depends on
the options only, not on where they stand (`Spread.ofArguments_eq`).
-/
import Mathlib.Data.List.Basic
import Calculator.Proofs.CommandLine.Further

namespace Calculator.CommandLine

set_option autoImplicit false

/-! ## The name of a command -/

namespace CommandName

theorem ofText_text (name : CommandName) : Argument.ofText name.text = .plain name.text := by
  cases name <;> rfl

theorem text_ne_help (name : CommandName) : name.text ≠ "help" := by cases name <;> decide

theorem ofText?_text (name : CommandName) : ofText? name.text = some name := by
  cases name <;> decide

end CommandName

section Settles

variable {u settled : Side} (settles : u.settle = .ok settled)
include settles

/-- In front of the name of a command a side stops. -/
theorem readBefore_name (name : CommandName) (rest : List String) :
    readBefore u (name.text :: rest) = .ok (u, name, rest) := by
  rw [readBefore_plain rest u name.ofText_text, Side.isWaiting_of_settle settles,
    if_neg (by decide), if_neg name.text_ne_help, name.ofText?_text]
  rfl

theorem option_of_settle (o : Opt) (value : Option String) :
    u.option o value = settled.option o value := by
  have again := Side.settle_of_held (Side.held_of_settle settles)
  cases o <;> cases value <;> simp only [Side.option, settles, again]

/-- A side goes on as it would having settled. -/
theorem readBehind_of_settle (command : CommandName) (arguments : List String) :
    readBehind command u arguments = readBehind command settled arguments := by
  have again := Side.settle_of_held (Side.held_of_settle settles)
  have script (text : String) : u.script command text = settled.script command text := by
    rw [Side.script, settles, Side.script, again]
  induction arguments with
  | nil => rw [readBehind, readBehind, settles, again]
  | cons argument rest ih =>
      cases kind : Argument.ofText argument with
      | plain text =>
          rw [readBehind_plain rest u command kind, readBehind_plain rest settled command kind,
            Side.isWaiting_of_settle settles, Side.isWaiting_of_settle again, script]
          rfl
      | endOfOptions =>
          rw [readBehind_endOfOptions rest u command kind,
            readBehind_endOfOptions rest settled command kind]
          cases rest with
          | nil =>
              show u.settle = settled.settle
              rw [settles, again]
          | cons text texts => rw [List.foldlM_cons, List.foldlM_cons, script]
      | long name value =>
          rw [readBehind_long rest u command kind, readBehind_long rest settled command kind]
          unfold Side.longOption
          cases Opt.ofLongName? (.behind command) name with
          | none => rfl
          | some o => simp only [option_of_settle settles]
      | short letters =>
          rw [readBehind_short rest u command kind, readBehind_short rest settled command kind]
          cases letters with
          | nil => exact ih
          | cons letter letters => simp only [Side.shortOptions, option_of_settle settles]

end Settles

/-! ## Both sides together -/

/-- Two sides of which no setting is on both say together what a third one says. -/
structure Merges (before behind whole : Side) : Prop where
  given : ∀ t, (behind.given t <|> before.given t) = whole.given t
  apart : ∀ t, behind.given t = none ∨ before.given t = none
  raised : ∀ f, f ≠ .verbose → (behind.raised f || before.raised f) = whole.raised f
  verbose : (if behind.verbose = 0 then before.verbose else behind.verbose) = whole.verbose

theorem choose_of_apart {α : Type} {behind before : Option α} (read : String → Option α)
    (environment : Option String) (apart : behind = none ∨ before = none) :
    choose read behind before environment = choose read (behind <|> before) none environment := by
  rcases apart with rfl | rfl
  · cases before <;> cases environment <;> rfl
  · cases behind <;> cases environment <;> rfl

theorem Merges.configuration_eq {before behind whole : Side}
    (merges : Merges before behind whole) (environment : Environment) :
    configuration before behind environment = configuration .empty whole environment := by
  have oneCapacity : behind.historyCapacity = none ∨ before.historyCapacity = none :=
    merges.apart .historyCapacity
  have oneTolerance : behind.zeroTolerance = none ∨ before.zeroTolerance = none :=
    merges.apart .zeroTolerance
  have capacity : (behind.historyCapacity <|> before.historyCapacity) = whole.historyCapacity :=
    merges.given .historyCapacity
  have tolerance : (behind.zeroTolerance <|> before.zeroTolerance) = whole.zeroTolerance :=
    merges.given .zeroTolerance
  have color : (behind.color <|> before.color) = whole.color := merges.given .color
  have indicator : (behind.errorIndicator <|> before.errorIndicator) = whole.errorIndicator :=
    merges.given .errorIndicator
  have quiet : (behind.quiet || before.quiet) = whole.quiet := merges.raised .quiet (by decide)
  have logJson : (behind.logJson || before.logJson) = whole.logJson :=
    merges.raised .logJson (by decide)
  have verbose : (if whole.verbose = 0 then 0 else whole.verbose) = whole.verbose := by
    split
    · rename_i none
      rw [none]
    · rfl
  unfold configuration
  rw [choose_of_apart _ _ oneCapacity, capacity, choose_of_apart _ _ oneTolerance, tolerance,
    color, indicator, quiet, logJson, merges.verbose]
  simp [Side.empty, verbose]

theorem Proper.of_perm {options others : List Written} (proper : Proper options)
    (perm : options.Perm others) : Proper others where
  global w member := proper.global w (perm.mem_iff.mpr member)
  readable w member := proper.readable w (perm.mem_iff.mpr member)
  once := perm.pairwise proper.once fun once same => same ▸ once same.symm

/-- Both sides of a list of options that belong together say what the whole list says. -/
theorem Merges.of_reflects {before behind whole : Side} {front rear options : List Written}
    (before_reflects : before.Reflects front) (behind_reflects : behind.Reflects rear)
    (whole_reflects : whole.Reflects options) (perm : (front ++ rear).Perm options)
    (proper : Proper options)
    (oneSide : Written.flag .verbose ∉ front ∨ Written.flag .verbose ∉ rear) :
    Merges before behind whole := by
  have anywhere (w : Written) : w ∈ options ↔ w ∈ front ∨ w ∈ rear := by
    rw [← perm.mem_iff, List.mem_append]
  have crossed := (List.pairwise_append.mp (proper.of_perm perm.symm).once).2.2
  have given (t : Setting) (v : t.Value) :
      whole.given t = some v ↔ behind.given t = some v ∨ before.given t = some v := by
    rw [whole_reflects.given, behind_reflects.given, before_reflects.given, ← exists_or]
    simp only [anywhere, or_and_right, or_comm]
  have apart (t : Setting) : behind.given t = none ∨ before.given t = none := by
    by_contra! both
    obtain ⟨v, givenBehind⟩ := Option.ne_none_iff_exists'.mp both.1
    obtain ⟨u, givenBefore⟩ := Option.ne_none_iff_exists'.mp both.2
    obtain ⟨text, inFront, -⟩ := (before_reflects.given t u).mp givenBefore
    obtain ⟨other, inRear, -⟩ := (behind_reflects.given t v).mp givenBehind
    cases crossed _ inFront _ inRear rfl
  refine ⟨?_, apart, ?_, ?_⟩
  · intro t
    ext v
    rw [given]
    rcases apart t with none | none <;> simp [none]
  · intro f counted
    rw [Bool.eq_iff_iff, Bool.or_eq_true, whole_reflects.raised f counted,
      behind_reflects.raised f counted, before_reflects.raised f counted, anywhere, or_comm]
  · have total : whole.verbose = before.verbose + behind.verbose := by
      rw [whole_reflects.verbose, before_reflects.verbose, behind_reflects.verbose,
        ← perm.count_eq, List.count_append]
    rcases oneSide with absent | absent
    · have none : before.verbose = 0 := by
        rw [before_reflects.verbose, List.count_eq_zero.mpr absent]
      rw [total, none]
      split <;> omega
    · have none : behind.verbose = 0 := by
        rw [behind_reflects.verbose, List.count_eq_zero.mpr absent]
      rw [total, none, if_pos rfl, Nat.add_zero]

/-! ## Command lines -/

/-- Options that are written on both sides of the name of a command, with the verbose flags all
on one of them. -/
inductive Spread (options : List Written) : List String → List String → Prop
  | intro {before behind : List String} {front rear : List Written} :
      Spells before front → Spells behind rear → (front ++ rear).Perm options →
      (Written.flag .verbose ∉ front ∨ Written.flag .verbose ∉ rear) →
      Spread options before behind

theorem Spread.in_front {options : List Written} {arguments : List String}
    (spells : Spells arguments options) : Spread options arguments [] :=
  .intro spells .nil (by rw [List.append_nil]) (.inr List.not_mem_nil)

theorem Spread.behind {options : List Written} {arguments : List String}
    (spells : Spells arguments options) : Spread options [] arguments :=
  .intro .nil spells (.refl _) (.inl List.not_mem_nil)

/-- What comes of a command line whose sides have taken global options, with further arguments
behind its name. -/
def requestOf (before behind : Side) (name : CommandName) (further : List String)
    (environment : Environment) : Except Usage Request := do
  let side ← readBehind name .empty further
  let command ← command name side
  let configuration ← configuration before behind environment
  return { configuration, command }

section Sides

variable {first second further : List String} {front rear : List Written}
  {before behind : Side} {name : CommandName}

/-- Behind the name global options count as if they had been taken after everything else. -/
theorem readBehind_spelled (spells : Spells second rear)
    (global : ∀ w ∈ rear, w.opt ∈ Opt.globals)
    (takes : rear.foldlM Side.take .empty = .ok behind) (free : FreeOfGlobals name further) :
    readBehind name .empty (second ++ further) =
      (readBehind name .empty further).map (·.adopt behind) := by
  obtain ⟨u, reads, settles⟩ := spells.reads global (.behind name) (s := .empty) rfl takes
  rw [reads, readBehind_of_settle settles]
  conv_lhs => rw [← Side.adopt_of_takes global takes]
  exact free.apart.adopt .empty behind (Side.holdsNoGlobal_of_none rfl)

theorem ofArguments_spelled (spellsFirst : Spells first front)
    (globalFirst : ∀ w ∈ front, w.opt ∈ Opt.globals)
    (takesFirst : front.foldlM Side.take .empty = .ok before) (spellsSecond : Spells second rear)
    (globalSecond : ∀ w ∈ rear, w.opt ∈ Opt.globals)
    (takesSecond : rear.foldlM Side.take .empty = .ok behind) (free : FreeOfGlobals name further)
    (environment : Environment) :
    Request.ofArguments environment (first ++ name.text :: (second ++ further)) =
      requestOf before behind name further environment := by
  obtain ⟨u, reads, settles⟩ := spellsFirst.reads globalFirst .before (s := .empty) rfl takesFirst
  have sameCommand (side : Side) : command name (side.adopt behind) = command name side := by
    cases name <;> rfl
  have sameConfiguration (side : Side) :
      configuration before (side.adopt behind) environment =
        configuration before behind environment := rfl
  rw [Request.ofArguments, reads, readBefore_name settles]
  show (readBehind name .empty (second ++ further) >>= fun side =>
      command name side >>= fun c => u.settle >>= fun before =>
        configuration before side environment >>= fun chosen => .ok (Request.mk chosen c)) = _
  rw [readBehind_spelled spellsSecond globalSecond takesSecond free, settles, requestOf]
  cases readBehind name .empty further with
  | error usage => rfl
  | ok side =>
      show (command name (side.adopt behind) >>= fun c =>
          configuration before (side.adopt behind) environment >>= fun chosen =>
            .ok (Request.mk chosen c)) = _
      rw [sameCommand, sameConfiguration]
      rfl

end Sides

/-- **What global options mean does not depend on where they stand.** -/
theorem Spread.ofArguments_eq {options : List Written} {before behind further : List String}
    {name : CommandName} (spread : Spread options before behind) (proper : Proper options)
    (free : FreeOfGlobals name further) :
    ∃ whole, options.foldlM Side.take .empty = .ok whole ∧ ∀ environment,
      Request.ofArguments environment (before ++ name.text :: (behind ++ further)) =
        requestOf .empty whole name further environment := by
  obtain ⟨spellsFront, spellsRear, perm, oneSide⟩ := spread
  have both := proper.of_perm perm.symm
  have properFront := both.of_append
  have properRear := (both.of_perm List.perm_append_comm).of_append
  obtain ⟨whole, takes, reflects⟩ := proper.exists_takes
  obtain ⟨first, takesFront, reflectsFront⟩ := properFront.exists_takes
  obtain ⟨second, takesRear, reflectsRear⟩ := properRear.exists_takes
  have merges := Merges.of_reflects reflectsFront reflectsRear reflects perm proper oneSide
  refine ⟨whole, takes, fun environment => ?_⟩
  rw [ofArguments_spelled spellsFront properFront.global takesFront spellsRear properRear.global
    takesRear free, requestOf, requestOf, merges.configuration_eq]

end Calculator.CommandLine
