/-
# Calculator.Proofs.CommandLine.Front -- what stands in front of a command

A command line that has a command starts with a spelling of global options and goes on with the
name of the command (`exists_front`).  So what is in front of the name is determined by the
grammar, and each of its options by its argument.
-/
import Mathlib.Data.List.Basic
import Calculator.Proofs.CommandLine.Precedence

namespace Calculator.CommandLine

set_option autoImplicit false

/-- How a side can go on in front of a command: with options, behind the value that it waits
for. -/
def GoesOn (s : Side) (front : List String) (options : List Written) : Prop :=
  if s.isWaiting then
    ∃ text others, front = text :: others ∧ Detachable text ∧ Spells others options
  else Spells front options

theorem CommandName.text_of_ofText? {text : String} {name : CommandName}
    (found : ofText? text = some name) : name.text = text := by
  simpa using List.find?_some found

namespace Opt

/-- In front of a command the options are global, but for help and the version. -/
theorem global_of_standsAt {o : Opt} (stands : o.standsAt .before = true) :
    o ∈ globals ∨ o = .flag .help ∨ o = .flag .version := by
  have each : ∀ o ∈ all, o.standsAt .before = true →
      o ∈ globals ∨ o = .flag .help ∨ o = .flag .version := by decide
  exact each o o.mem_all stands

theorem global_flag {f : Flag} (stands : (Opt.flag f).standsAt .before = true)
    (tells : f.Tells) : Opt.flag f ∈ globals := by
  rcases global_of_standsAt stands with global | help | version
  · exact global
  · exact absurd (Opt.flag.inj help) tells.1
  · exact absurd (Opt.flag.inj version) tells.2

theorem global_setting {t : Setting} (stands : (Opt.setting t).standsAt .before = true) :
    Opt.setting t ∈ globals := by
  rcases global_of_standsAt stands with global | help | version
  · exact global
  · cases help
  · cases version

/-- No global setting has a letter. -/
theorem letter?_setting {t : Setting} (global : Opt.setting t ∈ globals) :
    (Opt.setting t).letter? = none := by
  revert global
  cases t <;> decide

end Opt

/-! ## One argument -/

variable {s u : Side} {argument : String} {front : List String} {options : List Written}

/-- A flag that is read leaves nothing to wait for. -/
theorem Side.tells_of_option {f : Flag} {value : Option String}
    (done : s.option (.flag f) value = .ok u) :
    value = none ∧ f.Tells ∧ u.isWaiting = false := by
  cases value with
  | some text => cases done
  | none =>
      obtain ⟨settled, settles, raised⟩ := bind_eq_ok_iff.mp done
      have again := settle_of_take settles (w := .flag f) raised
      exact ⟨rfl, (setFlag_eq_ok_iff.mp raised).1, isWaiting_of_settle again⟩

/-- A group in front of a command is a group of global flags. -/
theorem Side.flags_of_shortOptions {letters : List Char}
    (done : s.shortOptions .before letters = .ok u) :
    ∃ flags, List.Forall₂ (fun letter f => (Opt.flag f).letter? = some letter) letters flags ∧
      (∀ f ∈ flags, Opt.flag f ∈ Opt.globals) ∧ (letters ≠ [] → u.isWaiting = false) := by
  induction letters generalizing s with
  | nil => exact ⟨[], .nil, by simp, absurd rfl⟩
  | cons letter letters ih =>
      rcases exists_option_of_shortOptions done with ⟨f, v, found, first, others⟩ | ⟨t, found, -⟩
      · obtain ⟨stands, lettered⟩ := Opt.ofLetter?_eq_some found
        obtain ⟨-, tells, free⟩ := tells_of_option first
        obtain ⟨flags, spelled, global, last⟩ := ih others
        refine ⟨f :: flags, .cons lettered spelled, ?_, fun _ => ?_⟩
        · exact List.forall_mem_cons.mpr ⟨Opt.global_flag stands tells, global⟩
        · cases letters with
          | nil =>
              cases others
              exact free
          | cons next more => exact last (List.cons_ne_nil _ _)
      · obtain ⟨stands, lettered⟩ := Opt.ofLetter?_eq_some found
        rw [Opt.letter?_setting (Opt.global_setting stands)] at lettered
        cases lettered

namespace GoesOn

theorem value (waits : s.isWaiting = true) (detachable : Detachable argument)
    (goesOn : GoesOn (s.holdValue argument) front options) :
    GoesOn s (argument :: front) options := by
  have released : (s.holdValue argument).isWaiting = false := by
    cases held : s.held with
    | none => simp [Side.isWaiting, held] at waits
    | some waiting => simp [Side.isWaiting, Side.holdValue, held]
  rw [GoesOn, if_neg (by simp [released])] at goesOn
  rw [GoesOn, if_pos waits]
  exact ⟨argument, front, rfl, detachable, goesOn⟩

/-- An argument that spells options, in front of a side that does not wait. -/
theorem word {settled : Side} {more : List Written} (settles : s.settle = .ok settled)
    (free : u.isWaiting = false) (spells : Word [argument] more)
    (goesOn : GoesOn u front options) : GoesOn s (argument :: front) (more ++ options) := by
  rw [GoesOn, if_neg (by simp [free])] at goesOn
  rw [GoesOn, if_neg (by simp [Side.isWaiting_of_settle settles])]
  exact .cons spells goesOn

theorem long {name : String} {value : Option String}
    (long : Argument.ofText argument = .long name value)
    (done : s.longOption .before name value = .ok u) (goesOn : GoesOn u front options) :
    ∃ more, (∀ w ∈ more, w.opt ∈ Opt.globals) ∧
      GoesOn s (argument :: front) (more ++ options) := by
  have text := Argument.text_ofText argument
  obtain ⟨o, found, taken⟩ := Side.exists_option_of_longOption done
  obtain ⟨stands, rfl⟩ := Opt.ofLongName?_eq_some found
  rw [long] at text
  cases o with
  | flag f =>
      obtain ⟨settled, settles⟩ := Side.exists_settle_of_option taken
      obtain ⟨rfl, tells, free⟩ := Side.tells_of_option taken
      refine ⟨[.flag f], by simpa [Written.opt] using Opt.global_flag stands tells, ?_⟩
      refine goesOn.word settles free ?_
      rw [← text]
      exact .flag f
  | setting t =>
      have global := Opt.global_setting stands
      cases value with
      | some given =>
          obtain ⟨settled, settles, assigned⟩ := bind_eq_ok_iff.mp taken
          have again := Side.settle_of_take settles (w := .setting t given) assigned
          refine ⟨[.setting t given], by simpa [Written.opt] using global, ?_⟩
          refine goesOn.word settles (Side.isWaiting_of_settle again) ?_
          rw [← text]
          exact .attached t given
      | none =>
          -- the value is the next argument
          obtain ⟨settled, settles, waits⟩ := bind_eq_ok_iff.mp taken
          cases waits
          obtain ⟨given, others, rfl, detachable, spells⟩ := goesOn
          refine ⟨[.setting t given], by simpa [Written.opt] using global, ?_⟩
          rw [GoesOn, if_neg (by simp [Side.isWaiting_of_settle settles]), ← text]
          exact .cons (.detached t detachable) spells

theorem short {letters : List Char} (short : Argument.ofText argument = .short letters)
    (done : s.shortOptions .before letters = .ok u) (goesOn : GoesOn u front options) :
    ∃ more, (∀ w ∈ more, w.opt ∈ Opt.globals) ∧
      GoesOn s (argument :: front) (more ++ options) := by
  obtain ⟨settled, settles⟩ := Side.exists_settle_of_shortOptions short done
  obtain ⟨flags, spelled, global, free⟩ := Side.flags_of_shortOptions done
  have present := Argument.ne_nil_of_short short
  refine ⟨flags.map .flag, by simpa [Written.opt] using global, ?_⟩
  refine goesOn.word settles (free present) ?_
  rw [← Argument.text_ofText argument, short]
  exact .group present spelled

end GoesOn

/-- **A command line with a command starts with a spelling of global options and goes on with
the command's name.** -/
theorem exists_front {name : CommandName} {rest arguments : List String}
    (reads : readBefore s arguments = .ok (u, name, rest)) :
    ∃ front options, arguments = front ++ name.text :: rest ∧ GoesOn s front options ∧
      (∀ w ∈ options, w.opt ∈ Opt.globals) ∧
      ∀ t, Opt.setting t ∈ Opt.globals → s.due t front = u.due t [] := by
  induction arguments generalizing s with
  | nil => cases reads
  | cons argument others ih =>
      cases kind : Argument.ofText argument with
      | plain text =>
          obtain rfl := Argument.eq_of_plain kind
          rw [readBefore_plain others s kind] at reads
          split at reads
          · rename_i waits
            obtain ⟨front, options, rfl, goesOn, global, due⟩ := ih reads
            refine ⟨argument :: front, options, rfl,
              goesOn.value waits (Argument.detachable_of_plain kind), global, fun t here => ?_⟩
            rw [Side.due_of_holdValue waits kind, due t here]
          · rename_i notWaiting
            split at reads
            · cases reads
            · cases found : CommandName.ofText? argument with
              | none => rw [found] at reads; cases reads
              | some command =>
                  rw [found] at reads
                  cases reads
                  refine ⟨[], [], ?_, ?_, by simp, fun _ _ => rfl⟩
                  · rw [List.nil_append, CommandName.text_of_ofText? found]
                  · rw [GoesOn, if_neg notWaiting]
                    exact .nil
      | endOfOptions => rw [readBefore_endOfOptions others s kind] at reads; cases reads
      | long long value =>
          rw [readBefore_long others s kind] at reads
          obtain ⟨v, done, reads⟩ := bind_eq_ok_iff.mp reads
          obtain ⟨front, options, rfl, goesOn, global, due⟩ := ih reads
          obtain ⟨more, globalMore, goesOn⟩ := goesOn.long kind done
          refine ⟨argument :: front, more ++ options, rfl, goesOn,
            List.forall_mem_append.mpr ⟨globalMore, global⟩, fun t here => ?_⟩
          rw [Side.due_of_longOption kind done, due t here]
      | short letters =>
          rw [readBefore_short others s kind] at reads
          obtain ⟨v, done, reads⟩ := bind_eq_ok_iff.mp reads
          obtain ⟨front, options, rfl, goesOn, global, due⟩ := ih reads
          obtain ⟨more, globalMore, goesOn⟩ := goesOn.short kind done
          obtain ⟨settled, settles⟩ := Side.exists_settle_of_shortOptions kind done
          refine ⟨argument :: front, more ++ options, rfl, goesOn,
            List.forall_mem_append.mpr ⟨globalMore, global⟩, fun t here => ?_⟩
          rw [Side.due_congr settles (written?_short t front kind),
            Side.due_of_shortOptions (Opt.letter?_setting here) done, due t here]

end Calculator.CommandLine
