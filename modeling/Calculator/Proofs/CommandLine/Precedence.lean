/-
# Calculator.Proofs.CommandLine.Precedence -- the value of a setting

What a list of arguments gives a global setting can be read off it from the left (`written?`):
the text behind the setting's name, up to the two dashes.  A side that reads the arguments
carries that text along, first as an argument to come, then held, then read (`Side.due`).

* `written?`: the text for a setting;
* `due_of_readBehind`: the value that the side behind the name has in the end.
-/
import Mathlib.Data.List.Basic
import Calculator.Proofs.CommandLine.Spelling

namespace Calculator.CommandLine

set_option autoImplicit false

/-- The text that arguments give a setting: what stands behind its name, in the same argument
or in the next.  Nothing behind two dashes is an option. -/
def written? (t : Setting) : List String → Option String
  | [] => none
  | argument :: rest =>
    match Argument.ofText argument with
    | .endOfOptions => none
    | .long name value =>
        if name = (Opt.setting t).longName then value <|> rest.head? else written? t rest
    | _ => written? t rest

section Written

variable (t : Setting) {argument : String} (rest : List String)

theorem written?_long {name : String} {value : Option String}
    (long : Argument.ofText argument = .long name value) :
    written? t (argument :: rest) =
      if name = (Opt.setting t).longName then value <|> rest.head? else written? t rest := by
  rw [written?, long]

theorem written?_plain {text : String} (plain : Argument.ofText argument = .plain text) :
    written? t (argument :: rest) = written? t rest := by
  rw [written?, plain]

theorem written?_short {letters : List Char}
    (short : Argument.ofText argument = .short letters) :
    written? t (argument :: rest) = written? t rest := by
  rw [written?, short]

theorem written?_endOfOptions (dashes : Argument.ofText argument = .endOfOptions) :
    written? t (argument :: rest) = none := by
  rw [written?, dashes]

end Written

namespace Side

/-- The text that a setting is about to get: the one that is held for it, or the next argument
if it waits for one. -/
def awaited? (s : Side) (t : Setting) (next : Option String) : Option String :=
  match s.held with
  | some (u, text) => if u = t then text <|> next else none
  | none => none

/-- What a side will have been given for a setting when it has read some arguments. -/
def due (s : Side) (t : Setting) (arguments : List String) : Option (Option t.Value) :=
  (s.given t).map some <|>
    (s.awaited? t arguments.head? <|> written? t arguments).map t.read

variable {s settled left : Side} {t : Setting}

theorem due_of_held (nothing : s.held = none) (arguments : List String) :
    s.due t arguments = ((s.given t).map some <|> (written? t arguments).map t.read) := by
  simp [due, awaited?, nothing]

theorem due_empty (t : Setting) (arguments : List String) :
    empty.due t arguments = (written? t arguments).map t.read := by
  rw [due_of_held rfl]
  cases t <;> exact Option.none_or

theorem given_release (s : Side) (t : Setting) :
    ({ s with held := none } : Side).given t = s.given t := by
  cases t <;> rfl

/-- Settling only moves what is due. -/
theorem due_of_settle (settles : s.settle = .ok settled) (arguments : List String) :
    s.due t arguments = settled.due t arguments := by
  have released := held_of_settle settles
  rw [due_of_held released]
  cases held : s.held with
  | none =>
      rw [settle_of_held held] at settles
      cases settles
      exact due_of_held held arguments
  | some waiting =>
      obtain ⟨u, value⟩ := waiting
      cases value with
      | none => simp [settle, held] at settles
      | some text =>
          simp only [settle, held] at settles
          obtain ⟨new, v, read, rfl⟩ := assign_eq_ok_iff.mp settles
          by_cases same : u = t
          · subst same
            rw [given_release] at new
            simp [due, awaited?, held, new, given_give, read]
          · have other : t ≠ u := fun equal => same equal.symm
            simp [due, awaited?, held, same, given_give_of_ne _ _ _ other, given_release]

/-- What is due when nothing follows is what is given. -/
theorem due_nil (settles : s.settle = .ok settled) :
    s.due t [] = (settled.given t).map some := by
  rw [due_of_settle settles, due_of_held (held_of_settle settles)]
  simp [written?]

/-- What is due depends on the text that is written. -/
theorem due_congr (settles : s.settle = .ok settled) {arguments others : List String}
    (same : written? t arguments = written? t others) : s.due t arguments = s.due t others := by
  have released := held_of_settle settles
  rw [due_of_settle settles, due_of_settle settles, due_of_held released, due_of_held released,
    same]

/-! ## One argument -/

/-- An option leaves its value due, and nothing else. -/
theorem due_of_option {o : Opt} {value : Option String} (done : s.option o value = .ok left)
    (rest : List String) :
    ∃ settled, s.settle = .ok settled ∧ left.due t rest =
      ((settled.given t).map some <|>
        (if o = .setting t then value <|> rest.head? else written? t rest).map t.read) := by
  cases o with
  | flag f =>
      cases value with
      | some text => cases done
      | none =>
          obtain ⟨settled, settles, raised⟩ := bind_eq_ok_iff.mp done
          have released := held_of_settle (settle_of_take settles (w := .flag f) raised)
          obtain ⟨-, -, rfl⟩ := setFlag_eq_ok_iff.mp raised
          exact ⟨settled, settles, by rw [due_of_held released, given_put, if_neg (by simp)]⟩
  | setting u =>
      cases value with
      | some text =>
          obtain ⟨settled, settles, assigned⟩ := bind_eq_ok_iff.mp done
          have released := held_of_settle (settle_of_take settles (w := .setting u text) assigned)
          obtain ⟨new, v, read, rfl⟩ := assign_eq_ok_iff.mp assigned
          refine ⟨settled, settles, ?_⟩
          rw [due_of_held released]
          by_cases same : u = t
          · subst same
            simp [new, given_give, read]
          · have other : t ≠ u := fun equal => same equal.symm
            simp [same, given_give_of_ne _ _ _ other]
      | none =>
          obtain ⟨settled, settles, waits⟩ := bind_eq_ok_iff.mp done
          cases waits
          refine ⟨settled, settles, ?_⟩
          have kept : ({ settled with held := some (u, none) } : Side).given t = settled.given t := by
            cases t <;> rfl
          rw [due, kept]
          by_cases same : u = t
          · -- the value is the next argument, and there is nothing without one
            cases rest <;> simp [awaited?, same, written?]
          · simp [awaited?, same]

theorem exists_settle_of_shortOptions {place : Place} {argument : String} {letters : List Char}
    (short : Argument.ofText argument = .short letters)
    (done : s.shortOptions place letters = .ok left) : ∃ settled, s.settle = .ok settled := by
  obtain ⟨letter, others, rfl⟩ := List.exists_cons_of_ne_nil (Argument.ne_nil_of_short short)
  rcases exists_option_of_shortOptions done with ⟨f, u, -, first, -⟩ | ⟨t, -, first⟩
  · exact exists_settle_of_option first
  · exact exists_settle_of_option first

theorem due_of_longOption {place : Place} {argument name : String} {value : Option String}
    (long : Argument.ofText argument = .long name value)
    (done : s.longOption place name value = .ok left) (rest : List String) :
    s.due t (argument :: rest) = left.due t rest := by
  obtain ⟨o, found, done⟩ := exists_option_of_longOption done
  obtain ⟨settled, settles, due⟩ := due_of_option (t := t) done rest
  have same : name = (Opt.setting t).longName ↔ o = .setting t := by
    rw [← (Opt.ofLongName?_eq_some found).2]
    exact ⟨fun same => Opt.longName_injective same, congrArg _⟩
  rw [due, due_of_settle settles, due_of_held (held_of_settle settles), written?_long t rest long]
  simp only [same]

/-- A setting without a letter is not given in a group. -/
theorem due_of_shortOptions {place : Place} {letters : List Char}
    (unlettered : (Opt.setting t).letter? = none)
    (done : s.shortOptions place letters = .ok left) (rest : List String) :
    s.due t rest = left.due t rest := by
  have step {s u : Side} {o : Opt} {value : Option String} (done : s.option o value = .ok u)
      (other : o ≠ .setting t) : s.due t rest = u.due t rest := by
    obtain ⟨settled, settles, due⟩ := due_of_option (t := t) done rest
    rw [due, if_neg other, due_of_settle settles, due_of_held (held_of_settle settles)]
  induction letters generalizing s with
  | nil =>
      cases done
      rfl
  | cons letter letters ih =>
      rcases exists_option_of_shortOptions done with ⟨f, u, -, first, others⟩ | ⟨v, found, last⟩
      · rw [step first (by simp), ih others]
      · refine step last ?_
        intro same
        rw [← same, (Opt.ofLetter?_eq_some found).2] at unlettered
        cases unlettered

theorem due_of_script {command : CommandName} {text : String}
    (done : s.script command text = .ok left) (arguments : List String) :
    s.due t arguments = left.due t arguments := by
  obtain ⟨settled, settles, added⟩ := bind_eq_ok_iff.mp done
  rw [due_of_settle settles]
  split at added
  · cases added
    cases t <;> rfl
  · cases added

theorem due_of_scripts {command : CommandName} {texts : List String}
    (done : texts.foldlM (script command) s = .ok left) (arguments : List String) :
    s.due t arguments = left.due t arguments := by
  induction texts generalizing s with
  | nil => cases done; rfl
  | cons text texts ih =>
      rw [List.foldlM_cons] at done
      obtain ⟨u, first, others⟩ := bind_eq_ok_iff.mp done
      rw [due_of_script first, ih others]

/-- The next argument is what is awaited. -/
theorem due_of_holdValue {argument : String} (waits : s.isWaiting = true)
    (plain : Argument.ofText argument = .plain argument) (rest : List String) :
    s.due t (argument :: rest) = (s.holdValue argument).due t rest := by
  cases held : s.held with
  | none => simp [isWaiting, held] at waits
  | some waiting =>
      obtain ⟨u, value⟩ := waiting
      cases value with
      | some text => simp [isWaiting, held] at waits
      | none =>
          have kept : (s.holdValue argument).given t = s.given t := by
            rw [holdValue, held]
            cases t <;> rfl
          have holds : (s.holdValue argument).held = some (u, some argument) := by
            rw [holdValue, held]
          by_cases same : u = t <;>
            simp [due, awaited?, held, kept, holds, same, written?_plain t rest plain]

/-- What settles had settled before its scripts were added. -/
theorem exists_settle_of_scripts {command : CommandName} {texts : List String}
    (done : texts.foldlM (script command) s = .ok left) (settles : left.settle = .ok settled) :
    ∃ earlier, s.settle = .ok earlier := by
  cases texts with
  | nil =>
      cases done
      exact ⟨settled, settles⟩
  | cons text texts =>
      rw [List.foldlM_cons] at done
      obtain ⟨u, first, -⟩ := bind_eq_ok_iff.mp done
      obtain ⟨earlier, settles, -⟩ := bind_eq_ok_iff.mp first
      exact ⟨earlier, settles⟩

end Side

/-- **The side behind the name of a command has for a global setting what its arguments
give.** -/
theorem due_of_readBehind {command : CommandName} {t : Setting}
    (unlettered : (Opt.setting t).letter? = none) {s left : Side} {arguments : List String}
    (reads : readBehind command s arguments = .ok left) :
    s.due t arguments = (left.given t).map some := by
  induction arguments generalizing s with
  | nil => exact Side.due_nil reads
  | cons argument rest ih =>
      cases kind : Argument.ofText argument with
      | plain text =>
          obtain rfl := Argument.eq_of_plain kind
          rw [readBehind_plain rest s command kind] at reads
          split at reads
          · rename_i waits
            rw [Side.due_of_holdValue waits kind, ih reads]
          · obtain ⟨u, added, reads⟩ := bind_eq_ok_iff.mp reads
            obtain ⟨settled, settles, -⟩ := bind_eq_ok_iff.mp added
            rw [Side.due_congr settles (written?_plain t rest kind), Side.due_of_script added,
              ih reads]
      | endOfOptions =>
          rw [readBehind_endOfOptions rest s command kind] at reads
          obtain ⟨u, added, settles⟩ := bind_eq_ok_iff.mp reads
          obtain ⟨settled, settlesFirst⟩ := Side.exists_settle_of_scripts added settles
          have nothing : written? t (argument :: rest) = written? t [] :=
            written?_endOfOptions t rest kind
          rw [Side.due_congr settlesFirst nothing, Side.due_of_scripts added,
            Side.due_nil settles]
      | long name value =>
          rw [readBehind_long rest s command kind] at reads
          obtain ⟨u, done, reads⟩ := bind_eq_ok_iff.mp reads
          rw [Side.due_of_longOption kind done, ih reads]
      | short letters =>
          rw [readBehind_short rest s command kind] at reads
          obtain ⟨u, done, reads⟩ := bind_eq_ok_iff.mp reads
          obtain ⟨settled, settles⟩ := Side.exists_settle_of_shortOptions kind done
          rw [Side.due_congr settles (written?_short t rest kind),
            Side.due_of_shortOptions unlettered done, ih reads]

end Calculator.CommandLine
