/-
# Calculator.Proofs.CommandLine.Spelling -- arguments for options

`Spells arguments options` says that a list of arguments writes a list of options: by long
names, in groups of letters, with values behind an equals sign or in arguments of their own.
One list of options has many spellings, and both sides of the name of a command read each of
them as the options one after the other.

A value in an argument of its own is held before it is read.  So what a spelling leaves is a
side that becomes, when it settles, the one that has taken the options.

* `Word.reads`, `Spells.reads`: reading a spelling is taking the options.
-/
import Mathlib.Data.List.Basic
import Calculator.CommandLine.Request
import Calculator.Proofs.CommandLine.Argument
import Calculator.Proofs.CommandLine.Given

namespace Calculator.CommandLine

set_option autoImplicit false

/-! ## Spellings -/

/-- Arguments that belong together, and the options that they write. -/
inductive Word : List String → List Written → Prop
  | flag (f : Flag) : Word ["--" ++ (Opt.flag f).longName] [.flag f]
  | group {letters : List Char} {flags : List Flag} :
      letters ≠ [] →
      List.Forall₂ (fun letter f => (Opt.flag f).letter? = some letter) letters flags →
      Word [String.ofList ('-' :: letters)] (flags.map .flag)
  | attached (t : Setting) (text : String) :
      Word ["--" ++ (Opt.setting t).longName ++ "=" ++ text] [.setting t text]
  | detached (t : Setting) {text : String} :
      Detachable text → Word ["--" ++ (Opt.setting t).longName, text] [.setting t text]

/-- A list of arguments that writes a list of options. -/
inductive Spells : List String → List Written → Prop
  | nil : Spells [] []
  | cons {word arguments : List String} {options more : List Written} :
      Word word options → Spells arguments more →
      Spells (word ++ arguments) (options ++ more)

/-! ## Names and letters -/

namespace Opt

/-- A global option has its name at every place. -/
theorem ofLongName?_longName {o : Opt} (global : o ∈ globals) (place : Place) :
    ofLongName? place o.longName = some o := by
  revert o
  cases place with
  | before => decide
  | behind command => cases command <;> decide

/-- And its letter, if it has one. -/
theorem ofLetter?_letter {o : Opt} {letter : Char} (global : o ∈ globals)
    (lettered : o.letter? = some letter) (place : Place) : ofLetter? place letter = some o := by
  have found : ∀ o ∈ globals, (o.letter?.all (ofLetter? place · = some o)) = true := by
    cases place with
    | before => decide
    | behind command => cases command <;> decide
  simpa [lettered] using found o global

theorem mem_all (o : Opt) : o ∈ all := by
  cases o with
  | flag f => cases f <;> decide
  | setting t => cases t <;> decide

/-- What can be checked option by option. -/
theorem of_all {P : Opt → Prop} (each : ∀ o ∈ all, P o) (o : Opt) : P o := each o o.mem_all

theorem longName_ne_empty : ∀ o : Opt, o.longName ≠ "" := of_all (by decide)

theorem equals_notMem_longName : ∀ o : Opt, '=' ∉ o.longName.toList := of_all (by decide)

/-- No letter is a dash. -/
theorem letter?_ne_dash : ∀ o : Opt, o.letter? ≠ some '-' := of_all (by decide)

theorem longName_injective {o p : Opt} (same : o.longName = p.longName) : o = p := by
  have injective : ∀ o ∈ all, ∀ p ∈ all, o.longName = p.longName → o = p := by decide
  exact injective o o.mem_all p p.mem_all same

/-- What a name finds at a place stands there and has that name. -/
theorem ofLongName?_eq_some {place : Place} {name : String} {o : Opt}
    (found : ofLongName? place name = some o) : o.standsAt place = true ∧ o.longName = name := by
  have named := List.find?_some found
  simpa only [Bool.and_eq_true, beq_iff_eq] using named

theorem ofLetter?_eq_some {place : Place} {letter : Char} {o : Opt}
    (found : ofLetter? place letter = some o) :
    o.standsAt place = true ∧ o.letter? = some letter := by
  have named := List.find?_some found
  simpa only [Bool.and_eq_true, beq_iff_eq] using named

theorem ofText_longName (o : Opt) :
    Argument.ofText ("--" ++ o.longName) = .long o.longName none :=
  Argument.ofText_long o.longName_ne_empty o.equals_notMem_longName

end Opt

/-! ## Settling -/

namespace Side

theorem settle_of_held {s : Side} (nothing : s.held = none) : s.settle = .ok s := by
  rw [settle, nothing]

/-- A side that has settled holds nothing. -/
theorem held_of_settle {s settled : Side} (settles : s.settle = .ok settled) :
    settled.held = none := by
  unfold settle at settles
  split at settles
  · rename_i nothing
    cases settles
    exact nothing
  · cases settles
  · obtain ⟨-, v, -, rfl⟩ := assign_eq_ok_iff.mp settles
    rw [held_give]

section Settled

variable {s settled left : Side} (settles : s.settle = .ok settled)
include settles

/-- A side that waits for a value cannot settle. -/
theorem isWaiting_of_settle : s.isWaiting = false := by
  unfold settle at settles
  unfold isWaiting
  split at settles <;> simp_all

theorem settle_of_take {w : Written} (taken : settled.take w = .ok left) :
    left.settle = .ok left :=
  settle_of_held (by rw [held_of_take taken, held_of_settle settles])

/-- A flag is taken by the side that has settled. -/
theorem option_flag {f : Flag} (taken : settled.take (.flag f) = .ok left) :
    s.option (.flag f) none = .ok left :=
  bind_eq_ok_iff.mpr ⟨settled, settles, taken⟩

theorem option_attached {t : Setting} {text : String}
    (taken : settled.take (.setting t text) = .ok left) :
    s.option (.setting t) (some text) = .ok left :=
  bind_eq_ok_iff.mpr ⟨settled, settles, taken⟩

theorem option_detached (t : Setting) :
    s.option (.setting t) none = .ok { settled with held := some (t, none) } :=
  bind_eq_ok_iff.mpr ⟨settled, settles, rfl⟩

/-- A value that is held is taken by settling. -/
theorem settle_held {t : Setting} {text : String}
    (taken : settled.take (.setting t text) = .ok left) :
    ({ settled with held := some (t, some text) } : Side).settle = .ok left := by
  have same : ({ settled with held := none } : Side) = settled := by
    rw [← held_of_settle settles]
  show assign { settled with held := none } t text = .ok left
  rw [same]
  exact taken

end Settled

theorem longOption_longName {o : Opt} (global : o ∈ Opt.globals) (place : Place) (s : Side)
    (value : Option String) : s.longOption place o.longName value = s.option o value := by
  rw [longOption, Opt.ofLongName?_longName global]

/-- A long option that is read has a name. -/
theorem exists_option_of_longOption {place : Place} {s left : Side} {name : String}
    {value : Option String} (done : s.longOption place name value = .ok left) :
    ∃ o, Opt.ofLongName? place name = some o ∧ s.option o value = .ok left := by
  rw [longOption] at done
  cases found : Opt.ofLongName? place name with
  | none =>
      rw [found] at done
      cases done
  | some o =>
      rw [found] at done
      exact ⟨o, rfl, done⟩

/-- A letter that is read is a flag, with the other letters behind it, or a setting. -/
theorem exists_option_of_shortOptions {place : Place} {s left : Side} {letter : Char}
    {letters : List Char} (done : s.shortOptions place (letter :: letters) = .ok left) :
    (∃ f u, Opt.ofLetter? place letter = some (.flag f) ∧ s.option (.flag f) none = .ok u ∧
        u.shortOptions place letters = .ok left) ∨
      ∃ t, Opt.ofLetter? place letter = some (.setting t) ∧
        s.option (.setting t) (groupValue? letters) = .ok left := by
  rw [shortOptions] at done
  cases found : Opt.ofLetter? place letter with
  | none =>
      rw [found] at done
      cases done
  | some o =>
      rw [found] at done
      cases o with
      | flag f =>
          obtain ⟨u, first, others⟩ := bind_eq_ok_iff.mp done
          exact .inl ⟨f, u, rfl, first, others⟩
      | setting t => exact .inr ⟨t, rfl, done⟩

/-- An option is read by a side that can settle. -/
theorem exists_settle_of_option {s left : Side} {o : Opt} {value : Option String}
    (done : s.option o value = .ok left) : ∃ settled, s.settle = .ok settled := by
  cases o with
  | flag f =>
      cases value with
      | none => exact (bind_eq_ok_iff.mp done).imp fun _ both => both.1
      | some text => cases done
  | setting t => cases value <;> exact (bind_eq_ok_iff.mp done).imp fun _ both => both.1

/-- A group of flags is taken from the left. -/
theorem shortOptions_flags (place : Place) {letters : List Char} {flags : List Flag}
    (lettered : List.Forall₂ (fun letter f => (Opt.flag f).letter? = some letter) letters flags)
    (global : ∀ f ∈ flags, Opt.flag f ∈ Opt.globals) {s settled left : Side}
    (settles : s.settle = .ok settled)
    (takes : (flags.map Written.flag).foldlM take settled = .ok left) :
    ∃ u, s.shortOptions place letters = .ok u ∧ u.settle = .ok left := by
  induction lettered generalizing s settled with
  | nil =>
      cases takes
      exact ⟨s, rfl, settles⟩
  | @cons letter f letters flags lettered _ ih =>
      rw [List.map_cons, List.foldlM_cons] at takes
      obtain ⟨next, taken, takes⟩ := bind_eq_ok_iff.mp takes
      have found := Opt.ofLetter?_letter (global f List.mem_cons_self) lettered place
      obtain ⟨u, reads, settlesLeft⟩ :=
        ih (fun g member => global g (List.mem_cons_of_mem _ member))
          (settle_of_take settles taken) takes
      refine ⟨u, ?_, settlesLeft⟩
      rw [shortOptions, found]
      exact bind_eq_ok_iff.mpr ⟨next, option_flag settles taken, reads⟩

end Side

/-! ## Reading on one side -/

section Steps

variable {argument : String} (rest : List String) (s : Side)

theorem readBefore_plain {text : String} (plain : Argument.ofText argument = .plain text) :
    readBefore s (argument :: rest) =
      if s.isWaiting then readBefore (s.holdValue text) rest
      else if text = "help" then .error (helpTopic rest)
      else (CommandName.ofText? text).elim (.error .error) fun name => .ok (s, name, rest) := by
  rw [readBefore, plain]
  dsimp only
  cases CommandName.ofText? text <;> rfl

theorem readBefore_endOfOptions (dashes : Argument.ofText argument = .endOfOptions) :
    readBefore s (argument :: rest) = .error .error := by
  rw [readBefore, dashes]
  rfl

theorem readBefore_long {name : String} {value : Option String}
    (long : Argument.ofText argument = .long name value) :
    readBefore s (argument :: rest) =
      s.longOption .before name value >>= fun u => readBefore u rest := by
  rw [readBefore, long]

theorem readBefore_short {letters : List Char}
    (short : Argument.ofText argument = .short letters) :
    readBefore s (argument :: rest) =
      s.shortOptions .before letters >>= fun u => readBefore u rest := by
  rw [readBefore, short]

variable (command : CommandName)

theorem readBehind_plain {text : String} (plain : Argument.ofText argument = .plain text) :
    readBehind command s (argument :: rest) =
      if s.isWaiting then readBehind command (s.holdValue text) rest
      else s.script command text >>= fun u => readBehind command u rest := by
  rw [readBehind, plain]

theorem readBehind_endOfOptions (dashes : Argument.ofText argument = .endOfOptions) :
    readBehind command s (argument :: rest) =
      rest.foldlM (Side.script command) s >>= Side.settle := by
  rw [readBehind, dashes]

theorem readBehind_long {name : String} {value : Option String}
    (long : Argument.ofText argument = .long name value) :
    readBehind command s (argument :: rest) =
      s.longOption (.behind command) name value >>= fun u => readBehind command u rest := by
  rw [readBehind, long]

theorem readBehind_short {letters : List Char}
    (short : Argument.ofText argument = .short letters) :
    readBehind command s (argument :: rest) =
      s.shortOptions (.behind command) letters >>= fun u => readBehind command u rest := by
  rw [readBehind, short]

end Steps

/-- One side goes on, behind some arguments, as another side does, whatever follows. -/
def Reads : Place → Side → List String → Side → Prop
  | .before, s, arguments, u =>
      ∀ rest, readBefore s (arguments ++ rest) = readBefore u rest
  | .behind command, s, arguments, u =>
      ∀ rest, readBehind command s (arguments ++ rest) = readBehind command u rest

namespace Reads

variable {place : Place} {s t u : Side}

theorem refl (place : Place) (s : Side) : Reads place s [] s := by
  cases place <;> exact fun _ => rfl

theorem trans {first second : List String} (reads : Reads place s first t)
    (goesOn : Reads place t second u) : Reads place s (first ++ second) u := by
  cases place with
  | before =>
      intro rest
      rw [List.append_assoc, reads, goesOn]
  | behind command =>
      intro rest
      rw [List.append_assoc, reads, goesOn]

theorem long {argument name : String} {value : Option String}
    (long : Argument.ofText argument = .long name value)
    (done : s.longOption place name value = .ok u) : Reads place s [argument] u := by
  cases place with
  | before =>
      intro rest
      rw [List.singleton_append, readBefore_long rest s long, done]
      rfl
  | behind command =>
      intro rest
      rw [List.singleton_append, readBehind_long rest s command long, done]
      rfl

theorem short {argument : String} {letters : List Char}
    (short : Argument.ofText argument = .short letters)
    (done : s.shortOptions place letters = .ok u) : Reads place s [argument] u := by
  cases place with
  | before =>
      intro rest
      rw [List.singleton_append, readBefore_short rest s short, done]
      rfl
  | behind command =>
      intro rest
      rw [List.singleton_append, readBehind_short rest s command short, done]
      rfl

/-- An argument that may be a value is one for the setting that waits. -/
theorem value {t : Setting} {text : String} (waiting : s.held = some (t, none))
    (detachable : Detachable text) :
    Reads place s [text] { s with held := some (t, some text) } := by
  have plain := Argument.ofText_plain detachable
  have waits : s.isWaiting = true := by rw [Side.isWaiting, waiting]
  have holds : s.holdValue text = { s with held := some (t, some text) } := by
    rw [Side.holdValue, waiting]
  cases place with
  | before =>
      intro rest
      rw [List.singleton_append, readBefore_plain rest s plain, if_pos waits, holds]
  | behind command =>
      intro rest
      rw [List.singleton_append, readBehind_plain rest s command plain, if_pos waits, holds]

end Reads

/-- Reading a word is taking its options. -/
theorem Word.reads {word : List String} {options : List Written} (written : Word word options)
    (global : ∀ w ∈ options, w.opt ∈ Opt.globals) (place : Place) {s settled left : Side}
    (settles : s.settle = .ok settled) (takes : options.foldlM Side.take settled = .ok left) :
    ∃ u, Reads place s word u ∧ u.settle = .ok left := by
  cases written with
  | flag f =>
      have taken : settled.take (.flag f) = .ok left := by simpa using takes
      have done := Side.longOption_longName (global _ List.mem_cons_self) place s none
      rw [Written.opt, Side.option_flag settles taken] at done
      exact ⟨left, .long (Opt.ofText_longName _) done, Side.settle_of_take settles taken⟩
  | @group letters flags present lettered =>
      obtain ⟨u, done, settlesLeft⟩ := Side.shortOptions_flags place lettered
        (fun f member => global _ (List.mem_map_of_mem member)) settles takes
      refine ⟨u, .short ?_ done, settlesLeft⟩
      obtain ⟨letter, others, rfl⟩ := List.exists_cons_of_ne_nil present
      cases lettered with
      | cons first _ =>
          refine Argument.ofText_short ?_
          rintro rfl
          exact Opt.letter?_ne_dash _ first
  | attached t text =>
      have taken : settled.take (.setting t text) = .ok left := by simpa using takes
      have done := Side.longOption_longName (global _ List.mem_cons_self) place s (some text)
      rw [Written.opt, Side.option_attached settles taken] at done
      exact ⟨left, .long (Argument.ofText_longValue (Opt.equals_notMem_longName _) text) done,
        Side.settle_of_take settles taken⟩
  | @detached t text detachable =>
      have taken : settled.take (.setting t text) = .ok left := by simpa using takes
      have done := Side.longOption_longName (global _ List.mem_cons_self) place s none
      rw [Written.opt, Side.option_detached settles t] at done
      have waits : Reads place s ["--" ++ (Opt.setting t).longName] _ :=
        .long (Opt.ofText_longName _) done
      exact ⟨_, waits.trans (.value rfl detachable), Side.settle_held settles taken⟩

/-- **Every spelling of global options is read as the options one after the other.** -/
theorem Spells.reads {arguments : List String} {options : List Written}
    (spells : Spells arguments options) (global : ∀ w ∈ options, w.opt ∈ Opt.globals)
    (place : Place) {s settled left : Side} (settles : s.settle = .ok settled)
    (takes : options.foldlM Side.take settled = .ok left) :
    ∃ u, Reads place s arguments u ∧ u.settle = .ok left := by
  induction spells generalizing s settled with
  | nil =>
      cases takes
      exact ⟨s, .refl place s, settles⟩
  | cons word _ ih =>
      rw [List.foldlM_append] at takes
      obtain ⟨next, taken, takes⟩ := bind_eq_ok_iff.mp takes
      obtain ⟨t, first, settlesNext⟩ :=
        word.reads (fun w member => global w (List.mem_append_left _ member)) place settles taken
      obtain ⟨u, others, settlesLeft⟩ :=
        ih (fun w member => global w (List.mem_append_right _ member)) settlesNext takes
      exact ⟨u, first.trans others, settlesLeft⟩

end Calculator.CommandLine
