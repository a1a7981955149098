/-
# Calculator.Proofs.CommandLine.Further -- what follows the global options

Arguments behind the name of a command that have no global option before the two dashes
neither see the global options that stand in front of them nor change them.  So the side that
reads them can be given the global options afterwards (`Side.adopt`).

* `Apart`: a step that can be made on either side of `adopt`;
* `FreeOfGlobals.apart`: reading such arguments is one.
-/
import Mathlib.Data.List.Basic
import Calculator.Proofs.CommandLine.Spelling

namespace Calculator.CommandLine

set_option autoImplicit false

/-! ## The options in an argument -/

/-- The options of a group of letters, up to a setting that takes the rest as its value and
up to a letter that is none. -/
def Opt.ofLetters (place : Place) : List Char → List Opt
  | [] => []
  | letter :: letters =>
    match Opt.ofLetter? place letter with
    | some (.flag f) => .flag f :: ofLetters place letters
    | some (.setting t) => [.setting t]
    | none => []

/-- The options that an argument names. -/
def Argument.options (place : Place) : Argument → List Opt
  | .long name _ => (Opt.ofLongName? place name).toList
  | .short letters => Opt.ofLetters place letters
  | .plain _ => []
  | .endOfOptions => []

/-- No argument before the two dashes names a global option. -/
def FreeOfGlobals (command : CommandName) (arguments : List String) : Prop :=
  ∀ argument ∈ arguments.takeWhile (· != "--"),
    ∀ o ∈ (Argument.ofText argument).options (.behind command), o ∉ Opt.globals

instance (command : CommandName) (arguments : List String) :
    Decidable (FreeOfGlobals command arguments) :=
  inferInstanceAs (Decidable (∀ argument ∈ arguments.takeWhile (· != "--"),
    ∀ o ∈ (Argument.ofText argument).options (.behind command), o ∉ Opt.globals))

/-! ## Steps apart from the global options -/

namespace Side

/-- The side with the global options of another side. -/
def adopt (s g : Side) : Side :=
  { s with
    verbose := g.verbose
    quiet := g.quiet
    logJson := g.logJson
    color := g.color
    historyCapacity := g.historyCapacity
    zeroTolerance := g.zeroTolerance
    errorIndicator := g.errorIndicator }

/-- No global option is held. -/
def HoldsNoGlobal (s : Side) : Prop :=
  ∀ t value, s.held = some (t, value) → Opt.setting t ∉ Opt.globals

theorem HoldsNoGlobal.of_held {s u : Side} (holds : s.HoldsNoGlobal) (same : u.held = s.held) :
    u.HoldsNoGlobal := by
  intro t value held
  exact holds t value (same ▸ held)

theorem holdsNoGlobal_of_none {s : Side} (nothing : s.held = none) : s.HoldsNoGlobal := by
  intro t value held
  rw [nothing] at held
  cases held

theorem adopt_put_of_global (s : Side) {f : Flag} (global : Opt.flag f ∈ Opt.globals) :
    s.adopt (s.put f) = s.put f := by
  cases f <;> first | rfl | exact absurd global (by decide)

theorem adopt_give_of_global (s : Side) {t : Setting} (v : t.Value)
    (global : Opt.setting t ∈ Opt.globals) : s.adopt (s.give t v) = s.give t v := by
  cases t <;> first | rfl | exact absurd global (by decide)

/-- Taking a global option changes nothing but the global options. -/
theorem adopt_of_take {s left : Side} {w : Written} (global : w.opt ∈ Opt.globals)
    (taken : s.take w = .ok left) : s.adopt left = left := by
  cases w with
  | flag f =>
      obtain ⟨-, -, rfl⟩ := setFlag_eq_ok_iff.mp taken
      exact s.adopt_put_of_global global
  | setting t text =>
      obtain ⟨-, v, -, rfl⟩ := assign_eq_ok_iff.mp taken
      exact s.adopt_give_of_global v global

theorem adopt_of_takes {s left : Side} {options : List Written}
    (global : ∀ w ∈ options, w.opt ∈ Opt.globals)
    (takes : options.foldlM take s = .ok left) : s.adopt left = left := by
  induction options generalizing s with
  | nil =>
      cases takes
      rfl
  | cons w options ih =>
      rw [List.foldlM_cons] at takes
      obtain ⟨next, taken, takes⟩ := bind_eq_ok_iff.mp takes
      have first := adopt_of_take (global w List.mem_cons_self) taken
      have others := ih (fun w member => global w (List.mem_cons_of_mem _ member)) takes
      calc s.adopt left = (s.adopt next).adopt left := rfl
        _ = left := by rw [first, others]

end Side

/-- A step that neither looks at global options nor changes them. -/
structure Apart (step : Side → Except Usage Side) : Prop where
  adopt : ∀ s g, s.HoldsNoGlobal → step (s.adopt g) = (step s).map (·.adopt g)
  holds : ∀ s left, s.HoldsNoGlobal → step s = .ok left → left.HoldsNoGlobal

namespace Apart

variable {f g : Side → Except Usage Side}

theorem congr (apart : Apart f) (same : ∀ s, g s = f s) : Apart g := by
  rw [funext same]
  exact apart

theorem error (usage : Usage) : Apart fun _ => .error usage where
  adopt _ _ _ := rfl
  holds _ _ _ done := by cases done

theorem bind (first : Apart f) (second : Apart g) : Apart fun s => f s >>= g where
  adopt s h holds := by
    rw [first.adopt s h holds]
    cases done : f s with
    | error usage => rfl
    | ok u => exact second.adopt u h (first.holds s u holds done)
  holds s left holds done := by
    obtain ⟨u, firstDone, secondDone⟩ := bind_eq_ok_iff.mp done
    exact second.holds u left (first.holds s u holds firstDone) secondDone

/-- Flags of the commands. -/
theorem setFlag {flag : Flag} (other : Opt.flag flag ∉ Opt.globals) :
    Apart fun s => s.setFlag flag where
  adopt s g _ := by
    cases flag with
    | help => rfl
    | version => rfl
    | trace => cases up : s.trace <;> simp [Side.setFlag, Side.raise, Side.adopt, up, Except.map]
    | history =>
        cases up : s.history <;> simp [Side.setFlag, Side.raise, Side.adopt, up, Except.map]
    | _ => exact absurd (by decide) other
  holds s left holds done := by
    obtain ⟨-, -, rfl⟩ := Side.setFlag_eq_ok_iff.mp done
    exact holds.of_held (s.held_put flag)

/-- Settings of the commands. -/
theorem assign {t : Setting} (other : Opt.setting t ∉ Opt.globals) (text : String) :
    Apart fun s => s.assign t text where
  adopt s g _ := by
    cases t with
    | file =>
        show (Side.once s.file _).map _ = ((Side.once s.file _).map _).map _
        cases Side.once s.file (fileName? text) <;> rfl
    | format =>
        show (Side.once s.format _).map _ = ((Side.once s.format _).map _).map _
        cases Side.once s.format (historyFormat? text) <;> rfl
    | _ => exact absurd (by decide) other
  holds s left holds done := by
    obtain ⟨-, v, -, rfl⟩ := Side.assign_eq_ok_iff.mp done
    exact holds.of_held (s.held_give t v)

theorem settle : Apart Side.settle where
  adopt s g holds := by
    cases held : s.held with
    | none =>
        rw [Side.settle_of_held held, Side.settle_of_held (s := s.adopt g) held]
        rfl
    | some waiting =>
        obtain ⟨t, value⟩ := waiting
        cases value with
        | none => simp [Side.settle, held, Side.adopt, Except.map]
        | some text =>
            have read := (assign (holds t _ held) text).adopt { s with held := none } g
              (Side.holdsNoGlobal_of_none rfl)
            simpa [Side.settle, held, Side.adopt] using read
  holds s left _ done := Side.holdsNoGlobal_of_none (Side.held_of_settle done)

/-- An option that is not global, with or without its value. -/
theorem option {o : Opt} (other : o ∉ Opt.globals) (value : Option String) :
    Apart fun s => s.option o value := by
  cases o with
  | flag flag =>
      cases value with
      | none => exact settle.bind (setFlag other)
      | some text => exact error .error
  | setting t =>
      cases value with
      | some text => exact settle.bind (assign other text)
      | none =>
          have waits : Apart fun s => .ok { s with held := some (t, none) } :=
            { adopt := fun _ _ _ => rfl
              holds := by
                rintro s left - ⟨⟩ u value ⟨⟩
                exact other }
          exact settle.bind waits

theorem longOption (place : Place) (name : String) (value : Option String)
    (other : ∀ o ∈ Opt.ofLongName? place name, o ∉ Opt.globals) :
    Apart fun s => s.longOption place name value := by
  cases found : Opt.ofLongName? place name with
  | none =>
      refine (error .error).congr fun s => ?_
      rw [Side.longOption, found]
  | some o =>
      refine (option (other o found) value).congr fun s => ?_
      rw [Side.longOption, found]

theorem shortOptions (place : Place) (letters : List Char)
    (other : ∀ o ∈ Opt.ofLetters place letters, o ∉ Opt.globals) :
    Apart fun s => s.shortOptions place letters := by
  induction letters with
  | nil => exact ⟨fun _ _ _ => rfl, by rintro s left holds ⟨⟩; exact holds⟩
  | cons letter letters ih =>
      cases found : Opt.ofLetter? place letter with
      | none =>
          refine (error .error).congr fun s => ?_
          rw [Side.shortOptions, found]
          rfl
      | some o =>
          rw [Opt.ofLetters, found] at other
          cases o with
          | flag flag =>
              have first := option (other _ List.mem_cons_self) none
              have others := ih fun o member => other o (List.mem_cons_of_mem _ member)
              refine (first.bind others).congr fun s => ?_
              rw [Side.shortOptions, found]
          | setting t =>
              refine (option (other _ List.mem_cons_self) (Side.groupValue? letters)).congr
                fun s => ?_
              rw [Side.shortOptions, found]

/-- A script is not global. -/
theorem script (command : CommandName) (text : String) :
    Apart fun s => s.script command text := by
  refine settle.bind ?_
  constructor
  · intro s g _
    split <;> rfl
  · intro s left holds done
    split at done
    · cases done
      exact holds
    · cases done

theorem scripts (command : CommandName) (texts : List String) :
    Apart fun s => texts.foldlM (Side.script command) s := by
  induction texts with
  | nil => exact ⟨fun _ _ _ => rfl, by rintro s left holds ⟨⟩; exact holds⟩
  | cons text texts ih => exact ((script command text).bind ih).congr fun s => List.foldlM_cons

/-- A value goes to a setting that is not global. -/
theorem holdValue (text : String) : Apart fun s => .ok (s.holdValue text) where
  adopt s g _ := by
    cases held : s.held <;> simp [Side.holdValue, held, Side.adopt, Except.map]
  holds s left holds done := by
    cases done
    intro t value held
    cases before : s.held with
    | none =>
        rw [Side.holdValue, before] at held
        exact holds t value held
    | some waiting =>
        obtain ⟨u, given⟩ := waiting
        rw [Side.holdValue, before] at held
        cases held
        exact holds _ given before

theorem waiting {f g : Side → Except Usage Side} (waits : Apart f) (others : Apart g) :
    Apart fun s => if s.isWaiting then f s else g s where
  adopt s h holds := by
    have same : (s.adopt h).isWaiting = s.isWaiting := rfl
    rw [same]
    split
    · exact waits.adopt s h holds
    · exact others.adopt s h holds
  holds s left holds done := by
    split at done
    · exact waits.holds s left holds done
    · exact others.holds s left holds done

end Apart

theorem FreeOfGlobals.cons {command : CommandName} {argument : String} {rest : List String}
    (free : FreeOfGlobals command (argument :: rest)) (goesOn : argument ≠ "--") :
    (∀ o ∈ (Argument.ofText argument).options (.behind command), o ∉ Opt.globals) ∧
      FreeOfGlobals command rest := by
  rw [FreeOfGlobals, List.takeWhile_cons_of_pos (by simpa using goesOn)] at free
  exact ⟨free argument List.mem_cons_self, fun a member => free a (List.mem_cons_of_mem _ member)⟩

/-- **Reading arguments without global options is apart from the global options.** -/
theorem FreeOfGlobals.apart {command : CommandName} {arguments : List String}
    (free : FreeOfGlobals command arguments) :
    Apart fun s => readBehind command s arguments := by
  induction arguments with
  | nil => exact .settle
  | cons argument rest ih =>
      have goesOn (notDashes : Argument.ofText argument ≠ .endOfOptions) : argument ≠ "--" := by
        rintro rfl
        exact notDashes rfl
      cases kind : Argument.ofText argument with
      | plain text =>
          have others := ih (free.cons (goesOn (by simp [kind]))).2
          refine (((Apart.holdValue text).bind others).waiting
            ((Apart.script command text).bind others)).congr fun s => ?_
          exact readBehind_plain rest s command kind
      | endOfOptions =>
          refine ((Apart.scripts command rest).bind .settle).congr fun s => ?_
          exact readBehind_endOfOptions rest s command kind
      | long name value =>
          obtain ⟨here, later⟩ := free.cons (goesOn (by simp [kind]))
          rw [kind] at here
          refine ((Apart.longOption (.behind command) name value ?_).bind (ih later)).congr
            fun s => readBehind_long rest s command kind
          intro o found
          exact here o (by simpa [Argument.options] using found)
      | short letters =>
          obtain ⟨here, later⟩ := free.cons (goesOn (by simp [kind]))
          rw [kind] at here
          exact ((Apart.shortOptions (.behind command) letters here).bind (ih later)).congr
            fun s => readBehind_short rest s command kind

end Calculator.CommandLine
