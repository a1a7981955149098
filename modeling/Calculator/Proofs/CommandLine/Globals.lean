/-
# Calculator.Proofs.CommandLine.Globals -- what global options mean

Global options mean the same wherever they stand, and what they say about the history's
capacity and the tolerance counts in a fixed order: behind the name of the command, in front of
it, in the environment, and then the default.

* `globals_anywhere`: the theorem, for all command lines.
-/
import Mathlib.Data.List.Basic
import Calculator.Proofs.Command.Presentation
import Calculator.Proofs.CommandLine.Front
import Calculator.Proofs.CommandLine.Placement

namespace Calculator.CommandLine

set_option autoImplicit false

/-! ## The order of precedence -/

/-- The value is the one that the text gives, and the default without a text. -/
def Gives {α : Type} (read : String → Option α) (default : α) : Option String → α → Prop
  | none, value => value = default
  | some text, value => read text = some value

theorem gives_iff {α : Type} {read : String → Option α} {default value : α}
    {text : Option String} :
    Gives read default text value ↔
      ∃ chosen : Option α, chosen.map some = text.map read ∧ value = chosen.getD default := by
  cases text with
  | none => simp [Gives]
  | some text =>
      constructor
      · intro gives
        exact ⟨some value, by simpa using gives.symm, rfl⟩
      · rintro ⟨chosen, same, rfl⟩
        cases chosen with
        | none => cases same
        | some a => exact (Option.some.inj same).symm

theorem map_some_of_choose {α : Type} {read : String → Option α}
    {behind before chosen : Option α} {environment : Option String}
    (chooses : choose read behind before environment = .ok chosen) :
    chosen.map some = (behind.map some <|> before.map some <|> environment.map read) := by
  cases environment with
  | none =>
      cases behind <;> cases before <;> cases chooses <;> rfl
  | some text =>
      cases found : read text <;> cases behind <;> cases before <;>
        simp [choose, found] at chooses <;> subst chooses <;> simp [found]

/-- What is chosen of both sides and the environment is what the first text gives. -/
theorem gives_of_choose {α : Type} {read : String → Option α} {behind before chosen : Option α}
    {rest front environment : Option String} (givenBehind : behind.map some = rest.map read)
    (givenBefore : before.map some = front.map read)
    (chooses : choose read behind before environment = .ok chosen) :
    chosen.map some = (rest <|> front <|> environment).map read := by
  rw [map_some_of_choose chooses, givenBehind, givenBefore]
  cases rest <;> cases front <;> rfl

/-! ## Usable configurations -/

theorem isEmpty_trim_iff (text : String) :
    (Text.trim text).isEmpty = true ↔ ∀ c ∈ text.toList, Text.isBlank c = true := by
  have ends (cs : List Char) :
      Text.trimEndChars (cs.dropWhile Text.isBlank) = [] ↔ ∀ c ∈ cs, Text.isBlank c = true := by
    rw [Text.trimEndChars, List.reverse_eq_nil_iff, List.dropWhile_eq_nil_iff]
    constructor
    · intro left c member
      rw [← List.takeWhile_append_dropWhile (p := Text.isBlank) (l := cs)] at member
      rcases List.mem_append.mp member with dropped | kept
      · exact List.mem_takeWhile_imp dropped
      · exact left c (List.mem_reverse.mpr kept)
    · intro blank c member
      exact blank c ((List.dropWhile_sublist _).mem (List.mem_reverse.mp member))
  rw [Text.trim, String.isEmpty_iff, ← ends]
  simp

/-- The tolerance is finite, and the error indicator is not blank. -/
def Usable (c : Configuration) : Prop :=
  c.session.zeroTolerance.isFinite = true ∧
    ∃ char ∈ c.session.errorIndicator.toList, Text.isBlank char = false

theorem fault?_eq_none_iff (c : Configuration) : c.fault? = none ↔ Usable c := by
  have shown : (∃ char ∈ c.session.errorIndicator.toList, Text.isBlank char = false) ↔
      (Text.trim c.session.errorIndicator).isEmpty = false := by
    rw [← Bool.not_eq_true, isEmpty_trim_iff]
    simp
  rw [Usable, shown, Configuration.fault?]
  cases c.session.zeroTolerance.isFinite <;>
    cases (Text.trim c.session.errorIndicator).isEmpty <;> simp

/-! ## Command lines -/

/-- What comes of a command line: an answer, or a word about its use. -/
def outcome (environment : Environment) (terminal : Bool) (outside : Surroundings)
    (arguments : List String) : Except Usage Answer :=
  (Request.ofArguments environment arguments).map (Request.execute terminal outside)

section Execute

variable (terminal : Bool) (outside : Surroundings) {r : Request}

/-- A command is carried out if its configuration can be used, and the answer is its own. -/
theorem execute_of_usable (usable : Usable r.configuration) :
    r.execute terminal outside = r.command.execute terminal r.configuration outside ∧
      ∀ fault, (r.execute terminal outside).failure ≠ some (.configuration fault) := by
  have carried : r.execute terminal outside =
      r.command.execute terminal r.configuration outside := by
    rw [Request.execute, (fault?_eq_none_iff r.configuration).mpr usable]
  refine ⟨carried, fun fault => ?_⟩
  rw [carried]
  exact Command.execute_ne_configuration terminal r.configuration outside fault

/-- If it cannot be used, nothing is carried out. -/
theorem execute_of_unusable (unusable : ¬ Usable r.configuration) :
    ∃ fault, r.execute terminal outside = .failed (.configuration fault) := by
  rw [← fault?_eq_none_iff] at unusable
  obtain ⟨fault, met⟩ := Option.ne_none_iff_exists'.mp unusable
  refine ⟨fault, ?_⟩
  rw [Request.execute, met]

end Execute

/-- **Where global options stand does not matter.** -/
theorem Spread.outcome_eq {options : List Written} {before behind others more further : List String}
    {name : CommandName} (spread : Spread options before behind)
    (other : Spread options others more) (proper : Proper options)
    (free : FreeOfGlobals name further) (environment : Environment) (terminal : Bool)
    (outside : Surroundings) :
    outcome environment terminal outside (before ++ name.text :: (behind ++ further)) =
      outcome environment terminal outside (others ++ name.text :: (more ++ further)) := by
  obtain ⟨whole, takes, same⟩ := spread.ofArguments_eq proper free
  obtain ⟨again, takesAgain, sameAgain⟩ := other.ofArguments_eq proper free
  obtain rfl : whole = again := Except.ok.inj (takes.symm.trans takesAgain)
  rw [outcome, outcome, same, sameAgain]

/-! ## The command itself -/

/-- Whether the environment can be used does not depend on what is given besides. -/
theorem choose_behind {α : Type} (read : String → Option α) (behind : Option α)
    (environment : Option String) :
    (∃ a b, choose read behind none environment = .ok a ∧
        choose read none none environment = .ok b) ∨
      choose read behind none environment = .error .error ∧
        choose read none none environment = .error .error := by
  cases environment with
  | none =>
      left
      cases behind <;> exact ⟨_, _, rfl, rfl⟩
  | some text =>
      cases found : read text with
      | none =>
          right
          cases behind <;> simp [choose, found]
      | some a =>
          left
          cases behind <;> simp [choose, found]

/-- Global options do not change the command, and they do not keep it from being carried out. -/
theorem command_requestOf (whole : Side) (name : CommandName) (further : List String)
    (environment : Environment) :
    (requestOf .empty whole name further environment).map Request.command =
      (requestOf .empty .empty name further environment).map Request.command := by
  have configures (c : Command) :
      (configuration .empty whole environment).map (fun _ => c) =
        (configuration .empty .empty environment).map (fun _ => c) := by
    rcases choose_behind Numeral.natural? whole.historyCapacity environment.historyCapacity with
      ⟨a, b, first, second⟩ | ⟨first, second⟩
    · rcases choose_behind Numeral.scientificValue? whole.zeroTolerance
        environment.zeroTolerance with ⟨x, y, third, fourth⟩ | ⟨third, fourth⟩
      · simp only [configuration, Side.empty, first, second, third, fourth]
        rfl
      · simp only [configuration, Side.empty, first, second, third, fourth]
        rfl
    · simp only [configuration, Side.empty, first, second]
      rfl
  have tail (c : Command) (x : Except Usage Configuration) :
      (x >>= fun chosen => .ok (Request.mk chosen c)).map Request.command = x.map fun _ => c := by
    cases x <;> rfl
  unfold requestOf
  cases readBehind name .empty further with
  | error usage => rfl
  | ok side =>
      show (command name side >>= fun c => configuration .empty whole environment >>=
          fun chosen => .ok (Request.mk chosen c)).map Request.command =
        (command name side >>= fun c => configuration .empty .empty environment >>=
          fun chosen => .ok (Request.mk chosen c)).map Request.command
      cases command name side with
      | error usage => rfl
      | ok c => exact (tail c _).trans ((configures c).trans (tail c _).symm)

/-- A command line with global options has the command that it has without them. -/
theorem Spread.map_command {options : List Written} {before behind further : List String}
    {name : CommandName} (spread : Spread options before behind) (proper : Proper options)
    (free : FreeOfGlobals name further) (environment : Environment) :
    (Request.ofArguments environment (before ++ name.text :: (behind ++ further))).map
        Request.command =
      (Request.ofArguments environment (name.text :: further)).map Request.command := by
  obtain ⟨whole, -, same⟩ := spread.ofArguments_eq proper free
  obtain ⟨none, takes, alone⟩ := (Spread.in_front .nil).ofArguments_eq (by decide) free
  cases takes
  rw [same, command_requestOf]
  exact (congrArg _ (alone environment)).symm

/-! ## The settings of a session -/

section Settings

variable (capacity : Option Nat) (tolerance : Option Binary64) (indicator : Option String)

theorem capacity_settings :
    (settings capacity tolerance indicator).capacity = capacity.getD History.defaultCapacity := by
  cases capacity <;> cases tolerance <;> cases indicator <;> rfl

theorem zeroTolerance_settings :
    (settings capacity tolerance indicator).zeroTolerance =
      (tolerance.map Binary64.abs).getD Tolerance.defaultBound := by
  cases capacity <;> cases tolerance <;> cases indicator <;>
    simp [settings, Settings.default, Settings.withCapacity, Settings.withZeroTolerance,
      Settings.withErrorIndicator]

theorem errorIndicator_settings :
    (settings capacity tolerance indicator).errorIndicator = indicator.getD "Error" := by
  cases capacity <;> cases tolerance <;> cases indicator <;> rfl

end Settings

/-- The settings of a session are what the arguments behind the name of the command give, else
what those in front of it give, else what the environment gives, else the default.  Of the
tolerance the absolute value counts. -/
structure Told (front rest : List String) (environment : Environment) (s : Settings) : Prop where
  capacity :
    Gives Numeral.natural? History.defaultCapacity
      (written? .historyCapacity rest <|> written? .historyCapacity front <|>
        environment.historyCapacity) s.capacity
  zeroTolerance :
    Gives (fun text => (Numeral.scientificValue? text).map Binary64.abs) Tolerance.defaultBound
      (written? .zeroTolerance rest <|> written? .zeroTolerance front <|>
        environment.zeroTolerance) s.zeroTolerance
  errorIndicator :
    Gives some "Error" (written? .errorIndicator rest <|> written? .errorIndicator front)
      s.errorIndicator

/-- A command line with a command starts with global options, and its settings are told by what
stands on both sides of the name. -/
theorem exists_told {environment : Environment} {arguments : List String} {r : Request}
    (accepted : Request.ofArguments environment arguments = .ok r) :
    ∃ front options, ∃ name : CommandName, ∃ rest,
      arguments = front ++ name.text :: rest ∧ Spells front options ∧
      (∀ w ∈ options, w.opt ∈ Opt.globals) ∧
      Told front rest environment r.configuration.session := by
  obtain ⟨⟨u, name, rest⟩, readsFront, accepted⟩ := bind_eq_ok_iff.mp accepted
  obtain ⟨behind, readsBehind, accepted⟩ := bind_eq_ok_iff.mp accepted
  obtain ⟨command, -, accepted⟩ := bind_eq_ok_iff.mp accepted
  obtain ⟨before, settles, accepted⟩ := bind_eq_ok_iff.mp accepted
  obtain ⟨configuration, configures, accepted⟩ := bind_eq_ok_iff.mp accepted
  cases accepted
  obtain ⟨front, options, rfl, goesOn, global, due⟩ := exists_front readsFront
  have givenBefore (t : Setting) (here : Opt.setting t ∈ Opt.globals) :
      (before.given t).map some = (written? t front).map t.read := by
    rw [← Side.due_nil settles, ← due t here, Side.due_empty]
  have givenBehind (t : Setting) (here : Opt.setting t ∈ Opt.globals) :
      (behind.given t).map some = (written? t rest).map t.read := by
    rw [← due_of_readBehind (Opt.letter?_setting here) readsBehind, Side.due_empty]
  obtain ⟨capacity, choosesCapacity, configures⟩ := bind_eq_ok_iff.mp configures
  obtain ⟨tolerance, choosesTolerance, configures⟩ := bind_eq_ok_iff.mp configures
  cases configures
  refine ⟨front, options, name, rest, rfl, goesOn, global, ?_, ?_, ?_⟩
  · exact gives_iff.mpr ⟨capacity, gives_of_choose (givenBehind .historyCapacity (by decide))
      (givenBefore .historyCapacity (by decide)) choosesCapacity, capacity_settings ..⟩
  · have chosen : tolerance.map some = (written? .zeroTolerance rest <|>
        written? .zeroTolerance front <|> environment.zeroTolerance).map Numeral.scientificValue? :=
      gives_of_choose (givenBehind .zeroTolerance (by decide))
        (givenBefore .zeroTolerance (by decide)) choosesTolerance
    refine gives_iff.mpr ⟨tolerance.map Binary64.abs, ?_, zeroTolerance_settings ..⟩
    simpa [Option.map_map, Function.comp_def] using
      congrArg (Option.map (Option.map Binary64.abs)) chosen
  · have first : behind.errorIndicator = written? .errorIndicator rest :=
      Option.map_injective (fun _ _ => Option.some.inj) (givenBehind .errorIndicator (by decide))
    have second : before.errorIndicator = written? .errorIndicator front :=
      Option.map_injective (fun _ _ => Option.some.inj) (givenBefore .errorIndicator (by decide))
    refine gives_iff.mpr ⟨_, ?_, errorIndicator_settings ..⟩
    rw [first, second]

/-- **Global options mean the same wherever they stand.**  In front of the name of a command,
behind it, or on both sides with the verbose flags on one, in any order and any spelling, they
give the same answer, as long as what follows has no global option before its two dashes; and the
command is the one that there is without them.  On every command line that has a command, the
history's capacity and the tolerance are what the options behind the name give, else what those
in front of it give, else what the environment gives, else the default; of the tolerance the
absolute value counts.

And the configuration can be used exactly if the tolerance is finite and the error indicator is
not blank.  If it can, the answer to the command line is that of its command, which does not fail
over the configuration; if not, the answer is that failure and nothing else. -/
theorem globals_anywhere :
    (∀ (name : CommandName) (options : List Written) (globals further : List String),
      Spells globals options → Proper options → FreeOfGlobals name further →
      ∀ (environment : Environment) (terminal : Bool) (outside : Surroundings),
        outcome environment terminal outside (globals ++ name.text :: further) =
            outcome environment terminal outside (name.text :: (globals ++ further)) ∧
          (Request.ofArguments environment (globals ++ name.text :: further)).map
              Request.command =
            (Request.ofArguments environment (name.text :: further)).map Request.command ∧
          ∀ before behind, Spread options before behind →
            outcome environment terminal outside (before ++ name.text :: (behind ++ further)) =
              outcome environment terminal outside (globals ++ name.text :: further)) ∧
    ∀ (environment : Environment) (arguments : List String) (r : Request),
      Request.ofArguments environment arguments = .ok r →
      (∃ front options, ∃ name : CommandName, ∃ rest,
        arguments = front ++ name.text :: rest ∧ Spells front options ∧
        (∀ w ∈ options, w.opt ∈ Opt.globals) ∧
        Told front rest environment r.configuration.session) ∧
      (r.configuration.fault? = none ↔ Usable r.configuration) ∧
      ∀ (terminal : Bool) (outside : Surroundings), ∃ answer,
        outcome environment terminal outside arguments = .ok answer ∧
        (Usable r.configuration →
          answer = r.command.execute terminal r.configuration outside ∧
            ∀ fault, answer.failure ≠ some (.configuration fault)) ∧
        (¬ Usable r.configuration → ∃ fault, answer = .failed (.configuration fault)) := by
  constructor
  · intro name options globals further spells proper free environment terminal outside
    have inFront := Spread.in_front spells
    refine ⟨?_, inFront.map_command proper free environment, fun before behind spread => ?_⟩
    · exact inFront.outcome_eq (Spread.behind spells) proper free environment terminal outside
    · exact spread.outcome_eq inFront proper free environment terminal outside
  · intro environment arguments r accepted
    refine ⟨exists_told accepted, fault?_eq_none_iff r.configuration, fun terminal outside => ?_⟩
    refine ⟨r.execute terminal outside, ?_, execute_of_usable terminal outside,
      execute_of_unusable terminal outside⟩
    rw [outcome, accepted]
    rfl

/-- Five options in front of `run`, and on both sides of it; the environment's capacity does not
count. -/
theorem globals_anywhere_run :
    (∀ (environment : Environment) (terminal : Bool) (outside : Surroundings),
      outcome environment terminal outside
          ["--zero-tolerance", "1e-3", "run", "--history-capacity", "5", "-v", "--log-json",
            "--verbose", "--trace", "1+2=", "--", "-q"] =
        outcome environment terminal outside
          ["-vv", "--log-json", "--history-capacity=5", "--zero-tolerance=1e-3", "run", "--trace",
            "1+2=", "--", "-q"]) ∧
      ∃ r, Request.ofArguments ⟨some "7", none⟩
          ["-vv", "--log-json", "--history-capacity=5", "--zero-tolerance=1e-3", "run", "--trace",
            "1+2=", "--", "-q"] = .ok r ∧
        r.configuration.session.capacity = 5 ∧
        r.configuration.fault? = none ∧ Usable r.configuration ∧
        ∀ (terminal : Bool) (outside : Surroundings),
          outcome ⟨some "7", none⟩ terminal outside
              ["-vv", "--log-json", "--history-capacity=5", "--zero-tolerance=1e-3", "run",
                "--trace", "1+2=", "--", "-q"] =
            .ok (r.command.execute terminal r.configuration outside) := by
  have letters : Word ["-vv"] [.flag .verbose, .flag .verbose] :=
    .group (by decide) (.cons rfl (.cons rfl .nil))
  have letter : Word ["-v"] [.flag .verbose] := .group (by decide) (.cons rfl .nil)
  have capacity : Word ["--history-capacity", "5"] [.setting .historyCapacity "5"] :=
    .detached .historyCapacity (.inr (by decide))
  have tolerance : Word ["--zero-tolerance", "1e-3"] [.setting .zeroTolerance "1e-3"] :=
    .detached .zeroTolerance (.inr (by decide))
  have globals : Spells ["-vv", "--log-json", "--history-capacity=5", "--zero-tolerance=1e-3"]
      [.flag .verbose, .flag .verbose, .flag .logJson, .setting .historyCapacity "5",
        .setting .zeroTolerance "1e-3"] :=
    .cons letters (.cons (.flag .logJson) (.cons (.attached .historyCapacity "5")
      (.cons (.attached .zeroTolerance "1e-3") .nil)))
  have proper : Proper [.flag .verbose, .flag .verbose, .flag .logJson,
      .setting .historyCapacity "5", .setting .zeroTolerance "1e-3"] := by decide +kernel
  have free : FreeOfGlobals .run ["--trace", "1+2=", "--", "-q"] := by decide
  have spread : Spread [.flag .verbose, .flag .verbose, .flag .logJson,
      .setting .historyCapacity "5", .setting .zeroTolerance "1e-3"]
      ["--zero-tolerance", "1e-3"]
      ["--history-capacity", "5", "-v", "--log-json", "--verbose"] :=
    .intro (.cons tolerance .nil)
      (.cons capacity (.cons letter (.cons (.flag .logJson) (.cons (.flag .verbose) .nil))))
      (by decide) (.inl (by decide))
  refine ⟨fun environment terminal outside => ?_, ?_⟩
  · exact (globals_anywhere.1 .run _ _ _ globals proper free environment terminal outside).2.2 _ _
      spread
  · obtain ⟨r, accepted, five⟩ : ∃ r, Request.ofArguments ⟨some "7", none⟩
        ["-vv", "--log-json", "--history-capacity=5", "--zero-tolerance=1e-3", "run", "--trace",
          "1+2=", "--", "-q"] = .ok r ∧ r.configuration.session.capacity = 5 := ⟨_, rfl, rfl⟩
    obtain ⟨-, whether, answers⟩ := globals_anywhere.2 _ _ r accepted
    have sound : r.configuration.fault? = none := by
      cases accepted
      decide +kernel
    have usable := whether.mp sound
    refine ⟨r, accepted, five, sound, usable, fun terminal outside => ?_⟩
    obtain ⟨answer, comes, carried, -⟩ := answers terminal outside
    rw [comes, (carried usable).1]

end Calculator.CommandLine
