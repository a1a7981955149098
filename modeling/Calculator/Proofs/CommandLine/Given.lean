/-
# Calculator.Proofs.CommandLine.Given -- what one side has been given

A side keeps each setting in a field of its own type.  `Setting.Value` is that type and
`Side.given` the field, so that one statement covers all settings; `Side.raised` does the same
for the flags that count once.

A side takes options one after the other (`Side.take`).  What it has been given behind them does
not depend on their order: it is the number of its verbose flags, which of the other flags
are among them, and the value of each setting (`Side.Reflects`).  And it can take all options
whose values can be read, if no other flag and no setting is among them twice
(`Proper.exists_takes`).

* `assign_eq_ok_iff`, `setFlag_eq_ok_iff`: when an option can be taken, and what it leaves;
* `Proper.exists_takes`: taking all of a list.
-/
import Mathlib.Data.List.Induction
import Calculator.CommandLine.Options

namespace Calculator.CommandLine

set_option autoImplicit false

/-! ## Settings and flags -/

/-- What a setting is set to. -/
def Setting.Value : Setting → Type
  | .color => ColorChoice
  | .historyCapacity => Nat
  | .zeroTolerance => Binary64
  | .errorIndicator => String
  | .file => String
  | .format => HistoryFormat

/-- The value that a text gives a setting. -/
def Setting.read : (t : Setting) → String → Option t.Value
  | .color => colorChoice?
  | .historyCapacity => Numeral.natural?
  | .zeroTolerance => Numeral.scientificValue?
  | .errorIndicator => some
  | .file => fileName?
  | .format => historyFormat?

/-- Whether a flag tells something about the command; the others ask for help or the version. -/
def Flag.Tells (f : Flag) : Prop := f ≠ .help ∧ f ≠ .version

namespace Side

/-- The value that a setting has been given. -/
def given (s : Side) : (t : Setting) → Option t.Value
  | .color => s.color
  | .historyCapacity => s.historyCapacity
  | .zeroTolerance => s.zeroTolerance
  | .errorIndicator => s.errorIndicator
  | .file => s.file
  | .format => s.format

/-- The side with a setting set. -/
def give (s : Side) : (t : Setting) → t.Value → Side
  | .color, v => { s with color := some v }
  | .historyCapacity, v => { s with historyCapacity := some v }
  | .zeroTolerance, v => { s with zeroTolerance := some v }
  | .errorIndicator, v => { s with errorIndicator := some v }
  | .file, v => { s with file := some v }
  | .format, v => { s with format := some v }

/-- Whether a flag that counts once has been given. -/
def raised (s : Side) : Flag → Bool
  | .quiet => s.quiet
  | .logJson => s.logJson
  | .trace => s.trace
  | .history => s.history
  | _ => false

/-- The side with one more flag. -/
def put (s : Side) : Flag → Side
  | .verbose => { s with verbose := s.verbose + 1 }
  | .quiet => { s with quiet := true }
  | .logJson => { s with logJson := true }
  | .trace => { s with trace := true }
  | .history => { s with history := true }
  | _ => s

section Give

variable (s : Side) (t : Setting) (v : t.Value)

theorem given_give : (s.give t v).given t = some v := by cases t <;> rfl

theorem given_give_of_ne {u : Setting} (other : u ≠ t) : (s.give t v).given u = s.given u := by
  cases t <;> cases u <;> first | rfl | exact absurd rfl other

@[simp]
theorem held_give : (s.give t v).held = s.held := by cases t <;> rfl

@[simp]
theorem verbose_give : (s.give t v).verbose = s.verbose := by cases t <;> rfl

@[simp]
theorem raised_give (f : Flag) : (s.give t v).raised f = s.raised f := by
  cases t <;> cases f <;> rfl

end Give

section Put

variable (s : Side) (f : Flag)

@[simp]
theorem held_put : (s.put f).held = s.held := by cases f <;> rfl

@[simp]
theorem given_put (t : Setting) : (s.put f).given t = s.given t := by
  cases f <;> cases t <;> rfl

theorem verbose_put : (s.put f).verbose = s.verbose + if f = .verbose then 1 else 0 := by
  cases f <;> rfl

theorem raised_put (counted : f ≠ .verbose) (tells : f.Tells) : (s.put f).raised f = true := by
  cases f with
  | help => exact absurd rfl tells.1
  | version => exact absurd rfl tells.2
  | verbose => exact absurd rfl counted
  | _ => rfl

theorem raised_put_of_ne {g : Flag} (other : g ≠ f) : (s.put f).raised g = s.raised g := by
  cases f <;> cases g <;> first | rfl | exact absurd rfl other

end Put

/-! ## Taking an option -/

theorem map_once_eq_ok_iff {α β : Type} {given value : Option α} {change : Option α → β} {b : β} :
    (once given value).map change = .ok b ↔
      given = none ∧ ∃ a, value = some a ∧ b = change (some a) := by
  cases given <;> cases value <;> simp [once, Except.map, eq_comm]

/-- A setting can be set once, by a text that can be read. -/
theorem assign_eq_ok_iff {s left : Side} {t : Setting} {text : String} :
    s.assign t text = .ok left ↔ s.given t = none ∧ ∃ v, t.read text = some v ∧ left = s.give t v := by
  cases t <;> exact map_once_eq_ok_iff

theorem setFlag_eq (s : Side) {f : Flag} (tells : f.Tells) :
    s.setFlag f = raise (s.raised f) (s.put f) := by
  cases f with
  | help => exact absurd rfl tells.1
  | version => exact absurd rfl tells.2
  | _ => rfl

/-- A flag can be given if it tells something, and once if it is not counted. -/
theorem setFlag_eq_ok_iff {s left : Side} {f : Flag} :
    s.setFlag f = .ok left ↔ f.Tells ∧ s.raised f = false ∧ left = s.put f := by
  constructor
  · intro taken
    have tells : f.Tells := by
      constructor <;> (rintro rfl; cases taken)
    rw [s.setFlag_eq tells, raise] at taken
    split at taken
    · cases taken
    · rename_i down
      exact ⟨tells, by simpa using down, (Except.ok.inj taken).symm⟩
  · rintro ⟨tells, down, rfl⟩
    rw [s.setFlag_eq tells, down]
    rfl

end Side

/-! ## Options in a list -/

/-- An option that has been written, with the text of its value. -/
inductive Written where
  | flag (flag : Flag)
  | setting (setting : Setting) (text : String)
  deriving DecidableEq, Repr

def Written.opt : Written → Opt
  | .flag f => .flag f
  | .setting t _ => .setting t

/-- Whether the text of a value can be read. -/
def Written.isReadable : Written → Bool
  | .flag _ => true
  | .setting t text => (t.read text).isSome

/-- The options that any command has, but for help and the version. -/
def Opt.globals : List Opt :=
  [.flag .verbose, .flag .quiet, .flag .logJson, .setting .color, .setting .historyCapacity,
    .setting .zeroTolerance, .setting .errorIndicator]

/-- Global options that belong together: every value can be read, and none is there twice, but
for verbose flags. -/
structure Proper (options : List Written) : Prop where
  global : ∀ w ∈ options, w.opt ∈ Opt.globals
  readable : ∀ w ∈ options, w.isReadable = true
  once : options.Pairwise fun a b => a.opt = b.opt → a.opt = .flag .verbose

instance (options : List Written) : Decidable (Proper options) :=
  decidable_of_iff ((∀ w ∈ options, w.opt ∈ Opt.globals) ∧ (∀ w ∈ options, w.isReadable = true) ∧
      options.Pairwise fun a b => a.opt = b.opt → a.opt = .flag .verbose)
    ⟨fun h => ⟨h.1, h.2.1, h.2.2⟩, fun h => ⟨h.global, h.readable, h.once⟩⟩

/-- Takes an option. -/
def Side.take (s : Side) : Written → Except Usage Side
  | .flag f => s.setFlag f
  | .setting t text => s.assign t text

/-- What a side has been given is what is in a list of options. -/
structure Side.Reflects (s : Side) (options : List Written) : Prop where
  verbose : s.verbose = options.count (.flag .verbose)
  raised : ∀ f, f ≠ .verbose → (s.raised f = true ↔ .flag f ∈ options)
  given : ∀ t v, s.given t = some v ↔ ∃ text, .setting t text ∈ options ∧ t.read text = some v

namespace Side

theorem reflects_empty : Side.empty.Reflects [] where
  verbose := rfl
  raised f _ := by cases f <;> simp [empty, Side.raised]
  given t v := by cases t <;> simp [empty, Side.given]

theorem held_of_take {s left : Side} {w : Written} (taken : s.take w = .ok left) :
    left.held = s.held := by
  cases w with
  | flag f =>
      obtain ⟨-, -, rfl⟩ := setFlag_eq_ok_iff.mp taken
      exact s.held_put f
  | setting t text =>
      obtain ⟨-, v, -, rfl⟩ := assign_eq_ok_iff.mp taken
      exact s.held_give t v

namespace Reflects

variable {s : Side} {options : List Written} (reflects : s.Reflects options)
include reflects

theorem put {f : Flag} (tells : f.Tells) : (s.put f).Reflects (options ++ [.flag f]) where
  verbose := by
    rw [verbose_put, reflects.verbose, List.count_append, List.count_singleton]
    simp
  raised g counted := by
    by_cases same : g = f
    · subst same
      simp [raised_put s g counted tells]
    · rw [raised_put_of_ne _ _ same, reflects.raised g counted]
      simp [same]
  given t v := by
    rw [given_put, reflects.given]
    simp

theorem give {t : Setting} {text : String} {v : t.Value} (new : s.given t = none)
    (read : t.read text = some v) : (s.give t v).Reflects (options ++ [.setting t text]) where
  verbose := by
    rw [verbose_give, reflects.verbose, List.count_append]
    simp
  raised f counted := by
    rw [raised_give, reflects.raised f counted]
    simp
  given u w := by
    by_cases same : u = t
    · subst same
      -- what is in the list already cannot be read, or it would have been given
      have unread (other : String) : ¬ (.setting u other ∈ options ∧ u.read other = some w) := by
        intro earlier
        have already := (reflects.given u w).mpr ⟨other, earlier⟩
        rw [new] at already
        cases already
      rw [given_give]
      constructor
      · rintro ⟨⟩
        exact ⟨text, by simp, read⟩
      · rintro ⟨other, member, readable⟩
        rcases List.mem_append.mp member with earlier | last
        · exact absurd ⟨earlier, readable⟩ (unread other)
        · obtain rfl : other = text := by simpa using last
          rw [← readable, read]
    · rw [given_give_of_ne _ _ _ same, reflects.given]
      simp [same]

/-- What is taken is reflected as well. -/
theorem take {w : Written} {left : Side} (taken : s.take w = .ok left) :
    left.Reflects (options ++ [w]) := by
  cases w with
  | flag f =>
      obtain ⟨tells, -, rfl⟩ := setFlag_eq_ok_iff.mp taken
      exact reflects.put tells
  | setting t text =>
      obtain ⟨new, v, read, rfl⟩ := assign_eq_ok_iff.mp taken
      exact reflects.give new read

/-- An option can be taken behind options that it belongs to. -/
theorem exists_take {w : Written} (proper : Proper (options ++ [w])) :
    ∃ left, s.take w = .ok left := by
  have global : w.opt ∈ Opt.globals := proper.global w (by simp)
  have new (earlier : Written) (member : earlier ∈ options) (same : earlier.opt = w.opt) :
      w.opt = .flag .verbose := by
    have crossed := (List.pairwise_append.mp proper.once).2.2 earlier member w (by simp) same
    rwa [same] at crossed
  cases w with
  | flag f =>
      have tells : f.Tells := by
        constructor <;> (rintro rfl; revert global; decide)
      have down : s.raised f = false := by
        by_cases counted : f = .verbose
        · rw [counted]
          rfl
        · by_contra up
          have member := (reflects.raised f counted).mp (by simpa using up)
          exact counted (Opt.flag.inj (new _ member rfl))
      exact ⟨_, setFlag_eq_ok_iff.mpr ⟨tells, down, rfl⟩⟩
  | setting t text =>
      obtain ⟨v, read⟩ := Option.isSome_iff_exists.mp (proper.readable (.setting t text) (by simp))
      have unset : s.given t = none := by
        rw [Option.eq_none_iff_forall_ne_some]
        intro v given
        obtain ⟨other, member, -⟩ := (reflects.given t v).mp given
        cases new _ member rfl
      exact ⟨_, assign_eq_ok_iff.mpr ⟨unset, v, read, rfl⟩⟩

end Reflects

end Side

theorem Proper.of_append {options more : List Written} (proper : Proper (options ++ more)) :
    Proper options where
  global w member := proper.global w (List.mem_append_left _ member)
  readable w member := proper.readable w (List.mem_append_left _ member)
  once := (List.pairwise_append.mp proper.once).1

/-- Options that belong together can all be taken, and are reflected then. -/
theorem Proper.exists_takes {options : List Written} (proper : Proper options) :
    ∃ left, options.foldlM Side.take .empty = .ok left ∧ left.Reflects options := by
  induction options using List.reverseRecOn with
  | nil => exact ⟨.empty, rfl, Side.reflects_empty⟩
  | append_singleton options w ih =>
      obtain ⟨s, takes, reflects⟩ := ih proper.of_append
      obtain ⟨left, taken⟩ := reflects.exists_take proper
      refine ⟨left, ?_, reflects.take taken⟩
      rw [List.foldlM_append]
      exact bind_eq_ok_iff.mpr ⟨s, takes, bind_eq_ok_iff.mpr ⟨left, taken, rfl⟩⟩

end Calculator.CommandLine
