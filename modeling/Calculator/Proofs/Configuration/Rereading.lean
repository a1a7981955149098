/-
# Calculator.Proofs.Configuration.Rereading -- the printed configuration, read again

A configuration is printed as a JSON text, and a JSON text can be read as a configuration.  All
of it comes back but for the tolerance, which comes back as the finite double that its number is
read as (`Binary64.reread?`).  That is the same double when the tolerance has few digits or is
the default one, and it need not be otherwise: `1e-30` comes back as its lower neighbour.

* `Configuration.printed_reread`: what is read from what was printed;
* `Configuration.printed_reread_otherwise`: a tolerance that is read as another one.
-/
import Calculator.Command
import Calculator.Proofs.Json.Range
import Calculator.Proofs.Json.Records

namespace Calculator

set_option autoImplicit false

open Json (Layout Value)

/-- The double that the number of a double is read as. -/
def Binary64.reread? (x : Binary64) : Option Binary64 := (Value.ofBinary64 x).toBinary64?

theorem Binary64.reread?_of_few (negative : Bool) {m : Magnitude} (few : m.FewDigits) :
    (Binary64.finite negative m).reread? = some (.finite negative m) :=
  Json.Number.toBinary64?_ofFinite negative few

/-- The default tolerance is too small to be one of few digits, but it too is read back. -/
theorem Binary64.reread?_defaultBound :
    Tolerance.defaultBound.reread? = some Tolerance.defaultBound := by
  decide +kernel

namespace Settings

/-- The settings that a text is read as. -/
def ofText? (text : String) : Option Settings := (Value.ofText? text).bind ofJson?

/-- The settings with a tolerance, whatever its sign. -/
def withTolerance (s : Settings) (tolerance : Binary64) : Settings :=
  { s with zeroTolerance := tolerance }

theorem ofText?_written {s : Settings} (fits : s.capacity < Json.Number.wordLimit)
    (layout : Layout) :
    ofText? (String.ofList (s.toJson.written layout)) =
      s.zeroTolerance.reread?.map s.withTolerance := by
  rw [ofText?, Value.ofText?_written s.legible_toJson, Option.bind_some, s.ofJson?_toJson fits]
  rfl

end Settings

namespace Configuration

/-- The configuration that a text is read as. -/
def ofText? (text : String) : Option Configuration := (Value.ofText? text).bind ofJson?

/-- The configuration with a tolerance in its settings. -/
def withTolerance (c : Configuration) (tolerance : Binary64) : Configuration :=
  { c with session := c.session.withTolerance tolerance }

theorem withTolerance_self (c : Configuration) :
    c.withTolerance c.session.zeroTolerance = c := rfl

theorem withTolerance_withTolerance (c : Configuration) (x y : Binary64) :
    (c.withTolerance x).withTolerance y = c.withTolerance y := rfl

theorem ofText?_written {c : Configuration} (fits : c.session.capacity < Json.Number.wordLimit)
    (layout : Layout) :
    ofText? (String.ofList (c.toJson.written layout)) =
      c.session.zeroTolerance.reread?.map c.withTolerance := by
  rw [ofText?, Value.ofText?_written c.legible_toJson, Option.bind_some, c.ofJson?_toJson,
    c.session.ofJson?_toJson fits, Option.map_map]
  rfl

/-- **What is printed of a configuration is read as that configuration**, in every field but the
tolerance, and in that field too when the tolerance has few digits, or is the default one.  The
settings alone are read back as much, in either layout.  No finite tolerance makes the text
unreadable. -/
theorem printed_reread {c : Configuration} (finite : c.session.zeroTolerance.isFinite)
    (fits : c.session.capacity < Json.Number.wordLimit) :
    ∃ (text : String) (tolerance : Binary64),
      Command.executeConfig c = .done [text] ∧
        ofText? text = some (c.withTolerance tolerance) ∧
        (∀ layout, Settings.ofText? (String.ofList (c.session.toJson.written layout)) =
          some (c.session.withTolerance tolerance)) ∧
        tolerance.isFinite ∧
        (∀ negative m, c.session.zeroTolerance = .finite negative m → m.FewDigits →
          tolerance = c.session.zeroTolerance) ∧
        (c.session.zeroTolerance = Tolerance.defaultBound →
          tolerance = c.session.zeroTolerance) := by
  have printed := ofText?_written fits (.pretty 0)
  have settings := Settings.ofText?_written fits
  generalize c.session.zeroTolerance = x at *
  obtain ⟨negative, m, rfl⟩ := Binary64.exists_finite finite
  obtain ⟨tolerance, read, result⟩ := Json.Number.toBinary64?_ofFinite_isSome negative m
  have read : (Binary64.finite negative m).reread? = some tolerance := read
  rw [read] at printed
  refine ⟨_, tolerance, rfl, printed, ?_, result, ?_, ?_⟩
  · intro layout
    rw [settings layout, read, Option.map_some]
  · intro sign n same few
    rw [same, Binary64.reread?_of_few sign few] at read
    rw [same]
    exact (Option.some.inj read).symm
  · intro default
    rw [default, Binary64.reread?_defaultBound] at read
    rw [default]
    exact (Option.some.inj read).symm

/-- A thousandth is read back from `0.001`. -/
theorem printed_reread_thousandth :
    (default.withTolerance (.ofBits 0x3f50624dd2f1a9fc)).session.zeroTolerance.isFinite ∧
      (default.withTolerance (.ofBits 0x3f50624dd2f1a9fc)).session.capacity <
        Json.Number.wordLimit ∧
      ∃ text, Command.executeConfig (default.withTolerance (.ofBits 0x3f50624dd2f1a9fc)) =
          .done [text] ∧
        ofText? text = some (default.withTolerance (.ofBits 0x3f50624dd2f1a9fc)) := by
  have finite :
      (default.withTolerance (.ofBits 0x3f50624dd2f1a9fc)).session.zeroTolerance.isFinite := by
    decide +kernel
  have fits : (default.withTolerance (.ofBits 0x3f50624dd2f1a9fc)).session.capacity <
      Json.Number.wordLimit := by decide
  obtain ⟨text, tolerance, printed, read, -, -, exact, -⟩ := printed_reread finite fits
  have few : Magnitude.FewDigits ⟨0x10624dd2f1a9fc, 1012, by decide⟩ := by decide +kernel
  refine ⟨finite, fits, text, printed, ?_⟩
  rw [exact false _ (by decide +kernel) few, withTolerance_self] at read
  exact read

/-- The number `1e-30` is not read as the double nearest to it, but as the one below. -/
theorem reread?_otherwise :
    (Binary64.ofBits 0x39b4484bfeebc2a0).reread? = some (.ofBits 0x39b4484bfeebc29f) := by
  decide +kernel

/-- A tolerance of `1e-30` is usable and is printed as such, but what is read from the text is
another configuration. -/
theorem printed_reread_otherwise :
    (default.withTolerance (.ofBits 0x39b4484bfeebc2a0)).fault? = none ∧
      ∃ text, Command.executeConfig (default.withTolerance (.ofBits 0x39b4484bfeebc2a0)) =
          .done [text] ∧
        ofText? text = some (default.withTolerance (.ofBits 0x39b4484bfeebc29f)) ∧
        ofText? text ≠ some (default.withTolerance (.ofBits 0x39b4484bfeebc2a0)) := by
  have read : ofText? (default.withTolerance (.ofBits 0x39b4484bfeebc2a0)).toJson.pretty =
      some (default.withTolerance (.ofBits 0x39b4484bfeebc29f)) := by
    have fits : (default.withTolerance (.ofBits 0x39b4484bfeebc2a0)).session.capacity <
        Json.Number.wordLimit := by decide
    have written := ofText?_written fits (.pretty 0)
    have tolerance : (default.withTolerance (.ofBits 0x39b4484bfeebc2a0)).session.zeroTolerance =
        .ofBits 0x39b4484bfeebc2a0 := rfl
    rw [tolerance, reread?_otherwise, Option.map_some, withTolerance_withTolerance] at written
    exact written
  refine ⟨by decide +kernel, _, rfl, read, ?_⟩
  rw [read]
  decide +kernel

end Configuration

end Calculator
