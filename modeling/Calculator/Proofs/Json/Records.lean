/-
# Calculator.Proofs.Json.Records -- records are read back field by field

A record is written as an object with one member for each of its fields.  No two fields have
one name, so each is found by its name (`fields?_ofFields`), and what remains of reading a
record is reading its fields.  Whether they are read back is said record by record: the texts
and the whole numbers are, and of a tolerance it depends on the number that it is written as
(`Settings.ofJson?_toJson`).

* `Entry.ofJson?_toJson`, `Settings.ofJson?_toJson`, `Configuration.ofJson?_toJson`;
* `Entry.legible_toJson`, `History.legible_toJson`, `Configuration.legible_toJson`: their trees
  can be written and read again.
-/
import Mathlib.Data.List.Nodup
import Calculator.Encoding
import Calculator.Proofs.Json.Rereading

namespace Calculator

set_option autoImplicit false

namespace Json

theorem chars?_pieces (text : String) : chars? (pieces text) = some text.toList :=
  chars?_map_char text.toList

namespace Value

/-! ## Fields -/

/-- The keys of a record are texts. -/
theorem namedMembers?_fields (fields : List (String × Value)) :
    namedMembers? (fields.map fun (key, value) => (pieces key, value)) = some fields := by
  induction fields with
  | nil => rfl
  | cons field fields ih =>
      obtain ⟨name, value⟩ := field
      rw [List.map_cons, namedMembers?, chars?_pieces, ih]
      simp

/-- A field is found by its name, if no other one has that name. -/
theorem member?_of_mem {fields : List (String × Value)}
    (distinct : (fields.map Prod.fst).Nodup) {name : String} {value : Value}
    (member : (name, value) ∈ fields) : member? fields name = some (some value) := by
  have alone : fields.filter (·.1 == name) = [(name, value)] := by
    induction fields with
    | nil => cases member
    | cons field fields ih =>
        rw [List.map_cons, List.nodup_cons] at distinct
        rcases List.mem_cons.mp member with rfl | behind
        · have others : fields.filter (·.1 == name) = [] := by
            rw [List.filter_eq_nil_iff]
            rintro ⟨other, value⟩ inside same
            rw [beq_iff_eq] at same
            subst same
            exact distinct.1 (List.mem_map.mpr ⟨_, inside, rfl⟩)
          rw [List.filter_cons_of_pos (by simp), others]
        · have apart : field.1 ≠ name := by
            rintro rfl
            exact distinct.1 (List.mem_map.mpr ⟨_, behind, rfl⟩)
          rw [List.filter_cons_of_neg (by simpa using apart), ih distinct.2 behind]
  rw [member?, alone]

/-- **The fields of a record are found again**, in their order. -/
theorem fields?_ofFields {names : List String} (distinct : names.Nodup)
    {fields : List (String × Value)} (named : fields.map Prod.fst = names) :
    fields? names (ofFields fields) = some (fields.map fun field => some field.2) := by
  subst named
  have each : ∀ front, front ⊆ fields →
      (front.map Prod.fst).mapM (member? fields) = some (front.map fun field => some field.2) := by
    intro front inside
    induction front with
    | nil => rfl
    | cons field rest ih =>
        rw [List.cons_subset] at inside
        rw [List.map_cons, List.mapM_cons, member?_of_mem distinct inside.1, ih inside.2]
        rfl
  rw [ofFields, fields?, namedMembers?_fields]
  exact each fields (List.Subset.refl fields)

/-! ## Legible records -/

theorem legible_ofString (text : String) : (ofString text).Legible := .string (isText_pieces text)

theorem legible_ofFields {fields : List (String × Value)}
    (each : ∀ field ∈ fields, field.2.Legible) : (ofFields fields).Legible := by
  refine .object ?_ ?_
  · intro member inside
    obtain ⟨field, -, rfl⟩ := List.mem_map.mp inside
    exact isText_pieces field.1
  · intro member inside
    obtain ⟨field, original, rfl⟩ := List.mem_map.mp inside
    exact each field original

theorem legible_ofBinary64 (x : Binary64) : (ofBinary64 x).Legible := by
  cases x with
  | nan => exact .null
  | infinity negative => exact .null
  | finite negative m => exact .number (Number.legible_ofFinite negative m)

/-- A name of several is read as the choice that has it. -/
theorem choice?_ofString {α : Type} {name : α → String} {choices : List α} {choice : α}
    (found : choices.find? (fun other => name other == name choice) = some choice) :
    choice? name choices (ofString (name choice)) = some choice := by
  unfold choice?
  split
  · rename_i key object
    cases object
  · simp only [text?_ofString]
    exact found

end Value

end Json

open Json (Value)

/-! ## Entries -/

theorem Entry.legible_toJson (entry : Entry) : entry.toJson.Legible := by
  apply Value.legible_ofFields
  simp [Value.legible_ofString]

/-- An entry is read back from its object. -/
theorem Entry.ofJson?_toJson (entry : Entry) : Entry.ofJson? entry.toJson = some entry := by
  have found : entry.toJson.fields? Entry.fieldNames =
      some [some (.ofString entry.expression), some (.ofString entry.result)] :=
    Value.fields?_ofFields (by decide) rfl
  rw [Entry.ofJson?, found]
  simp [Value.field?, Json.Value.text?_ofString]

theorem History.legible_toJson (history : History) : history.toJson.Legible := by
  refine .array ?_
  intro item inside
  obtain ⟨entry, -, rfl⟩ := List.mem_map.mp inside
  exact entry.legible_toJson

/-! ## Settings -/

theorem Settings.legible_toJson (s : Settings) : s.toJson.Legible := by
  apply Value.legible_ofFields
  simp [Value.legible_ofString, Value.legible_ofBinary64,
    Value.Legible.number (Json.Number.legible_ofNatural s.capacity)]

/-- Settings are read back, with the tolerance that its number is read as. -/
theorem Settings.ofJson?_toJson (s : Settings) (fits : s.capacity < Json.Number.wordLimit) :
    Settings.ofJson? s.toJson =
      (Value.ofBinary64 s.zeroTolerance).toBinary64?.map fun tolerance =>
        { s with zeroTolerance := tolerance } := by
  have found : s.toJson.fields? Settings.fieldNames =
      some [some (.number (Json.Number.ofNatural s.capacity)), some (.ofBinary64 s.zeroTolerance),
        some (.ofString s.errorIndicator)] := Value.fields?_ofFields (by decide) rfl
  rw [Settings.ofJson?, found]
  simp only [Value.field?, Json.Value.text?_ofString, Value.natural?,
    Json.Number.natural?_ofNatural fits]
  cases (Value.ofBinary64 s.zeroTolerance).toBinary64? <;> rfl

/-! ## Configurations -/

theorem Configuration.legible_toJson (c : Configuration) : c.toJson.Legible := by
  apply Value.legible_ofFields
  simp [Value.legible_ofString, Value.Legible.bool, Settings.legible_toJson]

/-- A configuration is read back, with the settings that are. -/
theorem Configuration.ofJson?_toJson (c : Configuration) :
    Configuration.ofJson? c.toJson =
      (Settings.ofJson? c.session.toJson).map fun session => { c with session := session } := by
  have found : c.toJson.fields? Configuration.fieldNames =
      some [some (.ofString c.verbosity.jsonName), some (.ofString c.color.jsonName),
        some (.bool c.logJson), some c.session.toJson] := Value.fields?_ofFields (by decide) rfl
  have verbosity : Value.choice? Verbosity.jsonName Verbosity.all
      (.ofString c.verbosity.jsonName) = some c.verbosity :=
    Value.choice?_ofString (by cases c.verbosity <;> decide)
  have color : Value.choice? ColorChoice.jsonName ColorChoice.all
      (.ofString c.color.jsonName) = some c.color :=
    Value.choice?_ofString (by cases c.color <;> decide)
  rw [Configuration.ofJson?, found]
  simp only [Value.field?, verbosity, color, Value.bool?]
  cases Settings.ofJson? c.session.toJson <;> rfl

end Calculator
