/-
# Calculator.Proofs.History.Export -- the entries in an export

A history is exported as a JSON array with an object for each entry, the oldest first.  The
texts of the entries may hold anything: quotes, brackets, line feeds, or what looks like JSON
itself.  None of it is lost, because the array is read as the tree that was written, and each
of its objects as the entry that it was made from.

* `toJson_lossless`: what is read from an export, and what two equal exports say.
-/
import Calculator.Proofs.Json.Records

namespace Calculator.History

set_option autoImplicit false

open Json (Value)

/-- Each object of the array is read as its entry. -/
theorem map_ofJson?_toJson (entries : List Entry) :
    (entries.map Entry.toJson).map Entry.ofJson? = entries.map some := by
  rw [List.map_map]
  exact List.map_congr_left fun entry _ => entry.ofJson?_toJson

/-- The text of an export is the text of the array. -/
theorem ofText?_export (history : History) :
    Value.ofText? history.toJson.pretty = some (.array (history.entries.map Entry.toJson)) :=
  Value.ofText?_pretty history.legible_toJson

theorem export_congr {history other : History} (same : history.entries = other.entries) :
    history.toJson.pretty = other.toJson.pretty := by
  rw [toJson, toJson, same]

/-- Equal exports hold equal entries. -/
theorem entries_of_export {history other : History}
    (same : history.toJson.pretty = other.toJson.pretty) : history.entries = other.entries := by
  have left := history.ofText?_export
  have right := other.ofText?_export
  rw [same, right] at left
  have trees : other.entries.map Entry.toJson = history.entries.map Entry.toJson :=
    Value.array.inj (Option.some.inj left)
  have entries : other.entries.map some = history.entries.map some := by
    rw [← map_ofJson?_toJson, trees, map_ofJson?_toJson]
  exact (List.map_injective_iff.mpr (fun _ _ => Option.some.inj) entries).symm

/-- **An export loses nothing.**  It is the text of an array whose items are read as the entries
of the history, in order; it is `[]` when there are none; and two histories have one export only
if they hold the same entries. -/
theorem toJson_lossless (history : History) :
    (∃ items, Value.ofText? history.toJson.pretty = some (.array items) ∧
        items.map Entry.ofJson? = history.entries.map some) ∧
      (history.toJson.pretty = "[]" ↔ history.entries = []) ∧
      ∀ other : History,
        history.toJson.pretty = other.toJson.pretty ↔ history.entries = other.entries := by
  have alike (other : History) :
      history.toJson.pretty = other.toJson.pretty ↔ history.entries = other.entries :=
    ⟨entries_of_export, export_congr⟩
  have nothing : (empty history.capacity).toJson.pretty = "[]" := rfl
  refine ⟨⟨_, history.ofText?_export, map_ofJson?_toJson _⟩, ?_, alike⟩
  rw [← nothing]
  exact alike (empty history.capacity)

end Calculator.History
