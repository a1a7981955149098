/-
# Calculator.Proofs.Session.Listing -- the history as equations, one on each line

The listing of a history escapes nothing.  It can be taken apart all the same, because of what a
session logs: no expression and no result has a line feed or an equals sign in it
(`Session.Spelled`).  So the line feeds of a listing are those between two entries, and the one
equals sign of a line is the one between its two sides.

* `History.separated_listing`: the lines are the entries, in order;
* `Entry.Spelled.cut_iff`: a line can be cut in one way only;
* `listing_unambiguous`: the listing of every run.
-/
import Mathlib.Data.List.Basic
import Calculator.Proofs.Session.Alphabet

namespace Calculator

set_option autoImplicit false

/-! ## One line -/

namespace Spelled

variable {text : String} (spelled : Spelled text)
include spelled

theorem no_equals : '=' ∉ text.toList := fun member => absurd (spelled '=' member) (by decide)

theorem no_lineFeed : '\n' ∉ text.toList := fun member => absurd (spelled '\n' member) (by decide)

end Spelled

namespace Entry

theorem toList_text (entry : Entry) : entry.text.toList =
    (entry.expression.toList ++ [' ']) ++ '=' :: ' ' :: entry.result.toList := by
  simp [text]

namespace Spelled

variable {entry : Entry} (spelled : entry.Spelled)
include spelled

theorem no_lineFeed : '\n' ∉ entry.text.toList := by
  simp [toList_text, spelled.expression.no_lineFeed, spelled.result.no_lineFeed]

theorem count_equals : entry.text.toList.count '=' = 1 := by
  have left := List.count_eq_zero.mpr spelled.expression.no_equals
  have right := List.count_eq_zero.mpr spelled.result.no_equals
  simp [toList_text, left, right]

/-- A line is cut at its equals sign, and there is one. -/
theorem cut_iff {front back : String} :
    front ++ " = " ++ back = entry.text ↔ front = entry.expression ∧ back = entry.result := by
  have left : '=' ∉ entry.expression.toList ++ [' '] := by
    simp [spelled.expression.no_equals]
  have right : '=' ∉ ' ' :: entry.result.toList := by
    simp [spelled.result.no_equals]
  constructor
  · intro same
    have lists : entry.expression.toList ++ [' '] ++ '=' :: (' ' :: entry.result.toList) =
        front.toList ++ [' '] ++ '=' :: (' ' :: back.toList) := by
      rw [← toList_text, ← same]
      simp
    obtain ⟨expressions, -, results⟩ := (List.append_cons_inj_of_notMem left right).mp lists
    exact ⟨(String.toList_inj.mp (List.append_cancel_right expressions)).symm,
      (String.toList_inj.mp (List.cons.inj results).2).symm⟩
  · rintro ⟨rfl, rfl⟩
    rfl

end Spelled

end Entry

/-! ## All lines -/

/-- The lines of a text in which single line feeds stand between them; no text has none. -/
def Text.separated (text : String) : List String :=
  if text = "" then [] else (text.toList.splitOn '\n').map String.ofList

/-- Texts without line feeds are the lines of what they are joined to. -/
theorem Text.separated_intercalate {texts : List String}
    (legible : ∀ text ∈ texts, text ≠ "" ∧ '\n' ∉ text.toList) :
    separated ("\n".intercalate texts) = texts := by
  by_cases none : texts = []
  · rw [none]
    rfl
  · have pieces : ("\n".intercalate texts).toList.splitOn '\n' = texts.map String.toList := by
      rw [String.toList_intercalate]
      apply List.splitOn_intercalate
      · intro piece member
        obtain ⟨text, inTexts, rfl⟩ := List.mem_map.mp member
        exact (legible text inTexts).2
      · simpa using none
    have something : "\n".intercalate texts ≠ "" := by
      intro empty
      -- no text is one empty piece
      rw [empty] at pieces
      have single : texts.map String.toList = [[]] := pieces.symm
      obtain ⟨text, rfl, nothing⟩ := List.map_eq_singleton_iff.mp single
      exact (legible text (List.mem_singleton_self _)).1 (String.toList_eq_nil_iff.mp nothing)
    rw [separated, if_neg something, pieces, List.map_map]
    exact (List.map_congr_left fun text _ => text.ofList_toList).trans (List.map_id texts)

/-- An entry that is spelled is told by its line. -/
theorem Entry.eq_of_text {entry other : Entry} (spelled : entry.Spelled)
    (same : other.text = entry.text) : other = entry := by
  obtain ⟨expression, result⟩ := spelled.cut_iff.mp same
  cases entry
  cases other
  cases expression
  cases result
  rfl

theorem Entry.eq_of_texts {entries others : List Entry} (spelled : ∀ entry ∈ entries, entry.Spelled)
    (same : others.map text = entries.map text) : others = entries := by
  induction entries generalizing others with
  | nil => exact List.map_eq_nil_iff.mp same
  | cons entry entries ih =>
      obtain ⟨other, rest, rfl, first, later⟩ := List.map_eq_cons_iff.mp same
      rw [eq_of_text (spelled entry List.mem_cons_self) first,
        ih (fun entry member => spelled entry (List.mem_cons_of_mem _ member)) later]

namespace History

variable {history other : History} (spelled : ∀ entry ∈ history.entries, entry.Spelled)
include spelled

/-- The lines of the listing are the entries, in order. -/
theorem separated_listing : Text.separated history.listing = history.entries.map Entry.text := by
  apply Text.separated_intercalate
  intro text member
  obtain ⟨entry, inEntries, rfl⟩ := List.mem_map.mp member
  exact ⟨by simp [Entry.text], (spelled entry inEntries).no_lineFeed⟩

/-- The listing tells the entries. -/
theorem entries_of_listing (spelled' : ∀ entry ∈ other.entries, entry.Spelled)
    (same : history.listing = other.listing) : history.entries = other.entries := by
  have lines : history.entries.map Entry.text = other.entries.map Entry.text := by
    rw [← separated_listing spelled, same, separated_listing spelled']
  exact Entry.eq_of_texts spelled' lines

end History

namespace Session

theorem spelled_after (settings : Settings) (steps : List Step) :
    ((start settings).after steps).Spelled := by
  refine after_induction Session.Spelled (spelled_start settings) ?_ steps
  intro s step spelled
  cases step with
  | press key => exact spelled.press key
  | clearHistory => exact spelled.clearHistory

/-- **The listing of a session can be taken apart.**  It has a line for each entry, in order, and
none when there is none; each line has one equals sign, and can be cut around it in one way only,
into the expression and the result of its entry.  So two sessions with one listing hold the same
entries. -/
theorem listing_unambiguous (settings : Settings) (steps : List Step) :
    let history := ((start settings).after steps).history
    (history.listing = "" ↔ history.entries = []) ∧
      Text.separated history.listing = history.entries.map Entry.text ∧
      (∀ entry ∈ history.entries, entry.text.toList.count '=' = 1 ∧
        ∀ front back, front ++ " = " ++ back = entry.text ↔
          front = entry.expression ∧ back = entry.result) ∧
      ∀ settings' steps',
        let other := ((start settings').after steps').history
        history.listing = other.listing ↔ history.entries = other.entries := by
  intro history
  have spelled := (spelled_after settings steps).entries
  have alike (settings' : Settings) (steps' : List Step) :
      let other := ((start settings').after steps').history
      history.listing = other.listing ↔ history.entries = other.entries :=
    ⟨History.entries_of_listing spelled (spelled_after settings' steps').entries,
      fun same => by rw [History.listing, History.listing, same]⟩
  refine ⟨alike settings [], History.separated_listing spelled, fun entry member => ?_, alike⟩
  exact ⟨(spelled entry member).count_equals, fun front back => (spelled entry member).cut_iff⟩

/-- Two lines: a minus beside a sign, and a result that goes on. -/
theorem listing_unambiguous_signs :
    let steps : List Step := [.digit 2, .operator .subtract, .digit 5, .toggleSign, .evaluate,
      .operator .divide, .digit 3, .evaluate].map .press
    let history := ((start .default).after steps).history
    let entry : Entry := ⟨"2 - -5", "7"⟩
    Text.separated history.listing = ["2 - -5 = 7", "7 ÷ 3 = 2.33333333333333"] ∧
      entry ∈ history.entries ∧
      ∀ front back, front ++ " = " ++ back = "2 - -5 = 7" ↔ front = "2 - -5" ∧ back = "7" := by
  intro steps history entry
  have entries : history.entries = [entry, ⟨"7 ÷ 3", "2.33333333333333"⟩] := by decide +kernel
  have member : entry ∈ history.entries := by simp [entries]
  obtain ⟨-, lines, each, -⟩ := listing_unambiguous .default steps
  rw [entries] at lines
  exact ⟨lines, member, (each entry member).2⟩

end Session

end Calculator
