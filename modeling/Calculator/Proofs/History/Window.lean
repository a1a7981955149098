/-
# Calculator.Proofs.History.Window -- a history holds the end of a log

A history forgets.  Of all entries that were added to it, its log, it holds the latest
ones, as many as it has room for (`History.Holds`).  Adding an entry to the log and to the
history keeps it so, because the only entry that leaves the history is its oldest one, and
only when there is no room.

* `Holds.push`: one more entry;
* `Holds.last?_eq`: the newest entry of the history is that of the log;
* `pushEach_entries`: what was handed back, then what is held, is what was added.
-/
import Mathlib.Data.List.Basic
import Calculator.Machine

namespace Calculator.History

set_option autoImplicit false

/-! ## One entry -/

section Push

variable (history : History) (entry : Entry)

theorem push_suffix : (history.push entry).1.entries <:+ history.entries ++ [entry] :=
  ⟨_, history.push_entries entry⟩

theorem length_push : (history.push entry).1.entries.length =
    min history.capacity (history.entries.length + 1) := by
  have within := history.within
  simp only [push]
  split
  · rename_i room
    simp only [List.length_append, List.length_singleton] at room ⊢
    omega
  · rename_i full
    simp only [List.length_tail, List.length_append, List.length_singleton] at full ⊢
    omega

end Push

/-- Without any room an entry is handed straight back. -/
theorem push_empty_zero (entry : Entry) : (empty 0).push entry = (empty 0, some entry) := rfl

/-! ## The end of a log -/

/-- The history holds the latest entries of a log, as many as it has room for. -/
structure Holds (history : History) (log : List Entry) : Prop where
  latest : history.entries <:+ log
  length_eq : history.entries.length = min history.capacity log.length

theorem holds_empty (capacity : Nat) : (empty capacity).Holds [] where
  latest := List.suffix_refl []
  length_eq := by simp [empty]

/-- A history holds its own entries. -/
theorem holds_entries (history : History) : history.Holds history.entries where
  latest := List.suffix_refl _
  length_eq := (Nat.min_eq_right history.within).symm

namespace Holds

variable {history : History} {log : List Entry} (holds : history.Holds log)
include holds

theorem push (entry : Entry) : (history.push entry).1.Holds (log ++ [entry]) where
  latest := by
    obtain ⟨forgotten, rfl⟩ := holds.latest
    have kept := history.push_suffix entry
    rw [List.append_assoc]
    exact kept.trans (List.suffix_append forgotten _)
  length_eq := by
    have before := holds.length_eq
    rw [length_push, push_capacity, List.length_append, List.length_singleton]
    omega

/-- The newest entry of the log is held, if any entry is. -/
theorem last?_eq : history.last? = if history.capacity = 0 then none else log.getLast? := by
  have length_eq := holds.length_eq
  obtain ⟨forgotten, rfl⟩ := holds.latest
  rw [List.length_append] at length_eq
  rw [last?]
  split
  · rename_i noRoom
    have none : history.entries = [] := List.length_eq_zero_iff.mp (by omega)
    rw [none]
    rfl
  · rename_i room
    obtain none | ⟨older, newest, both⟩ := List.eq_nil_or_concat' history.entries
    · -- nothing is held although there is room: nothing was logged
      rw [none, List.length_nil] at length_eq
      have nothing : forgotten = [] := List.length_eq_zero_iff.mp (by omega)
      rw [none, nothing]
      rfl
    · rw [both, ← List.append_assoc, List.getLast?_concat, List.getLast?_concat]

end Holds

/-! ## Many entries -/

/-- Adds entries one after the other; what they hand back is collected in order. -/
def pushEach (history : History) : List Entry → History × List Entry
  | [] => (history, [])
  | entry :: entries =>
      let (added, oldest?) := history.push entry
      let (final, evicted) := added.pushEach entries
      (final, oldest?.toList ++ evicted)

/-- Adding entries to the log and to the history keeps the history at the end of the log. -/
theorem Holds.pushEach {history : History} {log : List Entry} (holds : history.Holds log)
    (entries : List Entry) : (history.pushEach entries).1.Holds (log ++ entries) := by
  induction entries generalizing history log with
  | nil => rwa [List.append_nil]
  | cons entry entries ih =>
      have rest := ih (holds.push entry)
      rwa [List.append_assoc, List.singleton_append] at rest

/-- **Nothing is lost, and nothing is moved.**  What was handed back, followed by what is
held, is what was held before, followed by what was added. -/
theorem pushEach_entries (history : History) (entries : List Entry) :
    (history.pushEach entries).2 ++ (history.pushEach entries).1.entries =
      history.entries ++ entries := by
  induction entries generalizing history with
  | nil => simp [pushEach]
  | cons entry entries ih =>
      have one := history.push_entries entry
      have rest := ih (history.push entry).1
      calc
        (history.pushEach (entry :: entries)).2 ++ (history.pushEach (entry :: entries)).1.entries
          = (history.push entry).2.toList ++ (((history.push entry).1.pushEach entries).2 ++
              ((history.push entry).1.pushEach entries).1.entries) := List.append_assoc ..
        _ = ((history.push entry).2.toList ++ (history.push entry).1.entries) ++ entries := by
              rw [rest, List.append_assoc]
        _ = history.entries ++ entry :: entries := by
              rw [one, List.append_assoc, List.singleton_append]

end Calculator.History
