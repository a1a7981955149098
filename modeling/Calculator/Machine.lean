/-
# Calculator.Machine -- a calculation with its history

A history holds at most `capacity` entries, the oldest first.  It asks for room for
all of them when it is made, and a program that asks for more than can be addressed is
stopped; short of that there is taken to be room.

A machine is a calculation, the history of those completed before it, and the
tolerance that divisors are held to.

* `History.push_entries`: what is handed back and what is held are together what was
  there before and the added entry, in order.
-/
import Calculator.Calculation

namespace Calculator

set_option autoImplicit false

/-! ## Histories -/

/-- A completed calculation: the expression and its shown result. -/
structure Entry where
  expression : String
  result : String
  deriving DecidableEq, Repr

def Entry.text (entry : Entry) : String := entry.expression ++ " = " ++ entry.result

structure History where
  capacity : Nat
  entries : List Entry
  within : entries.length ≤ capacity
  deriving DecidableEq

namespace History

def defaultCapacity : Nat := 30

/-- An entry takes forty-eight bytes, and addresses end at `2 ^ 63 - 1`. -/
def greatestCapacity : Nat := 0x7fffffffffffffff / 48

/-- The empty history, whether or not there can be room for its entries. -/
def empty (capacity : Nat) : History := ⟨capacity, [], Nat.zero_le _⟩

/-- The empty history with room for all its entries, if there can be so much. -/
def withRoom? (capacity : Nat) : Option History :=
  if capacity ≤ greatestCapacity then some (empty capacity) else none

def clear (history : History) : History := empty history.capacity

def last? (history : History) : Option Entry := history.entries.getLast?

/-- Adds an entry at the end; beyond the capacity the oldest is handed back. -/
def push (history : History) (entry : Entry) : History × Option Entry :=
  let all := history.entries ++ [entry]
  if room : all.length ≤ history.capacity then
    (⟨history.capacity, all, room⟩, none)
  else
    (⟨history.capacity, all.tail, by
      have := history.within
      simp only [all, List.length_tail, List.length_append, List.length_singleton]
      omega⟩, all.head?)

/-- The entries as equations, one on each line. -/
def listing (history : History) : String :=
  "\n".intercalate (history.entries.map Entry.text)

@[simp]
theorem push_capacity (history : History) (entry : Entry) :
    (history.push entry).1.capacity = history.capacity := by
  simp only [push]
  split <;> rfl

theorem push_entries (history : History) (entry : Entry) :
    (history.push entry).2.toList ++ (history.push entry).1.entries =
      history.entries ++ [entry] := by
  simp only [push]
  split
  · simp
  · dsimp only
    cases history.entries <;> simp

end History

/-! ## Machines -/

structure Machine where
  calculation : Calculation
  history : History
  tolerance : Tolerance
  deriving DecidableEq

/-- What evaluating came to. -/
inductive Outcome where
  | skipped
  | failed (fault : Fault)
  | success (value : Binary64) (entry : Entry)
  deriving DecidableEq

namespace Machine

def start (capacity : Nat) (tolerance : Tolerance) : Machine :=
  ⟨.empty, .empty capacity, tolerance⟩

/-- The machine at the start, if there can be room for its history. -/
def start? (capacity : Nat) (tolerance : Tolerance) : Option Machine :=
  (History.withRoom? capacity).map fun history => ⟨.empty, history, tolerance⟩

def display (m : Machine) : String := m.calculation.display

/-- Edits the calculation and nothing else. -/
def edit (m : Machine) (change : Calculation → Calculation) : Machine :=
  { m with calculation := change m.calculation }

/-- The numeral being typed is settled first.  A success is logged and leaves its value
as the calculation; a fault takes the numeral back, if one was settled, and an
incomplete expression counts as nothing to evaluate. -/
def evaluate (m : Machine) : Machine × Outcome :=
  let settled := m.calculation.commit
  match settled.tokens.getLast? with
  | none => ({ m with calculation := settled }, .skipped)
  | some (.operator _) => ({ m with calculation := settled }, .skipped)
  | some (.numeral _) =>
    match Calculator.evaluate m.tolerance settled.tokens with
    | .ok value =>
        let entry : Entry := ⟨Token.render settled.tokens, Numeral.shown value⟩
        ({ m with calculation := .ofValue value, history := (m.history.push entry).1 },
          .success value entry)
    | .error fault =>
        let undone := if m.calculation.numeral.isEmpty then settled else settled.reopen
        ({ m with calculation := undone },
          if fault = .incomplete then .skipped else .failed fault)

/-- Forgets the completed calculations; the current one stays. -/
def clearHistory (m : Machine) : Machine := { m with history := m.history.clear }

theorem start?_eq (capacity : Nat) (tolerance : Tolerance) :
    start? capacity tolerance =
      if capacity ≤ History.greatestCapacity then some (start capacity tolerance) else none := by
  unfold start? History.withRoom?
  split <;> rfl

end Machine

end Calculator
