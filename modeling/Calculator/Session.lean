/-
# Calculator.Session -- keys pressed, displays shown

A session is a machine with a second display, for results.  It changes only when a
calculation is completed, to its result, when one fails, to the error indicator, and
when the calculator is cleared, to `0`.  Every key answers with a frame.  A script
answers with the frame of its last key, or with the fault that keeps it from being
read; beside that stands the session that it leaves.
-/
import Calculator.Keypad
import Calculator.Machine

namespace Calculator

set_option autoImplicit false

/-- What a session can be told.  The tolerance is kept as it was given; a session uses
its absolute value. -/
structure Settings where
  capacity : Nat
  zeroTolerance : Binary64
  errorIndicator : String
  deriving DecidableEq

namespace Settings

def default : Settings := ⟨History.defaultCapacity, Tolerance.defaultBound, "Error"⟩

def withCapacity (s : Settings) (capacity : Nat) : Settings := { s with capacity := capacity }

def withZeroTolerance (s : Settings) (tolerance : Binary64) : Settings :=
  { s with zeroTolerance := tolerance.abs }

def withErrorIndicator (s : Settings) (indicator : String) : Settings :=
  { s with errorIndicator := indicator }

end Settings

/-- Both displays after a key, and what the key did. -/
structure Frame where
  equation : String
  result : String
  appended : Option Entry
  failure : Option Fault
  deriving DecidableEq

structure Session where
  machine : Machine
  result : String
  settings : Settings
  deriving DecidableEq

namespace Session

/-- A session with nothing typed and nothing logged. -/
def start (settings : Settings) : Session :=
  ⟨.start settings.capacity (.of settings.zeroTolerance), emptyDisplay, settings⟩

/-- The session at the start, if there can be room for its history. -/
def start? (settings : Settings) : Option Session :=
  (Machine.start? settings.capacity (.of settings.zeroTolerance)).map fun machine =>
    ⟨machine, emptyDisplay, settings⟩

theorem start?_of_le {settings : Settings} (room : settings.capacity ≤ History.greatestCapacity) :
    start? settings = some (start settings) := by
  rw [start?, Machine.start?_eq, if_pos room]
  rfl

theorem start?_of_lt {settings : Settings} (large : History.greatestCapacity < settings.capacity) :
    start? settings = none := by
  rw [start?, Machine.start?_eq, if_neg (Nat.not_le.mpr large)]
  rfl

def equation (s : Session) : String := s.machine.display

def history (s : Session) : History := s.machine.history

/-- What is shown now. -/
def frame (s : Session) : Frame := ⟨s.equation, s.result, none, none⟩

/-! ## Keys -/

def edit (s : Session) (change : Calculation → Calculation) : Session :=
  { s with machine := s.machine.edit change }

def evaluate (s : Session) : Session × Frame :=
  match s.machine.evaluate with
  | (machine, .skipped) =>
      let s := { s with machine }
      (s, s.frame)
  | (machine, .failed fault) =>
      let s := { s with machine, result := s.settings.errorIndicator }
      (s, { s.frame with failure := some fault })
  | (machine, .success _ entry) =>
      let s := { s with machine, result := entry.result }
      (s, { s.frame with appended := some entry })

/-- What a key other than evaluate does. -/
def pressEdit (s : Session) : Key → Session
  | .digit value => s.edit (·.typeDigit value)
  | .point => s.edit (·.typeChar '.')
  | .operator op => s.edit (·.operate op)
  | .toggleSign => s.edit Calculation.toggleSign
  | .clearAll => { s.edit (fun _ => .empty) with result := emptyDisplay }
  | .evaluate => s

def press (s : Session) (key : Key) : Session × Frame :=
  if key = .evaluate then s.evaluate
  else
    let s := s.pressEdit key
    (s, s.frame)

/-- Presses keys in order; the frames are those of each key. -/
def pressEach (s : Session) : List Key → Session × List Frame
  | [] => (s, [])
  | key :: keys =>
      let (s, frame) := s.press key
      let (s, frames) := pressEach s keys
      (s, frame :: frames)

theorem pressEach_append (s : Session) (first second : List Key) :
    s.pressEach (first ++ second) =
      (((s.pressEach first).1.pressEach second).1,
        (s.pressEach first).2 ++ ((s.pressEach first).1.pressEach second).2) := by
  induction first generalizing s with
  | nil => rfl
  | cons key keys ih => simp only [List.cons_append, pressEach, ih]

theorem length_pressEach (s : Session) (keys : List Key) :
    (s.pressEach keys).2.length = keys.length := by
  induction keys generalizing s with
  | nil => rfl
  | cons key keys ih => simp only [pressEach, List.length_cons, ih]

/-- Presses keys in order; the frame is that of the last key, or what is shown
already when there are none. -/
def pressAll (s : Session) (keys : List Key) : Session × Frame :=
  let (after, frames) := s.pressEach keys
  (after, frames.getLast?.getD s.frame)

/-! ## Scripts -/

/-- Reads a script, and then presses its keys. -/
def runScript (s : Session) (script : String) : Session × Except Fault Frame :=
  match Script.keys script with
  | .error fault => (s, .error fault)
  | .ok keys =>
      let (s, frame) := s.pressAll keys
      (s, .ok frame)

/-- Forgets the completed calculations; the displays stay. -/
def clearHistory (s : Session) : Session := { s with machine := s.machine.clearHistory }

end Session

end Calculator
