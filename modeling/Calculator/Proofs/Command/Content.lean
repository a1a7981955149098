/-
# Calculator.Proofs.Command.Content -- what a command writes, and how

What `run` and `repl` write comes in blocks: a frame, alone or behind the key that it answers,
the report of a line that cannot be read, the history, or the keypad.  Which blocks they are
depends on the scripts, the lines and the settings of the session (`Content`).  How a block is
written depends on the report: in colours or not, with or without the reason of a failure
behind it, or not at all (`Report.write`).

The commands do both at once, block after block.  Here they are taken apart:

* `applyScripts_eq`, `runAll_eq`: scripts are read up to the first that cannot be, then pressed;
* `executeRun_eq`, `executeRepl_eq`: the answer of a command is its content, written;
* `executeRun_of_quiet`, `executeRepl_of_quiet`: nothing is written of it when quiet.
-/
import Calculator.Proofs.Command.Scripts

namespace Calculator

set_option autoImplicit false

open Terminal (Report)

/-! ## Blocks -/

/-- What is written in one go. -/
inductive Block where
  | frame (frame : Frame)
  | tracedFrame (key : Key) (frame : Frame)
  | unreadable (fault : Fault)
  | history (history : History)
  | keys

/-- The fault that a block shows, if it is a frame that failed. -/
def Block.failure? : Block → Option Fault
  | .frame shown => shown.failure
  | .tracedFrame _ shown => shown.failure
  | .unreadable _ => none
  | .history _ => none
  | .keys => none

namespace Terminal.Report

/-- A block without a reason. -/
def line (r : Report) : Block → String
  | .frame frame => r.frame frame
  | .tracedFrame key frame => r.tracedFrame key frame
  | .unreadable fault => "! " ++ fault.message
  | .history history => r.historyText history
  | .keys => r.keys

/-- The reason of a failure. -/
def note (r : Report) (fault : Fault) : String :=
  paint r.colored [.red] ("  " ++ fault.message)

/-- The line of a reason, if there is a failure and reasons are written. -/
def reasons (r : Report) (failure? : Option Fault) : List String :=
  if r.explains then (failure?.map r.note).toList else []

/-- A block, and behind it the reason of its failure. -/
def blockLines (r : Report) (block : Block) : List String := r.line block :: r.reasons block.failure?

/-- Blocks one after the other, unless the report is quiet. -/
def write (r : Report) (blocks : List Block) : List String :=
  if r.quiet then [] else blocks.flatMap r.blockLines

section Write

variable (r : Report)

@[simp]
theorem write_nil : r.write [] = [] := by
  simp [write]

theorem write_append (first second : List Block) :
    r.write (first ++ second) = r.write first ++ r.write second := by
  unfold write
  split
  · rfl
  · rw [List.flatMap_append]

theorem write_flatMap {α : Type} (xs : List α) (blocks : α → List Block) :
    r.write (xs.flatMap blocks) = xs.flatMap fun x => r.write (blocks x) := by
  induction xs with
  | nil => rw [List.flatMap_nil, write_nil, List.flatMap_nil]
  | cons x xs ih => rw [List.flatMap_cons, write_append, ih, List.flatMap_cons]

theorem write_of_quiet (quiet : r.quiet = true) (blocks : List Block) : r.write blocks = [] :=
  if_pos quiet

theorem write_of_loud (loud : r.quiet = false) (blocks : List Block) :
    r.write blocks = blocks.flatMap r.blockLines :=
  if_neg (by simp [loud])

/-- Whatever shows no fault is one line. -/
theorem emit_line (block : Block) (sound : block.failure? = none) :
    r.emit (r.line block) = r.write [block] := by
  simp [emit, write, blockLines, reasons, sound]

theorem frameLines_line (block : Block) {frame : Frame} (shows : block.failure? = frame.failure) :
    r.frameLines (r.line block) frame = r.write [block] := by
  have reason : r.failureNote? frame = if r.explains then frame.failure.map r.note else none := rfl
  simp only [frameLines, reason, write, List.flatMap_singleton, blockLines, reasons, shows]
  by_cases quiet : r.quiet = true
  · simp [emit, quiet]
  · cases r.explains <;> cases frame.failure <;> simp [emit, quiet]

end Write

end Terminal.Report

/-! ## Scripts -/

namespace Script

/-- The keys of each script in front of the first that cannot be read. -/
def keysUntilFault : List String → List (List Key)
  | [] => []
  | script :: rest =>
      match keys script with
      | .ok keys => keys :: keysUntilFault rest
      | .error _ => []

/-- The fault of the first script that cannot be read. -/
def firstFault? : List String → Option Fault
  | [] => none
  | script :: rest =>
      match keys script with
      | .ok _ => firstFault? rest
      | .error fault => some fault

theorem firstFault?_of_readable {scripts : List String}
    (readable : ∀ script ∈ scripts, Readable script) : firstFault? scripts = none := by
  induction scripts with
  | nil => rfl
  | cons script scripts ih =>
      obtain ⟨⟨keys, read⟩, later⟩ := List.forall_mem_cons.mp readable
      rw [firstFault?, read]
      exact ih later

section Unreadable

variable {earlier : List String} (readable : ∀ script ∈ earlier, Readable script)
  {bad : String} {fault : Fault} (unreadable : keys bad = .error fault) (later : List String)
include readable unreadable

theorem firstFault?_unreadable : firstFault? (earlier ++ bad :: later) = some fault := by
  induction earlier with
  | nil => rw [List.nil_append, firstFault?, unreadable]
  | cons script earlier ih =>
      obtain ⟨⟨keys, read⟩, rest⟩ := List.forall_mem_cons.mp readable
      rw [List.cons_append, firstFault?, read]
      exact ih rest

/-- What stands behind the first script that cannot be read is not read. -/
theorem keysUntilFault_unreadable :
    keysUntilFault (earlier ++ bad :: later) = keysUntilFault earlier := by
  induction earlier with
  | nil =>
      rw [List.nil_append]
      simp only [keysUntilFault, unreadable]
  | cons script earlier ih =>
      obtain ⟨⟨keys, read⟩, rest⟩ := List.forall_mem_cons.mp readable
      rw [List.cons_append, keysUntilFault, keysUntilFault, read, ih rest]

end Unreadable

end Script

/-- What pressing the keys of one script shows: what was shown before, and each key with its
frame. -/
structure Showing where
  before : Frame
  pressed : List (Key × Frame)

namespace Showing

/-- The frame of the last key, or without keys what was shown before. -/
def last (showing : Showing) : Frame :=
  ((showing.pressed.map Prod.snd).getLast?).getD showing.before

/-- Each key with its frame when tracing, else the last frame. -/
def blocks (trace : Bool) (showing : Showing) : List Block :=
  if trace then showing.pressed.map fun (key, frame) => .tracedFrame key frame
  else [.frame showing.last]

end Showing

namespace Session

def showing (s : Session) (keys : List Key) : Showing := ⟨s.frame, keys.zip (s.pressEach keys).2⟩

/-- What pressing scripts shows, one after the other. -/
def showings (s : Session) : List (List Key) → List Showing
  | [] => []
  | keys :: rest => s.showing keys :: showings (s.pressEach keys).1 rest

end Session

namespace Terminal.Report

variable (r : Report) (trace : Bool) (s : Session)

/-- The frame that pressing all keys answers is the last one that they show. -/
theorem showing_last (keys : List Key) : (s.showing keys).last = (s.pressAll keys).2 := by
  have frames : (keys.zip (s.pressEach keys).2).map Prod.snd = (s.pressEach keys).2 :=
    List.map_snd_zip (Nat.le_of_eq (s.length_pressEach keys))
  rw [Showing.last, Session.showing, frames]
  rfl

theorem applyScript_eq {script : String} {keys : List Key} (read : Script.keys script = .ok keys) :
    r.applyScript trace s script =
      ((s.pressEach keys).1, .done (r.write ((s.showing keys).blocks trace))) := by
  rw [applyScript, read]
  cases trace with
  | true =>
      have each (pair : Key × Frame) : r.frameLines (r.tracedFrame pair.1 pair.2) pair.2 =
          r.write [.tracedFrame pair.1 pair.2] := r.frameLines_line (.tracedFrame _ _) rfl
      have blocks : (s.showing keys).blocks true =
          (s.showing keys).pressed.flatMap fun pair => [.tracedFrame pair.1 pair.2] :=
        List.map_eq_flatMap
      dsimp only
      rw [if_pos rfl, r.traceKeys_eq, blocks, write_flatMap]
      simp only [each]
      rfl
  | false =>
      have line : r.frameLines (r.frame (s.pressAll keys).2) (s.pressAll keys).2 =
          r.write ((s.showing keys).blocks false) := by
        rw [← showing_last]
        exact r.frameLines_line (.frame _) rfl
      exact congrArg (fun lines => ((s.pressEach keys).1, Answer.done lines)) line

/-- The keys of the scripts are pressed up to the first script that cannot be read. -/
theorem applyScripts_eq (scripts : List String) :
    r.applyScripts trace s scripts =
      ((s.pressEach (Script.keysUntilFault scripts).flatten).1,
        ⟨r.write ((s.showings (Script.keysUntilFault scripts)).flatMap (Showing.blocks trace)),
          (Script.firstFault? scripts).map .calculation⟩) := by
  induction scripts generalizing s with
  | nil =>
      show (s, Answer.mk [] none) = (s, Answer.mk (r.write []) none)
      rw [write_nil]
  | cons script scripts ih =>
      rw [Script.keysUntilFault, Script.firstFault?]
      cases read : Script.keys script with
      | error fault =>
          rw [applyScripts, r.applyScript_unreadable trace s read]
          show (s, Answer.mk [] _) = (s, Answer.mk (r.write []) _)
          rw [write_nil]
          rfl
      | ok keys =>
          rw [r.applyScripts_cons trace s scripts read, r.applyScript_eq trace s read]
          dsimp only
          rw [ih, List.flatten_cons, Session.pressEach_append, Session.showings,
            List.flatMap_cons, write_append]
          rfl

end Terminal.Report

/-! ## Commands -/

/-- The blocks that a command writes, and the failure that ends it. -/
structure Content where
  blocks : List Block
  failure : Option Failure

namespace Content

def after (blocks : List Block) (content : Content) : Content :=
  ⟨blocks ++ content.blocks, content.failure⟩

/-- The content as a report writes it. -/
def answer (r : Report) (content : Content) : Answer := ⟨r.write content.blocks, content.failure⟩

theorem answer_nil (r : Report) (failure? : Option Failure) :
    answer r ⟨[], failure?⟩ = ⟨[], failure?⟩ := by
  rw [answer, r.write_nil]

theorem answer_after (r : Report) (blocks : List Block) (content : Content) :
    (content.after blocks).answer r = (content.answer r).after (r.write blocks) := by
  rw [answer, after, r.write_append]
  rfl

/-- What comes of a session, if one can be started. -/
def inSession (settings : Settings) (content : Session → Content) : Content :=
  match Session.start? settings with
  | none => ⟨[], some .noRoom⟩
  | some s => content s

theorem inSession_of_le {settings : Settings} (room : settings.capacity ≤ History.greatestCapacity)
    (content : Session → Content) : inSession settings content = content (.start settings) := by
  rw [inSession, Session.start?_of_le room]

theorem inSession_of_lt {settings : Settings} (large : History.greatestCapacity < settings.capacity)
    (content : Session → Content) : inSession settings content = ⟨[], some .noRoom⟩ := by
  rw [inSession, Session.start?_of_lt large]

theorem of_inSession {P : Content → Prop} {settings : Settings} {content : Session → Content}
    (stopped : P ⟨[], some .noRoom⟩) (started : P (content (.start settings))) :
    P (inSession settings content) := by
  rcases Nat.lt_or_ge History.greatestCapacity settings.capacity with large | room
  · rwa [inSession_of_lt large]
  · rwa [inSession_of_le room]

theorem answer_inSession (r : Report) (settings : Settings) {content : Session → Content}
    {answer : Session → Answer} (same : ∀ s, answer s = (content s).answer r) :
    (match Session.start? settings with
      | none => .failed .noRoom
      | some s => answer s) = (inSession settings content).answer r := by
  rw [inSession]
  cases Session.start? settings with
  | none => exact (answer_nil r _).symm
  | some s => exact same s

end Content

namespace Command

theorem runAll_eq (s : Session) (scripts : List String) :
    runAll s scripts = ((s.pressEach (Script.keysUntilFault scripts).flatten).1,
      Script.firstFault? scripts) := by
  induction scripts generalizing s with
  | nil => rfl
  | cons script scripts ih =>
      rw [runAll, Script.keysUntilFault, Script.firstFault?]
      cases read : Script.keys script with
      | error fault =>
          rw [s.runScript_unreadable read]
          rfl
      | ok keys =>
          rw [s.runScript_of_keys read]
          dsimp only
          rw [ih, List.flatten_cons, Session.pressEach_append]
          rfl

/-- The history at the end of `run`, if it is asked for, nothing failed, and there is one. -/
def closing (history : Bool) (s : Session) (fault? : Option Fault) : List Block :=
  if fault?.isNone && history && !s.history.entries.isEmpty then [.history s.history] else []

/-- What is written about scripts in a session, and at its end. -/
def scriptsContent (trace history : Bool) (scripts : List String) (s : Session) : Content :=
  let keys := Script.keysUntilFault scripts
  let fault? := Script.firstFault? scripts
  ⟨(s.showings keys).flatMap (Showing.blocks trace) ++
    closing history (s.pressEach keys.flatten).1 fault?, fault?.map .calculation⟩

def runContent (settings : Settings) (a : RunArguments) (outside : Surroundings) : Content :=
  match a.allScripts outside with
  | .error failure => ⟨[], some failure⟩
  | .ok scripts => .inSession settings (scriptsContent a.trace a.history scripts)

theorem executeRun_eq (r : Report) (settings : Settings) (a : RunArguments)
    (outside : Surroundings) :
    executeRun r settings a outside = (runContent settings a outside).answer r := by
  rw [executeRun, runContent]
  cases a.allScripts outside with
  | error failure => exact (Content.answer_nil r _).symm
  | ok scripts =>
      apply Content.answer_inSession
      intro s
      dsimp only
      rw [r.applyScripts_eq, Content.answer, scriptsContent, r.write_append, closing,
        Option.isNone_map]
      split
      · rename_i asked
        have readable : Script.firstFault? scripts = none := by
          simp only [Bool.and_eq_true, Option.isNone_iff_eq_none] at asked
          exact asked.1.1
        rw [← r.emit_line (.history _) rfl, readable]
        rfl
      · rw [r.write_nil, List.append_nil]

/-- What `run` answers if there are scripts, and there is room for the history. -/
theorem executeRun_of_le (r : Report) {settings : Settings} {a : RunArguments}
    {outside : Surroundings} {scripts : List String}
    (room : settings.capacity ≤ History.greatestCapacity)
    (given : a.allScripts outside = .ok scripts) :
    executeRun r settings a outside =
      (scriptsContent a.trace a.history scripts (.start settings)).answer r := by
  rw [executeRun_eq, runContent, given]
  dsimp only
  rw [Content.inSession_of_le room]

/-- What obeying a line leaves and writes. -/
def lineContent (trace : Bool) (s : Session) : Line → Session × List Block
  | .blank => (s, [])
  | .quit => (s, [])
  | .history => (s, [.history s.history])
  | .clearHistory => (s.clearHistory, [])
  | .keys => (s, [.keys])
  | .script text =>
      match Script.keys text with
      | .ok pressed => ((s.pressEach pressed).1, (s.showing pressed).blocks trace)
      | .error fault => (s, [.unreadable fault])

def replContent (trace : Bool) (s : Session) : List Text.Bytes → Content
  | [] => ⟨[], none⟩
  | bytes :: rest =>
      match Text.decode? bytes with
      | none => ⟨[], some .notUtf8⟩
      | some text =>
        match Line.ofText text with
        | .quit => ⟨[], none⟩
        | line =>
          let (next, blocks) := lineContent trace s line
          (replContent trace next rest).after blocks

section Repl

variable (r : Report) (trace : Bool) (s : Session)

theorem stepLine_eq (line : Line) :
    stepLine r trace s line =
      ((lineContent trace s line).1, .done (r.write (lineContent trace s line).2)) := by
  have writes (left : Session) {lines lines' : List String} (same : lines = lines') :
      (left, Answer.done lines) = (left, Answer.done lines') := by rw [same]
  cases line with
  | script text =>
      rw [lineContent]
      cases read : Script.keys text with
      | ok keys =>
          rw [stepLine, r.applyScript_eq trace s read]
          rfl
      | error fault =>
          rw [stepLine_unreadable r trace s read]
          exact writes s (r.emit_line (.unreadable fault) rfl)
  | history => exact writes s (r.emit_line (.history s.history) rfl)
  | keys => exact writes s (r.emit_line .keys rfl)
  | clearHistory => exact writes s.clearHistory r.write_nil.symm
  | _ => exact writes s r.write_nil.symm

/-- **What `repl` answers is its content, as the report writes it.** -/
theorem replLines_eq (input : List Text.Bytes) :
    replLines r trace s input = (replContent trace s input).answer r := by
  induction input generalizing s with
  | nil => exact (Content.answer_nil r none).symm
  | cons bytes input ih =>
      rw [replLines, replContent]
      cases Text.decode? bytes with
      | none => exact (Content.answer_nil r _).symm
      | some text =>
          dsimp only
          cases Line.ofText text with
          | quit => exact (Content.answer_nil r none).symm
          | _ =>
              dsimp only
              rw [Content.answer_after, ← ih, stepLine_eq]
              rfl

theorem executeRepl_eq (settings : Settings) (outside : Surroundings) :
    executeRepl r settings trace outside =
      (Content.inSession settings fun s =>
        replContent trace s (Text.byteLines outside.input)).answer r :=
  Content.answer_inSession r settings fun s =>
    replLines_eq r trace s (Text.byteLines outside.input)

end Repl

/-! ## Quiet reports -/

section Quiet

variable {r : Report} (quiet : r.quiet = true) (settings : Settings) (outside : Surroundings)
include quiet

/-- Quiet, `run` writes nothing, whether it fails or not. -/
theorem executeRun_of_quiet (a : RunArguments) : (executeRun r settings a outside).lines = [] := by
  rw [executeRun_eq]
  exact r.write_of_quiet quiet _

theorem executeRepl_of_quiet (trace : Bool) :
    (executeRepl r settings trace outside).lines = [] := by
  rw [executeRepl_eq]
  exact r.write_of_quiet quiet _

end Quiet

end Command

end Calculator
