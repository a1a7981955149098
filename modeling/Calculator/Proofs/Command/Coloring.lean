/-
# Calculator.Proofs.Command.Coloring -- what the colours of a report change

Whatever a command writes is spelled in the characters of a session, apart from the error
indicator, the names of unknown keys, and the fixed texts of the report (`Block.Spelled`).  So
no escape sequence stands in it but those of a style, provided that the error indicator has no
escape character; an unknown key may be one, but it stands in quotes.

Then each line that a report writes in colours leaves the line that it writes without
(`uncolors_line`, `uncolors_note`), and so does all of an output (`uncolors_output`).

* `runContent_spelled`, `replContent_spelled`: the blocks of both commands;
* `uncolors_write`, `uncolors_historyText`, `uncolors_trimEnd_keys`: what the commands write.
-/
import Mathlib.Data.List.Forall2
import Calculator.Proofs.Command.Content
import Calculator.Proofs.Json.Controls
import Calculator.Proofs.Session.Alphabet
import Calculator.Proofs.Terminal.Escape

namespace Calculator

set_option autoImplicit false

open Terminal (Report Uncolors uncolors_of_plain uncolors_empty)

/-- Behind what is visible, the blanks of a text are those of its end. -/
theorem Text.trimEnd_append (front : String) {back : String} (visible : trimEnd back ≠ "") :
    trimEnd (front ++ back) = front ++ trimEnd back := by
  have present : back.toList.reverse.dropWhile isBlank ≠ [] := by
    intro empty
    apply visible
    rw [trimEnd, trimEndChars, empty]
    rfl
  rw [← String.toList_inj]
  simp [trimEnd, trimEndChars, List.dropWhile_append, present]

/-! ## Texts without the escape character -/

theorem Spelled.plain {text : String} (spelled : Spelled text) : '\x1b' ∉ text.toList :=
  fun member => absurd (spelled _ member) (by decide)

theorem Spelled.uncolors {text : String} (spelled : Spelled text) : Uncolors text text :=
  uncolors_of_plain spelled.plain

theorem Fault.Spelled.uncolors_message {fault : Fault} (spelled : fault.Spelled) :
    Uncolors fault.message fault.message := by
  rcases spelled.numerical with ⟨text, rfl⟩ | rfl | rfl
  · show Uncolors ("Invalid number: " ++ text) ("Invalid number: " ++ text)
    exact (uncolors_of_plain (by decide)).append (spelled.text text rfl).uncolors
  · exact uncolors_of_plain (by decide)
  · exact uncolors_of_plain (by decide)

theorem Key.plain_label (key : Key) : '\x1b' ∉ key.label.toList := by
  cases key with
  | digit value =>
      intro member
      have digit : '\x1b'.isDigit := by
        apply Decimal.isDigit_of_mem_digits (n := value)
        simpa [label, Nat.repr, Decimal.digits] using member
      cases digit
  | operator op => exact op.spelled_symbol.plain
  | _ => decide

theorem Terminal.plain_padLeft (width : Nat) {text : String} (plain : '\x1b' ∉ text.toList) :
    '\x1b' ∉ (padLeft width text).toList := by
  simp [padLeft, plain]

/-! ## Blocks -/

/-- A block that shows spelled texts, or the error indicator as a result. -/
def Block.Spelled (indicator : String) : Block → Prop
  | .frame shown => shown.Spelled indicator
  | .tracedFrame _ shown => shown.Spelled indicator
  | .unreadable fault => ∃ c, fault = .unknownKey (String.singleton c)
  | .history log => ∀ entry ∈ log.entries, entry.Spelled
  | .keys => True

theorem Session.pressEach_settings (s : Session) (keys : List Key) :
    (s.pressEach keys).1.settings = s.settings := by
  rw [pressEach_eq_after, after_settings]

namespace Session.Spelled

variable {s : Session} (spelled : s.Spelled)
include spelled

theorem showing_last (keys : List Key) :
    (s.showing keys).last.Spelled s.settings.errorIndicator := by
  rw [Showing.last]
  cases last : ((s.showing keys).pressed.map Prod.snd).getLast? with
  | none => exact spelled.frame
  | some frame =>
      obtain ⟨pair, inPressed, rfl⟩ := List.mem_map.mp (List.mem_of_getLast? last)
      exact (spelled.pressEach keys).2 pair.2 (List.of_mem_zip inPressed).2

theorem showing_blocks (trace : Bool) (keys : List Key) :
    ∀ block ∈ (s.showing keys).blocks trace, block.Spelled s.settings.errorIndicator := by
  intro block member
  cases trace with
  | true =>
      obtain ⟨pair, inPressed, rfl⟩ := List.mem_map.mp member
      exact (spelled.pressEach keys).2 pair.2 (List.of_mem_zip inPressed).2
  | false =>
      obtain rfl := List.mem_singleton.mp member
      exact spelled.showing_last keys

theorem showings_blocks (trace : Bool) (scripts : List (List Key)) :
    ∀ block ∈ (s.showings scripts).flatMap (Showing.blocks trace),
      block.Spelled s.settings.errorIndicator := by
  induction scripts generalizing s with
  | nil => exact List.forall_mem_nil _
  | cons keys scripts ih =>
      have later := ih (spelled.pressEach keys).1
      rw [s.pressEach_settings keys] at later
      rw [Session.showings, List.flatMap_cons]
      exact List.forall_mem_append.mpr ⟨spelled.showing_blocks trace keys, later⟩

end Session.Spelled

namespace Command

theorem closing_spelled {s : Session} (spelled : s.Spelled) (history : Bool)
    (fault? : Option Fault) :
    ∀ block ∈ closing history s fault?, block.Spelled s.settings.errorIndicator := by
  unfold closing
  split
  · exact List.forall_mem_singleton.mpr spelled.entries
  · exact List.forall_mem_nil _

theorem scriptsContent_spelled {s : Session} (spelled : s.Spelled) (trace history : Bool)
    (scripts : List String) :
    ∀ block ∈ (scriptsContent trace history scripts s).blocks,
      block.Spelled s.settings.errorIndicator := by
  have shown := spelled.showings_blocks trace (Script.keysUntilFault scripts)
  have left := (spelled.pressEach (Script.keysUntilFault scripts).flatten).1
  have closed := closing_spelled left history (Script.firstFault? scripts)
  rw [Session.pressEach_settings] at closed
  exact List.forall_mem_append.mpr ⟨shown, closed⟩

theorem runContent_spelled (settings : Settings) (a : RunArguments) (outside : Surroundings) :
    ∀ block ∈ (runContent settings a outside).blocks, block.Spelled settings.errorIndicator := by
  rw [runContent]
  cases a.allScripts outside with
  | error failure => exact List.forall_mem_nil _
  | ok scripts =>
      have started := scriptsContent_spelled (Session.spelled_start settings) a.trace a.history
        scripts
      exact Content.of_inSession
        (P := fun content => ∀ block ∈ content.blocks, block.Spelled settings.errorIndicator)
        (List.forall_mem_nil _) started

/-- A line keeps the session and its settings, and writes spelled blocks. -/
theorem lineContent_spelled {s : Session} (spelled : s.Spelled) (trace : Bool) (line : Line) :
    (lineContent trace s line).1.Spelled ∧
      (lineContent trace s line).1.settings = s.settings ∧
      ∀ block ∈ (lineContent trace s line).2, block.Spelled s.settings.errorIndicator := by
  cases line with
  | script text =>
      rw [lineContent]
      cases read : Script.keys text with
      | ok keys =>
          have showing := spelled.showing_blocks trace keys
          exact ⟨(spelled.pressEach keys).1, s.pressEach_settings keys, showing⟩
      | error fault =>
          obtain ⟨c, -, named⟩ := Script.keys_eq_error_iff.mp read
          exact ⟨spelled, rfl, List.forall_mem_singleton.mpr ⟨c, named⟩⟩
  | history => exact ⟨spelled, rfl, List.forall_mem_singleton.mpr spelled.entries⟩
  | keys => exact ⟨spelled, rfl, List.forall_mem_singleton.mpr trivial⟩
  | clearHistory => exact ⟨spelled.clearHistory, rfl, List.forall_mem_nil _⟩
  | _ => exact ⟨spelled, rfl, List.forall_mem_nil _⟩

theorem replContent_spelled {s : Session} (spelled : s.Spelled) (trace : Bool)
    (input : List Text.Bytes) :
    ∀ block ∈ (replContent trace s input).blocks, block.Spelled s.settings.errorIndicator := by
  induction input generalizing s with
  | nil => exact List.forall_mem_nil _
  | cons bytes input ih =>
      rw [replContent]
      cases Text.decode? bytes with
      | none => exact List.forall_mem_nil _
      | some text =>
          dsimp only
          cases Line.ofText text with
          | quit => exact List.forall_mem_nil _
          | _ =>
              obtain ⟨kept, settings, written⟩ := lineContent_spelled spelled trace _
              have later := ih kept
              rw [settings] at later
              exact List.forall_mem_append.mpr ⟨written, later⟩

end Command

/-! ## Lines -/

/-- Lines in colours leave lines without, one for one. -/
theorem uncolors_output {lines plain : List String} (each : List.Forall₂ Uncolors lines plain)
    (failure : Option Failure) :
    Uncolors (Answer.mk lines failure).output (Answer.mk plain failure).output := by
  have lineEnd : Uncolors "\n" "\n" := uncolors_of_plain (by decide)
  unfold Answer.output
  dsimp only
  induction each with
  | nil => exact uncolors_empty
  | cons first later ih =>
      rw [List.map_cons, List.map_cons, String.join_cons, String.join_cons]
      exact (first.append lineEnd).append ih

namespace Terminal.Report

/-- The report without colours. -/
def plain (r : Report) : Report := { r with colored := false }

variable (r : Report)

/-! ### Histories -/

theorem uncolors_historyText {history : History} (spelled : ∀ entry ∈ history.entries, entry.Spelled) :
    Uncolors (r.historyText history) (r.plain.historyText history) := by
  have listing : '\x1b' ∉ history.listing.toList := by
    intro member
    rcases mem_toList_intercalate member with lineEnd | ⟨text, inTexts, found⟩
    · exact absurd lineEnd (by decide)
    · obtain ⟨entry, inEntries, rfl⟩ := List.mem_map.mp inTexts
      obtain ⟨expression, result⟩ := spelled entry inEntries
      simp [Entry.text, expression.plain, result.plain] at found
  unfold historyText
  dsimp only
  split
  · exact uncolors_of_plain listing
  · exact (uncolors_of_plain listing).paint r.colored [.dim]

theorem uncolors_historyJson (history : History) :
    Uncolors (historyJson history) (historyJson history) := by
  apply uncolors_of_plain
  intro member
  have printable := history.printable_toJson (.pretty 0) '\x1b'
    (by simpa [historyJson, Json.Value.pretty] using member)
  exact absurd printable (by decide)

/-! ### The keypad -/

theorem uncolors_keyLine {keys meaning : String} (plainKeys : '\x1b' ∉ keys.toList)
    (plainMeaning : '\x1b' ∉ meaning.toList) :
    Uncolors (r.keyLine keys meaning) (r.plain.keyLine keys meaning) := by
  have padded : '\x1b' ∉ (padRight 8 keys).toList := by simp [padRight, plainKeys]
  have column := (uncolors_of_plain padded).paint r.colored [.bold]
  have space : Uncolors " " " " := uncolors_of_plain (by decide)
  have lineEnd : Uncolors "\n" "\n" := uncolors_of_plain (by decide)
  exact ((column.append space).append (uncolors_of_plain plainMeaning)).append lineEnd

/-- The keypad and the table, without the last word. -/
def keysFront (r : Report) : String :=
  Keypad.drawing ++ "\n\n" ++
    String.join (keyMeanings.dropLast.map fun (keys, meaning) => r.keyLine keys meaning) ++
    (paint r.colored [.bold] (padRight 8 "=") ++ " ")

theorem keys_eq : r.keys = r.keysFront ++ "evaluate\n" := by
  have table : String.join (keyMeanings.map fun (keys, meaning) => r.keyLine keys meaning) =
      String.join (keyMeanings.dropLast.map fun (keys, meaning) => r.keyLine keys meaning) ++
        r.keyLine "=" "evaluate" := by
    show String.join ((keyMeanings.dropLast ++ [("=", "evaluate")]).map _) = _
    rw [List.map_append, String.join_append, List.map_singleton, String.join_cons, String.join_nil,
      String.append_empty]
  have lineEnd : "evaluate\n" = "evaluate" ++ "\n" := by decide
  rw [keys, table, keysFront, keyLine, lineEnd]
  simp only [String.append_assoc]

theorem uncolors_keysFront : Uncolors r.keysFront r.plain.keysFront := by
  have drawing : Uncolors Keypad.drawing Keypad.drawing := uncolors_of_plain (by decide +kernel)
  have gap : Uncolors "\n\n" "\n\n" := uncolors_of_plain (by decide)
  have space : Uncolors " " " " := uncolors_of_plain (by decide)
  have plain : ∀ row ∈ keyMeanings.dropLast, '\x1b' ∉ row.1.toList ∧ '\x1b' ∉ row.2.toList := by
    decide
  have table := uncolors_join fun row member =>
    r.uncolors_keyLine (plain row member).1 (plain row member).2
  have last : Uncolors (padRight 8 "=") (padRight 8 "=") := uncolors_of_plain (by decide)
  exact ((drawing.append gap).append table).append ((last.paint r.colored [.bold]).append space)

theorem uncolors_keys : Uncolors r.keys r.plain.keys := by
  rw [keys_eq, keys_eq]
  exact r.uncolors_keysFront.append (uncolors_of_plain (by decide))

/-- The end of the table is no place for colours. -/
theorem uncolors_trimEnd_keys : Uncolors (Text.trimEnd r.keys) (Text.trimEnd r.plain.keys) := by
  have word : Text.trimEnd "evaluate\n" = "evaluate" := by decide
  have visible : Text.trimEnd "evaluate\n" ≠ "" := by decide
  rw [keys_eq, keys_eq, Text.trimEnd_append _ visible, Text.trimEnd_append _ visible, word]
  exact r.uncolors_keysFront.append (uncolors_of_plain (by decide))

/-! ### Frames and blocks -/

section Indicator

variable {indicator : String} (unescaped : '\x1b' ∉ indicator.toList)
include unescaped

theorem uncolors_frame {frame : Frame} (spelled : frame.Spelled indicator) :
    Uncolors (r.frame frame) (r.plain.frame frame) := by
  have result : '\x1b' ∉ frame.result.toList := by
    rcases spelled.result with indicated | spelled
    · rw [indicated]
      exact unescaped
    · exact spelled.plain
  have bar : Uncolors " | " " | " := uncolors_of_plain (by decide)
  have painted := (uncolors_of_plain result).paint r.colored (resultStyle frame)
  exact (spelled.equation.uncolors.append bar).append painted

theorem uncolors_line {block : Block} (spelled : block.Spelled indicator) :
    Uncolors (r.line block) (r.plain.line block) := by
  cases block with
  | frame shown => exact r.uncolors_frame unescaped spelled
  | tracedFrame key shown =>
      have label := uncolors_of_plain (plain_padLeft 2 key.plain_label)
      have gap : Uncolors "  " "  " := uncolors_of_plain (by decide)
      have frame := r.uncolors_frame unescaped spelled
      exact ((label.paint r.colored [.cyan]).append gap).append frame
  | unreadable fault =>
      obtain ⟨c, rfl⟩ := spelled
      have mark : Uncolors "! " "! " := uncolors_of_plain (by decide)
      have words : Uncolors "Unknown key: '" "Unknown key: '" := uncolors_of_plain (by decide)
      have quoted := words.append (uncolors_quoted c)
      rw [← String.append_assoc] at quoted
      exact mark.append quoted
  | history history => exact r.uncolors_historyText spelled
  | keys => exact r.uncolors_keys

omit unescaped in
theorem uncolors_note {fault : Fault} (spelled : fault.Spelled) :
    Uncolors (r.note fault) (r.plain.note fault) := by
  have indent : Uncolors "  " "  " := uncolors_of_plain (by decide)
  exact (indent.append spelled.uncolors_message).paint r.colored [.red]

omit unescaped in
theorem Block.Spelled.failure? {block : Block} (spelled : block.Spelled indicator) {fault : Fault}
    (failed : block.failure? = some fault) : fault.Spelled := by
  cases block with
  | frame shown => exact Frame.Spelled.failure spelled fault failed
  | tracedFrame key shown => exact Frame.Spelled.failure spelled fault failed
  | _ => cases failed

theorem uncolors_blockLines {block : Block} (spelled : block.Spelled indicator) :
    List.Forall₂ Uncolors (r.blockLines block) (r.plain.blockLines block) := by
  have reasons : List.Forall₂ Uncolors (r.reasons block.failure?) (r.plain.reasons block.failure?) := by
    unfold Report.reasons
    show List.Forall₂ Uncolors _ (if r.explains then _ else _)
    split
    · cases failed : block.failure? with
      | none => exact .nil
      | some fault => exact .cons (r.uncolors_note (Block.Spelled.failure? spelled failed)) .nil
    · exact .nil
  exact .cons (r.uncolors_line unescaped spelled) reasons

/-- What is written of blocks in colours leaves what is written without. -/
theorem uncolors_write {blocks : List Block} (spelled : ∀ block ∈ blocks, block.Spelled indicator) :
    List.Forall₂ Uncolors (r.write blocks) (r.plain.write blocks) := by
  unfold write
  show List.Forall₂ Uncolors _ (if r.quiet then _ else _)
  split
  · exact .nil
  · induction blocks with
    | nil => exact .nil
    | cons block blocks ih =>
        obtain ⟨first, later⟩ := List.forall_mem_cons.mp spelled
        rw [List.flatMap_cons, List.flatMap_cons]
        exact List.rel_append (r.uncolors_blockLines unescaped first) (ih later)

end Indicator

end Terminal.Report

end Calculator
