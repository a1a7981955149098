/-
# Calculator.Proofs.Command.Listing -- the history behind the frames, and alone

`run` writes the history behind its frames if it is asked to, and `history` writes nothing
else.  The two press the scripts in different ways: one with a frame for each script or for
each key, the other for the session that is left.  And they look in different ways whether
there is anything to list: at the entries, and at the text (`historyText_eq_empty_iff`).
Still they list the same.

* `closing_write`: what `history` writes is what `run` adds;
* `run_history`: both commands on the same scripts.
-/
import Calculator.Proofs.Command.Content

namespace Calculator

set_option autoImplicit false

open Terminal (Report)

/-- An equation is never empty, so the listing of a history is empty only without entries. -/
theorem History.listing_eq_empty_iff (history : History) :
    history.listing = "" ↔ history.entries = [] := by
  constructor
  · intro empty
    cases entries : history.entries with
    | nil => rfl
    | cons first rest =>
        rw [listing, entries, List.map_cons] at empty
        have visible : '=' ∈ first.text.toList := by simp [Entry.text]
        have length := congrArg String.toList empty
        cases rest with
        | nil =>
            rw [List.map_nil, String.intercalate_singleton] at length
            simp [length] at visible
        | cons second rest =>
            rw [List.map_cons, String.intercalate_cons_cons] at length
            simp at length
  · intro none
    simp [listing, none]

theorem Terminal.Report.historyText_eq_empty_iff (r : Report) (history : History) :
    r.historyText history = "" ↔ history.entries = [] := by
  rw [← history.listing_eq_empty_iff, historyText]
  split
  · rfl
  · rename_i present
    constructor
    · intro empty
      -- the text is not empty, and no style makes it so
      unfold paint at empty
      split at empty
      · simp at empty
        simp [empty] at present
      · exact empty
    · intro empty
      simp [empty] at present

namespace Command

/-- Scripts that are given as arguments are all there are without a file. -/
theorem allScripts_of_arguments {scripts : List String} (present : scripts ≠ [])
    (trace history : Bool) (outside : Surroundings) :
    RunArguments.allScripts ⟨scripts, none, trace, history⟩ outside = .ok scripts := by
  simp [RunArguments.allScripts, RunArguments.fileScripts, present]

section Room

variable {settings : Settings} (room : settings.capacity ≤ History.greatestCapacity) (r : Report)
  {scripts : List String}
include room

/-- What `run` writes about scripts: the frames, and the history if it is asked for. -/
theorem executeRun_of_arguments (present : scripts ≠ []) (trace history : Bool)
    (outside : Surroundings) :
    let s := Session.start settings
    let keys := Script.keysUntilFault scripts
    let fault? := Script.firstFault? scripts
    executeRun r settings ⟨scripts, none, trace, history⟩ outside =
      ⟨r.write ((s.showings keys).flatMap (Showing.blocks trace)) ++
        r.write (closing history (s.pressEach keys.flatten).1 fault?),
        fault?.map .calculation⟩ := by
  intro s keys fault?
  rw [executeRun_of_le r room (allScripts_of_arguments present trace history outside),
    Content.answer, scriptsContent, r.write_append]

theorem executeHistory_of_readable (readable : ∀ script ∈ scripts, Script.Readable script) :
    let log := ((Session.start settings).pressEach (Script.keysUntilFault scripts).flatten).1.history
    executeHistory r settings scripts .text =
      .done (if (r.historyText log).isEmpty then [] else [r.historyText log]) := by
  intro log
  rw [executeHistory, Session.start?_of_le room]
  dsimp only
  rw [runAll_eq, Script.firstFault?_of_readable readable]

theorem executeHistory_unreadable {fault : Fault} (first : Script.firstFault? scripts = some fault)
    (format : HistoryFormat) :
    executeHistory r settings scripts format = .failed (.calculation fault) := by
  rw [executeHistory, Session.start?_of_le room]
  dsimp only
  rw [runAll_eq, first]

end Room

/-- A history that is written at the end of `run` is the text that `history` writes. -/
theorem closing_write (r : Report) (loud : r.quiet = false) (s : Session) :
    r.write (closing true s none) =
      if (r.historyText s.history).isEmpty then [] else [r.historyText s.history] := by
  by_cases empty : s.history.entries = []
  · have nothing : r.historyText s.history = "" := (r.historyText_eq_empty_iff _).mpr empty
    simp [closing, empty, nothing]
  · have something : r.historyText s.history ≠ "" := mt (r.historyText_eq_empty_iff _).mp empty
    have listed : closing true s none = [.history s.history] := by simp [closing, empty]
    rw [listed, ← r.emit_line (.history s.history) rfl]
    simp [Report.emit, Report.line, loud, something]

/-- **The history is the same behind the frames and alone.**  Take scripts, at least one.  If
there can be no room for the history, `run` is stopped, with and without the history, and so is
`history`, and nothing is written.

Let there be room.  If all of the scripts can be read, all three succeed; unless the commands
are quiet, `run` with the history writes what it writes without, and then what `history`
writes.  If not, all three fail over the first unknown character of the first script that
cannot be read; `history` writes nothing, and `run` writes, with and without the history, what
it writes about the scripts in front of that one. -/
theorem run_history (terminal : Bool) (c : Configuration) (trace : Bool) {scripts : List String}
    (present : scripts ≠ []) (outside : Surroundings) :
    let asked := execute terminal c outside (.run ⟨scripts, none, trace, true⟩)
    let plain := execute terminal c outside (.run ⟨scripts, none, trace, false⟩)
    let log := execute terminal c outside (.history scripts .text)
    (History.greatestCapacity < c.session.capacity →
      asked = .failed .noRoom ∧ plain = .failed .noRoom ∧ log = .failed .noRoom) ∧
    (c.session.capacity ≤ History.greatestCapacity →
      ((∀ script ∈ scripts, Script.Readable script) →
        asked.failure = none ∧ plain.failure = none ∧ log.failure = none ∧
          (c.verbosity.isQuiet = false → asked.lines = plain.lines ++ log.lines)) ∧
      ((∃ script ∈ scripts, ¬ Script.Readable script) →
        ∃ earlier bad later unknown, scripts = earlier ++ bad :: later ∧
          (∀ script ∈ earlier, Script.Readable script) ∧
          Script.firstUnknown? bad = some unknown ∧
          let fault : Fault := .unknownKey (String.singleton unknown)
          asked.failure = some (.calculation fault) ∧ plain.failure = some (.calculation fault) ∧
            log = .failed (.calculation fault) ∧ asked.lines = plain.lines ∧
            plain.lines =
              (execute terminal c outside (.run ⟨earlier, none, trace, false⟩)).lines)) := by
  intro asked plain log
  let r := c.report terminal
  refine ⟨fun large => ⟨?_, ?_, ?_⟩, fun room => ⟨fun readable => ?_, fun unreadable => ?_⟩⟩
  · exact executeRun_of_lt r large (allScripts_of_arguments present trace true outside)
  · exact executeRun_of_lt r large (allScripts_of_arguments present trace false outside)
  · exact executeHistory_of_lt r large scripts .text
  · have asked_eq : asked = _ := executeRun_of_arguments room r present trace true outside
    have plain_eq : plain = _ := executeRun_of_arguments room r present trace false outside
    have log_eq : log = _ := executeHistory_of_readable room r readable
    rw [Script.firstFault?_of_readable readable] at asked_eq plain_eq
    refine ⟨by rw [asked_eq]; rfl, by rw [plain_eq]; rfl, by rw [log_eq]; rfl, fun loud => ?_⟩
    have added := closing_write r loud ((Session.start c.session).pressEach
      (Script.keysUntilFault scripts).flatten).1
    rw [asked_eq, plain_eq, log_eq, added]
    simp [closing, Answer.done]
  · have asked_eq : asked = _ := executeRun_of_arguments room r present trace true outside
    have plain_eq : plain = _ := executeRun_of_arguments room r present trace false outside
    obtain ⟨earlier, bad, later, fault, cut, readable, met⟩ :=
      Script.exists_first_unreadable unreadable
    obtain ⟨unknown, first, rfl⟩ := Script.keys_eq_error_iff.mp met
    have faulty := Script.firstFault?_unreadable readable met later
    have read := Script.keysUntilFault_unreadable readable met later
    rw [← cut] at faulty read
    have log_eq : log = _ := executeHistory_unreadable room r faulty .text
    rw [faulty, read] at asked_eq plain_eq
    refine ⟨earlier, bad, later, unknown, cut, readable, first, ?_⟩
    intro fault
    refine ⟨by rw [asked_eq]; rfl, by rw [plain_eq]; rfl, log_eq, ?_, ?_⟩
    · rw [asked_eq, plain_eq]
      rfl
    · rw [plain_eq]
      -- without any script in front `run` fails differently, but writes as little
      by_cases empty : earlier = []
      · subst empty
        simp [Script.keysUntilFault, Session.showings, closing, execute, executeRun,
          RunArguments.allScripts, RunArguments.fileScripts, Answer.failed]
      · have front := executeRun_of_arguments room r empty trace false outside
        exact .trans (by simp [closing]) (congrArg Answer.lines front).symm

/-- A capacity that is accepted, and one sum: all three commands are stopped. -/
theorem run_history_stopped :
    let c : Configuration := ⟨.normal, .never, false, Settings.default.withCapacity (2 ^ 64 - 1)⟩
    let outside : Surroundings := ⟨[], []⟩
    c.fault? = none ∧ c.verbosity.isQuiet = false ∧ Script.Readable "1+1=" ∧
      execute false c outside (.run ⟨["1+1="], none, false, true⟩) = .failed .noRoom ∧
      execute false c outside (.run ⟨["1+1="], none, false, false⟩) = .failed .noRoom ∧
      execute false c outside (.history ["1+1="] .text) = .failed .noRoom := by
  intro c outside
  let r := c.report false
  have large : History.greatestCapacity < c.session.capacity := by decide
  have present : ["1+1="] ≠ [] := by simp
  exact ⟨by decide +kernel, rfl, ⟨_, rfl⟩,
    executeRun_of_lt r large (allScripts_of_arguments present false true outside),
    executeRun_of_lt r large (allScripts_of_arguments present false false outside),
    executeHistory_of_lt r large ["1+1="] .text⟩

/-- Two sums that can be read, and two scripts of which the second cannot.  The history is
written behind the frames of every key. -/
theorem run_history_sums :
    let c : Configuration := ⟨.normal, .never, false, .default⟩
    let outside : Surroundings := ⟨[], []⟩
    let sums := ["1+1=", "+2="]
    let power := ["1+1=", "2^"]
    (∀ script ∈ sums, Script.Readable script) ∧ (∃ script ∈ power, ¬ Script.Readable script) ∧
      (execute false c outside (.run ⟨sums, none, true, true⟩)).lines =
        (execute false c outside (.run ⟨sums, none, true, false⟩)).lines ++
          (execute false c outside (.history sums .text)).lines ∧
      (execute false c outside (.run ⟨power, none, true, true⟩)).failure =
        some (.calculation (.unknownKey "^")) ∧
      (execute false c outside (.history power .text)).failure =
        some (.calculation (.unknownKey "^")) := by
  intro c outside sums power
  have readable : ∀ script ∈ sums, Script.Readable script := by
    intro script member
    rcases List.mem_pair.mp member with rfl | rfl
    · exact ⟨_, rfl⟩
    · exact ⟨_, rfl⟩
  have unreadable : ∃ script ∈ power, ¬ Script.Readable script := by
    refine ⟨"2^", by decide, ?_⟩
    rintro ⟨keys, read⟩
    cases read
  have someSums : sums ≠ [] := by simp [sums]
  have somePower : power ≠ [] := by simp [power]
  have room : c.session.capacity ≤ History.greatestCapacity := by decide
  obtain ⟨listed, -⟩ := (run_history false c true someSums outside).2 room
  obtain ⟨-, failed⟩ := (run_history false c true somePower outside).2 room
  obtain ⟨earlier, bad, later, unknown, cut, -, first, asked, -, log, -⟩ := failed unreadable
  obtain rfl : unknown = '^' := by
    have met : ∀ script ∈ power, Script.firstUnknown? script = none ∨
        Script.firstUnknown? script = some '^' := by decide
    have member : bad ∈ power := by simp [cut]
    rcases met bad member with none | some
    · rw [none] at first
      cases first
    · rw [some] at first
      exact (Option.some.inj first).symm
  exact ⟨readable, unreadable, (listed readable).2.2.2 rfl, asked, congrArg Answer.failure log⟩

end Command

end Calculator
