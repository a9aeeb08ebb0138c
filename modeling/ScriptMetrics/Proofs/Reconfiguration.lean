import ScriptMetrics.Proofs.Routing

/-!
What a configuration that fails leaves behind. The old log file is closed before the new one is
opened, so where that fails the old configuration stays in force without its file: until the log is
configured anew, every line that it lets through fails and is lost. Where the log went to standard
error, nothing happens at all.
-/

namespace ScriptMetrics

def LogCall.configures : LogCall → Bool
  | .configure _ _ => true
  | _ => false

namespace Desk

/-- A log whose file has not been taken from it, and in which only a file can hold something back. -/
structure Sound (journal : Journal) : Prop where
  isOpen : journal.logging.sink ≠ .closed
  filed : journal.stuck = true → ∃ place, journal.logging.sink = .file place

theorem sound_emit (desk : Desk) (event : Event) {journal : Journal} (sound : Sound journal) :
    Sound (desk.settle (Journal.emit event journal)).2.journal := by
  by_cases low : event.level.rank < journal.logging.level.rank
  · rw [Journal.emit_low low]
    exact sound
  · by_cases refused : journal.outlet = .refused
    · rw [Journal.emit_full low sound.isOpen refused]
      refine ⟨sound.isOpen, fun _ => ?_⟩
      cases sink : journal.logging.sink with
      | standardError => simp [Journal.outlet, sink, Files.outlet] at refused
      | closed => exact absurd sink sound.isOpen
      | file place => exact ⟨place, sink⟩
    · rw [Journal.emit_taken low refused]
      simp only [settle]
      constructor
      · rw [Journal.wrote_logging]
        exact sound.isOpen
      · rw [Journal.wrote_stuck, Journal.wrote_logging]
        exact sound.filed

theorem sound_configure (desk : Desk) {level : String} {path : Option String}
    (succeeds : desk.answer (.configure level path) = none) :
    Sound (desk.next (.configure level path)).journal := by
  have free : desk.journal.stuck = false := unstuck_of_configures succeeds
  cases path with
  | none =>
      have configured : (desk.next (.configure level none)).journal = { desk.journal.shut with
          logging := { level := (Level.ofSetting? level).getD .warning, sink := .standardError } } := by
        simp [next, perform, settle, Journal.configure_eq, free]
      rw [configured]
      refine ⟨by simp, ?_⟩
      intro stuck
      cases (shut_stuck free).symm.trans stuck
  | some path =>
      cases opens : desk.journal.files.openAppend path with
      | error fault => simp [answer, perform, settle, Journal.configure_eq, free, opens] at succeeds
      | ok found =>
          have configured : (desk.next (.configure level (some path))).journal.logging.sink = .file found.1 := by
            simp [next, perform, settle, Journal.configure_eq, free, opens]
          exact ⟨by simp [configured], fun _ => ⟨_, configured⟩⟩

theorem sound_next {desk : Desk} (sound : Sound desk.journal) (call : LogCall)
    (configures : ∀ level path, call = .configure level path → desk.answer call = none) :
    Sound (desk.next call).journal := by
  cases call with
  | configure level path => exact sound_configure desk (configures level path rfl)
  | obtain component => exact sound
  | log logger now level name fields =>
      cases obtained : desk.loggers[logger]? with
      | none => simpa only [next, perform, obtained] using sound
      | some component =>
          simp only [next, perform, obtained]
          exact sound_emit desk _ ⟨sound.isOpen, sound.filed⟩

theorem sound_after (files : Files) (calls : List LogCall) (configures : (fresh files).Configures calls) :
    Sound ((fresh files).after calls).journal := by
  induction calls using List.reverseRecOn with
  | nil => exact ⟨by simp [after, fresh], fun stuck => nomatch stuck⟩
  | append_singleton before call ih =>
      rw [after_concat]
      apply sound_next (ih configures.front)
      rintro level path rfl
      exact configures.last

/-- Why a configuration fails: the old log file holds something back, or the new one cannot be opened. -/
def Fails (journal : Journal) (path : Option String) (cause : LogError) : Prop :=
  journal.stuck = true ∧ cause = .noSpace ∨
    journal.stuck = false ∧ ∃ name fault, path = some name ∧ journal.files.openAppend name = .error fault ∧
      cause = .cannotOpen name fault

theorem configure_failed_cases {desk : Desk} {level : String} {path : Option String} {cause : LogError}
    (failed : desk.answer (.configure level path) = some cause) :
    Fails desk.journal path cause ∧
      desk.next (.configure level path) = { desk with journal := desk.journal.shut } := by
  unfold answer next at *
  simp only [perform, Journal.configure_eq] at *
  cases stuck : desk.journal.stuck with
  | true =>
      simp only [stuck, ↓reduceIte, settle, Option.some.injEq] at failed ⊢
      exact ⟨.inl ⟨stuck, failed.symm⟩, trivial⟩
  | false =>
      cases path with
      | none => simp [stuck, settle] at failed
      | some path =>
          cases opens : desk.journal.files.openAppend path with
          | ok found => simp [stuck, settle, opens] at failed
          | error fault =>
              simp only [stuck, Bool.false_eq_true, ↓reduceIte, opens, settle, Option.some.injEq] at failed ⊢
              exact ⟨.inr ⟨stuck, path, fault, rfl, opens, failed.symm⟩, trivial⟩

/-- Nothing has been written since some desk, whose log goes nowhere any more. -/
structure Silenced (before desk : Desk) : Prop where
  files : desk.journal.files = before.journal.files
  output : desk.journal.output = before.journal.output
  errors : desk.journal.errors = before.journal.errors
  logging : desk.journal.logging = { before.journal.logging with sink := .closed }

section Silenced

variable {before desk : Desk}

theorem silenced_shut {place : Place} (goes : before.journal.logging.sink = .file place) :
    Silenced before { before with journal := before.journal.shut } := by
  refine ⟨Journal.shut_files _, Journal.shut_output _, Journal.shut_errors _, ?_⟩
  simp [Journal.shut, goes]

theorem Silenced.perform_log (silenced : Silenced before desk) {logger : Nat} {component : String}
    (obtained : desk.loggers[logger]? = some component) (now : String) (level : Level) (name : String)
    (fields : List (String × Value)) :
    desk.perform (.log logger now level name fields) =
      (if before.journal.logging.level.rank ≤ level.rank then some .closedFile else none,
        { desk with journal := { desk.journal with now } }) := by
  by_cases low : level.rank < before.journal.logging.level.rank
  · simp [perform, obtained, Journal.emit, silenced.logging, settle, low, Nat.not_le_of_lt low]
  · simp [perform, obtained, Journal.emit, silenced.logging, settle, low, Nat.le_of_not_lt low]

theorem Silenced.next (silenced : Silenced before desk) {call : LogCall} (other : call.configures = false) :
    Silenced before (desk.next call) := by
  cases call with
  | configure level path => cases other
  | obtain component => exact ⟨silenced.files, silenced.output, silenced.errors, silenced.logging⟩
  | log logger now level name fields =>
      unfold Desk.next
      cases obtained : desk.loggers[logger]? with
      | none =>
          simp only [perform, obtained]
          exact silenced
      | some component =>
          rw [silenced.perform_log obtained]
          exact ⟨silenced.files, silenced.output, silenced.errors, silenced.logging⟩

theorem Silenced.after (silenced : Silenced before desk) (later : List LogCall)
    (others : ∀ call ∈ later, call.configures = false) : Silenced before (desk.after later) := by
  induction later using List.reverseRecOn with
  | nil => exact silenced
  | append_singleton calls call ih =>
      rw [after_concat]
      apply (ih fun other member => others other (List.mem_append_left _ member)).next
      exact others call (by simp)

end Silenced

-- Closing what is closed already changes nothing, so a configuration finds what it would have found, but
-- nothing any more that is held back.
theorem perform_configure_shut {desk : Desk} (sound : Sound desk.journal) (level : String) (path : Option String) :
    perform { desk with journal := desk.journal.shut } (.configure level path) =
      perform { desk with journal := { desk.journal with stuck := false } } (.configure level path) := by
  cases sink : desk.journal.logging.sink with
  | closed => exact absurd sink sound.isOpen
  | standardError =>
      have free : desk.journal.stuck = false := by
        by_contra stuck
        obtain ⟨place, goes⟩ := sound.filed (by simpa using stuck)
        rw [goes] at sink
        cases sink
      have shut : desk.journal.shut = desk.journal := by simp [Journal.shut, sink]
      rw [shut, ← free]
  | file place =>
      simp only [perform, Journal.configure_eq, Journal.shut, sink]
      cases path with
      | none => rfl
      | some path =>
          simp only [Bool.false_eq_true, ↓reduceIte]
          cases desk.journal.files.openAppend path <;> rfl

end Desk

/-- What a configuration that fails does to a log that has been configured with success so far. It fails
because the old file holds something back or the new one cannot be opened. A log that goes to standard error
goes on as if nothing had happened. One that goes to a file has lost it: its level stays, and from then on
each line that the level lets through fails and is written nowhere, until the log is configured anew, which
goes as it would have gone without the failure and with nothing held back. -/
theorem configure_failed (files : Files) (calls : List LogCall)
    (configures : (Desk.fresh files).Configures calls) (level : String) (path : Option String)
    (cause : LogError) (failed : ((Desk.fresh files).after calls).answer (.configure level path) = some cause) :
    let before := (Desk.fresh files).after calls
    let broken := before.next (.configure level path)
    Desk.Fails before.journal path cause ∧
    (before.journal.logging.sink = .standardError ∧ broken = before ∨
      (∃ place, before.journal.logging.sink = .file place) ∧
      ∀ later, (∀ call ∈ later, call.configures = false) →
        (broken.after later).journal.files = before.journal.files ∧
        (broken.after later).journal.output = before.journal.output ∧
        (broken.after later).journal.errors = before.journal.errors ∧
        ∀ logger component, (broken.after later).loggers[logger]? = some component →
          ∀ now level name fields, (broken.after later).answer (.log logger now level name fields) =
            if before.journal.logging.level.rank ≤ level.rank then some .closedFile else none) ∧
    ∀ level path, broken.perform (.configure level path) =
      Desk.perform { before with journal := { before.journal with stuck := false } } (.configure level path) := by
  intro before broken
  obtain ⟨why, left⟩ := Desk.configure_failed_cases failed
  have shut : broken = { before with journal := before.journal.shut } := left
  have sound : Desk.Sound before.journal := Desk.sound_after files calls configures
  refine ⟨why, ?_, ?_⟩
  · cases sink : before.journal.logging.sink with
    | closed => exact absurd sink sound.isOpen
    | standardError =>
        refine .inl ⟨rfl, ?_⟩
        rw [shut]
        simp [Journal.shut, sink]
    | file place =>
        refine .inr ⟨⟨place, rfl⟩, ?_⟩
        intro later others
        have silenced : Desk.Silenced before (broken.after later) := by
          rw [shut]
          exact (Desk.silenced_shut sink).after later others
        refine ⟨silenced.files, silenced.output, silenced.errors, ?_⟩
        intro logger component obtained now level name fields
        unfold Desk.answer
        rw [silenced.perform_log obtained]
  · intro level path
    rw [shut]
    exact Desk.perform_configure_shut sound level path

def toRunLog : List LogCall := [.obtain "runner", .configure "INFO" (some "run.log")]

def runLogOnly : Files where
  stored := (∅ : Std.TreeMap Place Stored).insert ["run.log"] (.file .empty)

theorem toRunLog_configures : (Desk.fresh {}).Configures toRunLog := by
  apply configures_of_opens blank_wellFormed
  intro level path member
  have named : path = "run.log" := by
    simp only [toRunLog, List.mem_cons, LogCall.configure.injEq, Option.some.injEq, reduceCtorEq,
      List.not_mem_nil, or_false, false_or] at member
    exact member.2
  unfold Files.openAppend
  rw [named, blank_leads]
  exact ⟨_, _, rfl, List.not_mem_nil⟩

theorem toRunLog_after : (Desk.fresh {}).after toRunLog =
    { journal := {
        files := runLogOnly
        logging := { level := .info, sink := .file ["run.log"] }
        opened := [["run.log"]] }
      loggers := ["runner"] } := by
  have info : Level.ofSetting? "INFO" = some .info := by decide
  simp [toRunLog, runLogOnly, Desk.after, Desk.next, Desk.perform, Desk.settle, Desk.fresh, Journal.configure_eq,
    Journal.shut, Files.openAppend, blank_leads, info]

theorem runLogOnly_openAppend : runLogOnly.openAppend "no/x.log" = .error .missing := by
  have components : Path.components "no/x.log" = ["no", "x.log"] := by decide
  exact Files.openAppend_unrooted rfl rfl components (by decide) (by decide) (by decide)
    ⟨by decide, List.not_mem_nil, by decide⟩ rfl

-- The log is to move into a directory that is not there; the next error is written nowhere.
theorem moving_loses_log :
    let broken := ((Desk.fresh {}).after toRunLog).next (.configure "ERROR" (some "no/x.log"))
    broken.answer (.log 0 "noon" .error "boom" []) = some .closedFile ∧
      broken.journal.files = runLogOnly ∧ broken.journal.errors = "" := by
  have failed : ((Desk.fresh {}).after toRunLog).answer (.configure "ERROR" (some "no/x.log")) =
      some (.cannotOpen "no/x.log" .missing) := by
    rw [toRunLog_after]
    simp [Desk.answer, Desk.perform, Desk.settle, Journal.configure_eq, runLogOnly_openAppend]
  have left := configure_failed {} toRunLog toRunLog_configures "ERROR" (some "no/x.log") _ failed
  simp only [toRunLog_after] at left ⊢
  obtain ⟨_, ⟨errors, _⟩ | ⟨_, silent⟩, _⟩ := left
  · cases errors
  · obtain ⟨files, _, errors, fails⟩ := silent [] (by simp)
    refine ⟨fails 0 "runner" ?_ "noon" .error "boom" [], files, errors⟩
    simp [Desk.after, Desk.next, Desk.perform, Desk.settle, Journal.configure_eq, runLogOnly_openAppend]

end ScriptMetrics
