import ScriptMetrics.Log.Logging
import ScriptMetrics.Proofs.Extension
import ScriptMetrics.Proofs.Sequencing

/-!
Where log lines come out. A sink says where a line is sent; the store says what that comes down to: a file
that grows, one of the two streams behind a device, the null device, which swallows it, or a place that
takes nothing. Files that appear or grow leave all this as it is.
-/

namespace ScriptMetrics

inductive Outlet where
  | output
  | errors
  | file (place : Place)
  | nowhere
  | refused
deriving DecidableEq

namespace Files

def outlet (files : Files) : Sink → Outlet
  | .standardError => .errors
  | .closed => .refused
  | .file place =>
      if files.full.contains place then
        .refused
      else
        match files.deviceAt? place with
        | some .output => .output
        | some .errors => .errors
        | some .null => .nowhere
        | none => .file place

section Kept

variable {grows : Place → Prop} {before after : Files}

theorem Extended.deviceAt? (extended : before.Extended grows after) (place : Place) :
    after.deviceAt? place = before.deviceAt? place := by
  unfold Files.deviceAt?
  have entry := extended.stored place
  generalize before.stored[place]? = old at entry
  generalize after.stored[place]? = new at entry
  cases entry <;> rfl

theorem Extended.outlet (extended : before.Extended grows after) (sink : Sink) :
    after.outlet sink = before.outlet sink := by
  cases sink <;> simp only [Files.outlet, extended.rules, extended.deviceAt?]

theorem Regrown.deviceAt? (regrown : before.Regrown grows after) (place : Place) :
    after.deviceAt? place = before.deviceAt? place := by
  unfold Files.deviceAt?
  have entry := regrown.stored place
  generalize before.stored[place]? = old at entry
  generalize after.stored[place]? = new at entry
  cases entry with
  | none => rfl
  | some entry => cases entry <;> rfl

theorem Regrown.outlet (regrown : before.Regrown grows after) (sink : Sink) :
    after.outlet sink = before.outlet sink := by
  cases sink <;> simp only [Files.outlet, regrown.rules, regrown.deviceAt?]

end Kept

theorem outlet_file {files : Files} {sink : Sink} {place : Place} (comes : files.outlet sink = .file place) :
    sink = .file place ∧ place ∉ files.full ∧ files.deviceAt? place = none := by
  unfold outlet at comes
  split at comes
  · cases comes
  · cases comes
  · split at comes
    · cases comes
    · next room =>
        split at comes
        · cases comes
        · cases comes
        · cases comes
        · next plain =>
            cases comes
            exact ⟨rfl, by simpa using room, plain⟩

theorem outlet_refused_iff {files : Files} {place : Place} :
    files.outlet (.file place) = .refused ↔ place ∈ files.full := by
  by_cases full : place ∈ files.full
  · simp [outlet, full]
  · simp only [outlet, List.contains_eq_mem, full, decide_false, Bool.false_eq_true, ↓reduceIte, iff_false]
    split <;> simp

end Files

namespace Journal

/-- Where the lines of a journal come out. -/
def outlet (journal : Journal) : Outlet :=
  journal.files.outlet journal.logging.sink

/-- A journal to whose log some text has been written. -/
def wrote (journal : Journal) (text : String) : Journal :=
  match journal.outlet with
  | .output => { journal with output := journal.output ++ text }
  | .errors => { journal with errors := journal.errors ++ text }
  | .file place => { journal with files := (journal.files.append place text).getD journal.files }
  | .nowhere => journal
  | .refused => journal

section Wrote

variable (journal : Journal) (text : String)

@[simp]
theorem wrote_logging : (journal.wrote text).logging = journal.logging := by
  unfold wrote
  split <;> rfl

@[simp]
theorem wrote_now : (journal.wrote text).now = journal.now := by
  unfold wrote
  split <;> rfl

@[simp]
theorem wrote_opened : (journal.wrote text).opened = journal.opened := by
  unfold wrote
  split <;> rfl

@[simp]
theorem wrote_stuck : (journal.wrote text).stuck = journal.stuck := by
  unfold wrote
  split <;> rfl

theorem wrote_output :
    (journal.wrote text).output = journal.output ++ if journal.outlet = .output then text else "" := by
  unfold wrote
  split <;> simp [*]

theorem wrote_errors :
    (journal.wrote text).errors = journal.errors ++ if journal.outlet = .errors then text else "" := by
  unfold wrote
  split <;> simp [*]

theorem wrote_regrown :
    journal.files.Regrown (fun place => journal.outlet = .file place) (journal.wrote text).files := by
  unfold wrote
  split
  · exact .refl _
  · exact .refl _
  · next place comes =>
      cases taken : journal.files.append place text with
      | none => exact .refl _
      | some after => exact Files.append_regrown comes taken
  · exact .refl _
  · exact .refl _

theorem wrote_stored {place : Place} {content : ByteArray} (comes : journal.outlet = .file place)
    (held : journal.files.stored[place]? = some (.file content)) (other : Place) :
    (journal.wrote text).files.stored[other]? =
      if place = other then some (.file (content ++ text.toUTF8)) else journal.files.stored[other]? := by
  have room := (Files.outlet_file comes).2.1
  unfold wrote
  simp only [comes]
  cases taken : journal.files.append place text with
  | none => simp [Files.append, room, held] at taken
  | some after => exact Files.append_stored held taken other

end Wrote

section Emit

variable {journal : Journal} {event : Event}

theorem emit_low (low : event.level.rank < journal.logging.level.rank) :
    emit event journal = .ok () journal := by
  simp [emit, low]

theorem emit_full (high : ¬ event.level.rank < journal.logging.level.rank)
    (isOpen : journal.logging.sink ≠ .closed) (full : journal.outlet = .refused) :
    emit event journal = .error .noSpace { journal with stuck := true } := by
  unfold emit
  rw [if_neg high]
  unfold outlet at full
  cases sink : journal.logging.sink with
  | standardError => simp [sink, Files.outlet] at full
  | closed => exact absurd sink isOpen
  | file place =>
      rw [sink, Files.outlet_refused_iff] at full
      simp only [Files.append, full, ↓reduceIte]

theorem emit_taken (high : ¬ event.level.rank < journal.logging.level.rank)
    (taken : journal.outlet ≠ .refused) :
    emit event journal = .ok () (journal.wrote (event.line journal.now ++ "\n")) := by
  unfold emit wrote
  rw [if_neg high]
  unfold outlet at taken ⊢
  cases sink : journal.logging.sink with
  | standardError => simp [Files.outlet, writeError, String.append_assoc]
  | closed => simp [sink, Files.outlet] at taken
  | file place =>
      rw [sink, ne_eq, Files.outlet_refused_iff] at taken
      cases held : journal.files.stored[place]? with
      | none => simp [Files.outlet, Files.deviceAt?, Files.append, echo, taken, held]
      | some stored =>
          cases stored with
          | device device =>
              cases device <;> simp [Files.outlet, Files.deviceAt?, Files.append, echo, taken, held]
          | file content => simp [Files.outlet, Files.deviceAt?, Files.append, echo, taken, held]
          | directory => simp [Files.outlet, Files.deviceAt?, Files.append, echo, taken, held]
          | link target => simp [Files.outlet, Files.deviceAt?, Files.append, echo, taken, held]

end Emit

theorem configure_eq (level : String) (path : Option String) (journal : Journal) :
    configure level path journal =
      if journal.stuck then
        .error .noSpace journal.shut
      else
        let level := (Level.ofSetting? level).getD .warning
        match path with
        | none => .ok () { journal.shut with logging := { level, sink := .standardError } }
        | some path =>
            match journal.files.openAppend path with
            | .error fault => .error (.cannotOpen path fault) journal.shut
            | .ok (place, files) =>
                .ok () {
                  journal.shut with
                  files
                  logging := { level, sink := .file place }
                  opened := place :: journal.shut.opened } := by
  unfold configure
  by_cases stuck : journal.stuck
  · rw [if_pos stuck]
    exact bind_error (by simp [close, stuck])
  · rw [if_neg stuck]
    have closed : close journal = .ok () journal.shut := by simp [close, stuck]
    refine (bind_ok closed).trans ?_
    cases path with
    | none => rfl
    | some path => cases opened : journal.files.openAppend path <;> simp only [shut_files, opened]

end Journal

end ScriptMetrics
