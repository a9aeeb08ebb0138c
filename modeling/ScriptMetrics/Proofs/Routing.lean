import Mathlib.Data.List.Basic
import Mathlib.Data.List.Induction
import ScriptMetrics.Proofs.Outlet

/-!
Histories of log calls. A program configures its log, obtains loggers and logs through any of those
it has obtained; a logger is no more than the name of its component, and is bound to the
configuration of the moment at each call. Where the line of a call goes is said by the calls before
it alone: to the sink of the last configuration, if its level lets the line through.
-/

namespace ScriptMetrics

/-- What a program may do with its log. Loggers are counted in the order they were obtained in. -/
inductive LogCall where
  | configure (level : String) (path : Option String)
  | obtain (component : String)
  | log (logger : Nat) (now : String) (level : Level) (name : String) (fields : List (String × Value))

/-- The log of a program with the components of its loggers. -/
structure Desk where
  journal : Journal
  loggers : List String := []

namespace Desk

def settle (desk : Desk) : EStateM.Result LogError Journal Unit → Option LogError × Desk
  | .ok _ journal => (none, { desk with journal })
  | .error cause journal => (some cause, { desk with journal })

/-- Why a call fails, if it does, and the desk as it leaves it in either case. -/
def perform (desk : Desk) : LogCall → Option LogError × Desk
  | .configure level path => desk.settle (Journal.configure level path desk.journal)
  | .obtain component => (none, { desk with loggers := desk.loggers ++ [component] })
  | .log logger now level name fields =>
      match desk.loggers[logger]? with
      | none => (none, desk)
      | some component =>
          desk.settle (Journal.emit { component, level, name, fields } { desk.journal with now })

def answer (desk : Desk) (call : LogCall) : Option LogError :=
  (desk.perform call).1

def next (desk : Desk) (call : LogCall) : Desk :=
  (desk.perform call).2

/-- The desk after some calls, whether or not they failed. -/
def after (desk : Desk) (calls : List LogCall) : Desk :=
  calls.foldl next desk

theorem after_concat (desk : Desk) (calls : List LogCall) (call : LogCall) :
    desk.after (calls ++ [call]) = (desk.after calls).next call := by
  simp [after]

/-- How a program finds its log: nothing is configured yet. -/
def fresh (files : Files) : Desk where
  journal := { files }

/-- Every call that configures the log succeeds. -/
def Configures (desk : Desk) (calls : List LogCall) : Prop :=
  ∀ before level path rest, calls = before ++ .configure level path :: rest →
    (desk.after before).answer (.configure level path) = none

theorem Configures.front {desk : Desk} {calls : List LogCall} {call : LogCall}
    (configures : desk.Configures (calls ++ [call])) : desk.Configures calls := by
  rintro before level path rest rfl
  exact configures before level path (rest ++ [call]) (by simp)

theorem Configures.last {desk : Desk} {calls : List LogCall} {level : String} {path : Option String}
    (configures : desk.Configures (calls ++ [.configure level path])) :
    (desk.after calls).answer (.configure level path) = none :=
  configures calls level path [] rfl

theorem Configures.concat {desk : Desk} {calls : List LogCall} {call : LogCall}
    (configures : desk.Configures calls)
    (last : ∀ level path, call = .configure level path → (desk.after calls).answer call = none) :
    desk.Configures (calls ++ [call]) := by
  intro before level path rest same
  rcases List.eq_nil_or_concat rest with rfl | ⟨front, final, rfl⟩
  · obtain ⟨rfl, here⟩ := List.append_inj' same rfl
    cases here
    exact last level path rfl
  · rw [List.concat_eq_append, ← List.cons_append, ← List.append_assoc] at same
    obtain ⟨rfl, _⟩ := List.append_inj' same rfl
    exact configures before level path front rfl

end Desk

/-- The level that a configuration means by a name, in whatever case. -/
def Level.meant (name : String) : Level :=
  match Text.capitals name with
  | "DEBUG" => .debug
  | "INFO" => .info
  | "ERROR" => .error
  | _ => .warning

theorem Level.ofSetting?_getD (name : String) : (ofSetting? name).getD .warning = meant name := by
  unfold ofSetting? meant settings
  generalize Text.capitals name = capitals
  split
  · rfl
  · rfl
  · rfl
  · next debug info error =>
      by_cases warning : capitals = "WARNING"
      · subst warning
        rfl
      · simp only [List.lookup_cons, List.lookup_nil, beq_false_of_ne debug, beq_false_of_ne info,
          beq_false_of_ne error, beq_false_of_ne warning, Option.getD_none]

namespace LogCall

/-- The configuration that a call asks for. -/
def meaning (files : Files) : LogCall → Option Logging
  | .configure level none => some { level := .meant level, sink := .standardError }
  | .configure level (some path) =>
      (files.target? path).map fun place => { level := .meant level, sink := .file place }
  | _ => none

def component? : LogCall → Option String
  | .obtain component => some component
  | _ => none

end LogCall

/-- The configuration that some calls leave in force. -/
def standing (files : Files) (before : List LogCall) : Logging :=
  (before.filterMap (·.meaning files)).getLast?.getD {}

/-- The line that a call has to write after some other calls, and where to. -/
def delivery (files : Files) (before : List LogCall) : LogCall → Option (Sink × String)
  | .log logger now level name fields => do
      let component ← (before.filterMap LogCall.component?)[logger]?
      let current := standing files before
      if current.level.rank ≤ level.rank then
        return (current.sink, ({ component, level, name, fields } : Event).line now ++ "\n")
      else
        none
  | _ => none

/-- The lines of all calls in order, each decided by the calls before it. -/
def deliveries (files : Files) (calls : List LogCall) : List (Sink × String) :=
  (List.range calls.length).filterMap fun i => calls[i]?.bind (delivery files (calls.take i))

/-- All that comes out at one place. -/
def textAt (files : Files) (outlet : Outlet) (lines : List (Sink × String)) : String :=
  String.join ((lines.filter (files.outlet ·.1 = outlet)).map (·.2))

/-- Some line is sent where nothing is taken. -/
def refuses (files : Files) (lines : List (Sink × String)) : Bool :=
  lines.any (files.outlet ·.1 = .refused)

/-- Why a call has to fail after some other calls: its line is sent where nothing is taken. -/
def refusal (files : Files) (before : List LogCall) (call : LogCall) : Option LogError :=
  if refuses files (delivery files before call).toList then some .noSpace else none

/-- Some call makes the log go to the file at a place. -/
def IsLog (files : Files) (calls : List LogCall) (place : Place) : Prop :=
  ∃ call ∈ calls, ∃ level, call.meaning files = some { level, sink := .file place }

section Concat

variable (files : Files) (before : List LogCall) (call : LogCall)

theorem standing_concat :
    standing files (before ++ [call]) = (call.meaning files).getD (standing files before) := by
  unfold standing
  cases meant : call.meaning files with
  | none => simp [meant]
  | some logging => simp [meant]

theorem deliveries_concat :
    deliveries files (before ++ [call]) = deliveries files before ++ (delivery files before call).toList := by
  unfold deliveries
  rw [List.length_append, List.length_singleton, List.range_succ, List.filterMap_append]
  congr 1
  · apply List.filterMap_congr
    intro i inside
    have early : i < before.length := List.mem_range.mp inside
    rw [List.getElem?_append_left early, List.take_append_of_le_length (Nat.le_of_lt early)]
  · simp only [List.filterMap_cons, List.filterMap_nil, List.getElem?_concat_length, List.take_left,
      Option.bind_some]
    cases delivery files before call <;> rfl

theorem textAt_append (outlet : Outlet) (lines others : List (Sink × String)) :
    textAt files outlet (lines ++ others) = textAt files outlet lines ++ textAt files outlet others := by
  simp [textAt]

@[simp]
theorem textAt_nil (outlet : Outlet) : textAt files outlet [] = "" :=
  rfl

theorem textAt_single (outlet : Outlet) (sink : Sink) (line : String) :
    textAt files outlet [(sink, line)] = if files.outlet sink = outlet then line else "" := by
  by_cases comes : files.outlet sink = outlet <;> simp [textAt, comes]

theorem refuses_append (lines others : List (Sink × String)) :
    refuses files (lines ++ others) = (refuses files lines || refuses files others) := by
  simp [refuses]

theorem isLog_concat (place : Place) : IsLog files (before ++ [call]) place ↔
    IsLog files before place ∨ ∃ level, call.meaning files = some { level, sink := .file place } := by
  simp [IsLog, or_and_right, exists_or]

end Concat

-- The sink in force is the one of some call, or standard error.
theorem standing_sink (files : Files) (calls : List LogCall) :
    (standing files calls).sink = .standardError ∨
      ∃ place, (standing files calls).sink = .file place ∧ IsLog files calls place := by
  induction calls using List.reverseRecOn with
  | nil => exact .inl rfl
  | append_singleton before call ih =>
      rw [standing_concat]
      simp only [isLog_concat]
      cases meant : call.meaning files with
      | none =>
          rcases ih with errors | ⟨place, goes, logged⟩
          · exact .inl errors
          · exact .inr ⟨place, goes, .inl logged⟩
      | some logging =>
          unfold LogCall.meaning at meant
          split at meant
          · cases meant
            exact .inl rfl
          · obtain ⟨place, _, rfl⟩ := Option.map_eq_some_iff.mp meant
            exact .inr ⟨place, rfl, .inr ⟨_, rfl⟩⟩
          · cases meant

theorem delivery_sink {files : Files} {before : List LogCall} {call : LogCall} {sink : Sink} {line : String}
    (delivered : delivery files before call = some (sink, line)) : sink = (standing files before).sink := by
  unfold delivery at delivered
  split at delivered
  · simp only [Option.bind_eq_bind, Option.bind_eq_some_iff] at delivered
    obtain ⟨component, _, passed⟩ := delivered
    split at passed
    · cases passed
      rfl
    · cases passed
  · cases delivered

theorem delivery_sent {files : Files} {before : List LogCall} {call : LogCall} {line : Sink × String}
    (delivered : line ∈ (delivery files before call).toList) : line.1 = (standing files before).sink :=
  delivery_sink (Option.mem_toList.mp delivered)

theorem deliveries_sent {files : Files} {calls : List LogCall} {line : Sink × String}
    (delivered : line ∈ deliveries files calls) :
    line.1 = .standardError ∨ ∃ place, line.1 = .file place ∧ IsLog files calls place := by
  induction calls using List.reverseRecOn with
  | nil => cases delivered
  | append_singleton before call ih =>
      simp only [isLog_concat]
      rw [deliveries_concat, List.mem_append] at delivered
      rcases delivered with early | last
      · rcases ih early with errors | ⟨place, goes, logged⟩
        · exact .inl errors
        · exact .inr ⟨place, goes, .inl logged⟩
      · rw [delivery_sent last]
        rcases standing_sink files before with errors | ⟨place, goes, logged⟩
        · exact .inl errors
        · exact .inr ⟨place, goes, .inl logged⟩

/-- Nothing comes out at a file that no configuration names, nor at one that is a device. -/
theorem textAt_unlogged (files : Files) (calls : List LogCall) (place : Place)
    (unlogged : ¬ (IsLog files calls place ∧ files.deviceAt? place = none)) :
    textAt files (.file place) (deliveries files calls) = "" := by
  have none : (deliveries files calls).filter (files.outlet ·.1 = .file place) = [] := by
    rw [List.filter_eq_nil_iff]
    intro line delivered
    rw [decide_eq_true_eq]
    intro comes
    obtain ⟨goes, _, plain⟩ := Files.outlet_file comes
    rcases deliveries_sent delivered with errors | ⟨other, file, logged⟩
    · rw [goes] at errors
      cases errors
    · rw [goes] at file
      cases file
      exact unlogged ⟨logged, plain⟩
  simp [textAt, none]

/-- The files that a sink keeps open. -/
def Sink.open : Sink → List Place
  | .file place => [place]
  | _ => []

/-- A desk on which all is as the calls before say: what is configured and obtained, which file is open,
what has been written, and whether something is held back. -/
structure Accounted (files : Files) (before : List LogCall) (desk : Desk) : Prop where
  loggers : desk.loggers = before.filterMap LogCall.component?
  logging : desk.journal.logging = standing files before
  opened : desk.journal.opened = (standing files before).sink.open
  extended : files.Extended (IsLog files before) desk.journal.files
  output : desk.journal.output = textAt files .output (deliveries files before)
  errors : desk.journal.errors = textAt files .errors (deliveries files before)
  written : ∀ place, IsLog files before place → files.deviceAt? place = none →
    desk.journal.files.stored[place]? =
      some (.file (files.contentAt place ++ (textAt files (.file place) (deliveries files before)).toUTF8))
  stuck : desk.journal.stuck = refuses files (deliveries files before)

theorem accounted_fresh (files : Files) : Accounted files [] (.fresh files) := by
  refine ⟨rfl, rfl, rfl, .refl files ?_, rfl, rfl, ?_, rfl⟩
  · rintro place ⟨_, member, _⟩
    cases member
  · rintro place ⟨_, member, _⟩
    cases member

section Steps

variable {files : Files} {before : List LogCall} {desk : Desk}

theorem Accounted.unwritten (accounted : Accounted files before desk) {place : Place}
    (unlogged : ¬ (IsLog files before place ∧ files.deviceAt? place = none)) :
    desk.journal.files.stored[place]? = files.stored[place]? := by
  by_cases logged : IsLog files before place
  · obtain ⟨device, there⟩ := Option.ne_none_iff_exists'.mp fun plain => unlogged ⟨logged, plain⟩
    have still := (accounted.extended.deviceAt? place).trans there
    rw [Files.deviceAt?_eq_some.mp there, Files.deviceAt?_eq_some.mp still]
  · exact accounted.extended.elsewhere logged

theorem Accounted.content (accounted : Accounted files before desk) (place : Place) :
    desk.journal.files.contentAt place =
      files.contentAt place ++ (textAt files (.file place) (deliveries files before)).toUTF8 := by
  by_cases logged : IsLog files before place ∧ files.deviceAt? place = none
  · have written := accounted.written place logged.1 logged.2
    unfold Files.contentAt at written ⊢
    rw [written]
  · have same := accounted.unwritten logged
    rw [textAt_unlogged files before place logged]
    unfold Files.contentAt
    rw [same]
    exact ByteArray.append_empty.symm

theorem Accounted.outlet (accounted : Accounted files before desk) :
    desk.journal.outlet = files.outlet desk.journal.logging.sink :=
  accounted.extended.outlet _

theorem Accounted.isOpen (accounted : Accounted files before desk) :
    desk.journal.logging.sink ≠ .closed := by
  rw [accounted.logging]
  rcases standing_sink files before with errors | ⟨place, file, _⟩
  · simp [errors]
  · simp [file]

theorem Accounted.opened_eq (accounted : Accounted files before desk) :
    desk.journal.opened = desk.journal.logging.sink.open := by
  rw [accounted.opened, accounted.logging]

theorem Accounted.held (accounted : Accounted files before desk) {place : Place}
    (logged : IsLog files before place) (plain : files.deviceAt? place = none) :
    desk.journal.files.stored[place]? = some (.file (desk.journal.files.contentAt place)) := by
  rw [accounted.content]
  exact accounted.written place logged plain

theorem Accounted.shut_opened (accounted : Accounted files before desk) :
    desk.journal.shut.opened = [] := by
  have opened := accounted.opened
  have sink := standing_sink files before
  rw [← accounted.logging] at opened sink
  unfold Journal.shut
  rcases sink with errors | ⟨place, file, _⟩
  · rw [errors] at opened
    simp only [errors, opened, Sink.open]
  · rw [file] at opened
    simp [file, opened, Sink.open]

section Next

variable {call : LogCall} {after : Desk}

-- What one more call has to do to the desk for all to be as the calls say.
theorem Accounted.concat (accounted : Accounted files before desk)
    (loggers : after.loggers = desk.loggers ++ call.component?.toList)
    (logging : after.journal.logging = (call.meaning files).getD desk.journal.logging)
    (opened : after.journal.opened = after.journal.logging.sink.open)
    (extended : files.Extended (IsLog files (before ++ [call])) after.journal.files)
    (output : after.journal.output =
      desk.journal.output ++ textAt files .output (delivery files before call).toList)
    (errors : after.journal.errors =
      desk.journal.errors ++ textAt files .errors (delivery files before call).toList)
    (written : ∀ place, IsLog files (before ++ [call]) place → files.deviceAt? place = none →
      after.journal.files.stored[place]? = some (.file (desk.journal.files.contentAt place ++
        (textAt files (.file place) (delivery files before call).toList).toUTF8)))
    (stuck : after.journal.stuck = (desk.journal.stuck || refuses files (delivery files before call).toList)) :
    Accounted files (before ++ [call]) after := by
  have current : after.journal.logging = standing files (before ++ [call]) := by
    rw [logging, accounted.logging, standing_concat]
  refine ⟨?_, current, ?_, extended, ?_, ?_, ?_, ?_⟩
  · rw [loggers, accounted.loggers, List.filterMap_append]
    cases named : call.component? <;> simp [named]
  · rw [opened, current]
  · rw [output, accounted.output, deliveries_concat, textAt_append]
  · rw [errors, accounted.errors, deliveries_concat, textAt_append]
  · intro place logged plain
    rw [written place logged plain, accounted.content, deliveries_concat, textAt_append, ByteArray.append_assoc]
    simp
  · rw [stuck, accounted.stuck, deliveries_concat, refuses_append]

/-- Apart from the time, nothing that a journal has written or holds back is different. -/
structure Same (journal after : Journal) : Prop where
  files : after.files = journal.files
  output : after.output = journal.output
  errors : after.errors = journal.errors
  stuck : after.stuck = journal.stuck

theorem Accounted.quiet (accounted : Accounted files before desk)
    (silent : delivery files before call = none)
    (logs : ∀ place, IsLog files (before ++ [call]) place ↔ IsLog files before place)
    (loggers : after.loggers = desk.loggers ++ call.component?.toList)
    (logging : after.journal.logging = (call.meaning files).getD desk.journal.logging)
    (opened : after.journal.opened = after.journal.logging.sink.open)
    (same : Same desk.journal after.journal) :
    Accounted files (before ++ [call]) after := by
  apply accounted.concat loggers logging opened
  · rw [same.files]
    exact accounted.extended.congr logs
  · rw [silent, same.output]
    exact String.append_empty.symm
  · rw [silent, same.errors]
    exact String.append_empty.symm
  · intro place logged plain
    rw [silent, same.files, accounted.held ((logs place).mp logged) plain]
    exact congrArg (fun content => some (Stored.file content)) ByteArray.append_empty.symm
  · rw [silent, same.stuck]
    exact (Bool.or_false _).symm

end Next

theorem isLog_of_unmeant {call : LogCall} (unmeant : call.meaning files = none) (place : Place) :
    IsLog files (before ++ [call]) place ↔ IsLog files before place := by
  rw [isLog_concat, unmeant]
  simp

theorem Accounted.obtain (accounted : Accounted files before desk) (component : String) :
    Accounted files (before ++ [.obtain component]) (desk.next (.obtain component)) := by
  apply accounted.quiet
  · rfl
  · exact isLog_of_unmeant rfl
  · rfl
  · rfl
  · exact accounted.opened_eq
  · exact ⟨rfl, rfl, rfl, rfl⟩

-- Closing a log that holds something back fails, so nothing is held back where a configuration succeeds.
theorem unstuck_of_configures {level : String} {path : Option String}
    (succeeds : desk.answer (.configure level path) = none) : desk.journal.stuck = false := by
  cases stuck : desk.journal.stuck with
  | false => rfl
  | true => simp [Desk.answer, Desk.perform, Desk.settle, Journal.configure_eq, stuck] at succeeds

theorem shut_stuck {journal : Journal} (free : journal.stuck = false) : journal.shut.stuck = false := by
  unfold Journal.shut
  split
  · rfl
  · exact free

theorem Accounted.configure_errors (accounted : Accounted files before desk) (level : String)
    (succeeds : desk.answer (.configure level none) = none) :
    Accounted files (before ++ [.configure level none]) (desk.next (.configure level none)) := by
  have free := unstuck_of_configures succeeds
  have configured : desk.next (.configure level none) = { desk with
      journal := { desk.journal.shut with logging := { level := .meant level, sink := .standardError } } } := by
    simp [Desk.next, Desk.perform, Desk.settle, Journal.configure_eq, free, Level.ofSetting?_getD]
  rw [configured]
  apply accounted.quiet rfl
  · intro place
    rw [isLog_concat]
    simp [LogCall.meaning]
  · exact (List.append_nil _).symm
  · rfl
  · exact accounted.shut_opened
  · refine ⟨desk.journal.shut_files, desk.journal.shut_output, desk.journal.shut_errors, ?_⟩
    exact (shut_stuck free).trans free.symm

-- The file is where the path leads to in the store before all calls, since the logs that have appeared
-- since then change no way that leads anywhere.
theorem Accounted.configure_file (accounted : Accounted files before desk) (wellFormed : files.WellFormed)
    (level path : String) (succeeds : desk.answer (.configure level (some path)) = none) :
    Accounted files (before ++ [.configure level (some path)]) (desk.next (.configure level (some path))) := by
  have free := unstuck_of_configures succeeds
  cases opens : desk.journal.files.openAppend path with
  | error fault =>
      simp [Desk.answer, Desk.perform, Desk.settle, Journal.configure_eq, free, opens] at succeeds
  | ok found =>
      obtain ⟨place, opened⟩ := found
      have leads : files.target? path = some place := by
        rw [← accounted.extended.target? wellFormed]
        exact Files.openAppend_target opens
      have meant : (LogCall.configure level (some path)).meaning files =
          some { level := .meant level, sink := .file place } := by
        simp [LogCall.meaning, leads]
      have logs : ∀ other, IsLog files (before ++ [.configure level (some path)]) other ↔
          IsLog files before other ∨ other = place := by
        intro other
        rw [isLog_concat, meant]
        simp [eq_comm]
      have left : desk.next (.configure level (some path)) = { desk with journal := {
          desk.journal.shut with
          files := opened
          logging := { level := (Level.ofSetting? level).getD .warning, sink := .file place }
          opened := place :: desk.journal.shut.opened } } := by
        simp [Desk.next, Desk.perform, Desk.settle, Journal.configure_eq, free, opens]
      rw [left]
      apply accounted.concat
      · exact (List.append_nil _).symm
      · rw [meant, ← Level.ofSetting?_getD]
        rfl
      · rw [accounted.shut_opened]
        rfl
      · exact (accounted.extended.trans (Files.openAppend_extended opens)).congr logs
      · rw [Journal.shut_output]
        exact String.append_empty.symm
      · rw [Journal.shut_errors]
        exact String.append_empty.symm
      · intro other logged plain
        show opened.stored[other]? = some (.file (_ ++ ByteArray.empty))
        rw [ByteArray.append_empty]
        by_cases same : other = place
        · subst same
          rcases Files.openAppend_stored opens with ⟨⟨device, there⟩, _⟩ | ⟨_, stored⟩
          · rw [accounted.extended.deviceAt?, plain] at there
            cases there
          · exact stored
        · rw [(Files.openAppend_extended opens).elsewhere same]
          exact accounted.held (((logs other).mp logged).resolve_right same) plain
      · exact ((shut_stuck free).trans free.symm).trans (Bool.or_false _).symm

section Lines

variable {logger : Nat} {now : String} {level : Level} {name : String} {fields : List (String × Value)}

theorem Accounted.log_unknown (accounted : Accounted files before desk) (unknown : desk.loggers[logger]? = none) :
    desk.answer (.log logger now level name fields) =
        refusal files before (.log logger now level name fields) ∧
      Accounted files (before ++ [.log logger now level name fields])
        (desk.next (.log logger now level name fields)) := by
  have same : desk.perform (.log logger now level name fields) = (none, desk) := by
    simp [Desk.perform, unknown]
  have silent : delivery files before (.log logger now level name fields) = none := by
    simp [delivery, ← accounted.loggers, unknown]
  unfold Desk.answer Desk.next refusal
  rw [same, silent]
  exact ⟨rfl, accounted.quiet silent (isLog_of_unmeant rfl) (List.append_nil _).symm rfl
    accounted.opened_eq ⟨rfl, rfl, rfl, rfl⟩⟩

variable {component : String}

theorem Accounted.log_low (accounted : Accounted files before desk)
    (obtained : desk.loggers[logger]? = some component)
    (low : level.rank < desk.journal.logging.level.rank) :
    desk.answer (.log logger now level name fields) =
        refusal files before (.log logger now level name fields) ∧
      Accounted files (before ++ [.log logger now level name fields])
        (desk.next (.log logger now level name fields)) := by
  have same : desk.perform (.log logger now level name fields) =
      (none, { desk with journal := { desk.journal with now } }) := by
    simp only [Desk.perform, obtained]
    rw [Journal.emit_low low]
    rfl
  have silent : delivery files before (.log logger now level name fields) = none := by
    simp [delivery, ← accounted.loggers, obtained, ← accounted.logging, low]
  unfold Desk.answer Desk.next refusal
  rw [same, silent]
  exact ⟨rfl, accounted.quiet silent (isLog_of_unmeant rfl) (List.append_nil _).symm rfl
    accounted.opened_eq ⟨rfl, rfl, rfl, rfl⟩⟩

-- The line that an event let through has to write, and to where.
theorem Accounted.delivery_high (accounted : Accounted files before desk)
    (obtained : desk.loggers[logger]? = some component)
    (high : ¬ level.rank < desk.journal.logging.level.rank) :
    delivery files before (.log logger now level name fields) = some
      (desk.journal.logging.sink, ({ component, level, name, fields } : Event).line now ++ "\n") := by
  simp [delivery, ← accounted.loggers, obtained, ← accounted.logging, Nat.le_of_not_lt high]

theorem Accounted.log_full (accounted : Accounted files before desk)
    (obtained : desk.loggers[logger]? = some component)
    (high : ¬ level.rank < desk.journal.logging.level.rank)
    (full : files.outlet desk.journal.logging.sink = .refused) :
    desk.answer (.log logger now level name fields) =
        refusal files before (.log logger now level name fields) ∧
      Accounted files (before ++ [.log logger now level name fields])
        (desk.next (.log logger now level name fields)) := by
  let line := ({ component, level, name, fields } : Event).line now ++ "\n"
  have delivered : delivery files before (.log logger now level name fields) =
      some (desk.journal.logging.sink, line) := accounted.delivery_high obtained high
  have same : desk.perform (.log logger now level name fields) =
      (some .noSpace, { desk with journal := { desk.journal with now, stuck := true } }) := by
    have fails : Journal.emit { component, level, name, fields } { desk.journal with now } =
        .error .noSpace { desk.journal with now, stuck := true } :=
      Journal.emit_full high accounted.isOpen (accounted.outlet.trans full)
    simp only [Desk.perform, obtained, fails, Desk.settle]
  unfold Desk.answer Desk.next
  rw [same]
  refine ⟨by simp [refusal, delivered, refuses, full],
    accounted.concat (List.append_nil _).symm rfl accounted.opened_eq ?_ ?_ ?_ ?_ ?_⟩
  · exact accounted.extended.congr (isLog_of_unmeant rfl)
  · simp [delivered, textAt_single, full]
  · simp [delivered, textAt_single, full]
  · intro place logged plain
    simp only [delivered, Option.toList_some, textAt_single, full, reduceCtorEq, ↓reduceIte]
    exact (accounted.held ((isLog_of_unmeant rfl place).mp logged) plain).trans
      (congrArg (fun content => some (Stored.file content)) ByteArray.append_empty.symm)
  · simp [delivered, refuses, full]

theorem Accounted.log_taken (accounted : Accounted files before desk)
    (obtained : desk.loggers[logger]? = some component)
    (high : ¬ level.rank < desk.journal.logging.level.rank)
    (taken : files.outlet desk.journal.logging.sink ≠ .refused) :
    desk.answer (.log logger now level name fields) =
        refusal files before (.log logger now level name fields) ∧
      Accounted files (before ++ [.log logger now level name fields])
        (desk.next (.log logger now level name fields)) := by
  let line := ({ component, level, name, fields } : Event).line now ++ "\n"
  let timed : Journal := { desk.journal with now }
  have delivered : delivery files before (.log logger now level name fields) =
      some (desk.journal.logging.sink, line) := accounted.delivery_high obtained high
  have comes : timed.outlet = files.outlet desk.journal.logging.sink := accounted.outlet
  have same : desk.perform (.log logger now level name fields) =
      (none, { desk with journal := timed.wrote line }) := by
    simp only [Desk.perform, obtained]
    rw [Journal.emit_taken high (comes.trans_ne taken)]
    rfl
  unfold Desk.answer Desk.next
  rw [same]
  refine ⟨by simp [refusal, delivered, refuses, taken],
    accounted.concat (List.append_nil _).symm ?_ ?_ ?_ ?_ ?_ ?_ ?_⟩
  · exact timed.wrote_logging line
  · rw [Journal.wrote_opened, Journal.wrote_logging]
    exact accounted.opened_eq
  · refine (accounted.extended.regrown ((timed.wrote_regrown line).imp ?_)).congr (isLog_of_unmeant rfl)
    intro place writes
    have goes := (Files.outlet_file (comes.symm.trans writes)).1
    rw [accounted.logging] at goes
    rcases standing_sink files before with errors | ⟨other, file, logged⟩
    · rw [goes] at errors
      cases errors
    · rw [goes] at file
      cases file
      exact logged
  · rw [delivered, Option.toList_some, textAt_single, ← comes]
    exact timed.wrote_output line
  · rw [delivered, Option.toList_some, textAt_single, ← comes]
    exact timed.wrote_errors line
  · intro place logged plain
    have held := accounted.held ((isLog_of_unmeant rfl place).mp logged) plain
    rw [delivered, Option.toList_some, textAt_single, ← comes]
    by_cases writes : timed.outlet = .file place
    · rw [if_pos writes]
      exact (timed.wrote_stored line writes held place).trans (if_pos rfl)
    · rw [if_neg writes, (timed.wrote_regrown line).elsewhere writes]
      exact held.trans (congrArg (fun content => some (Stored.file content)) ByteArray.append_empty.symm)
  · rw [Journal.wrote_stuck, delivered]
    simp [refuses, taken, timed]

end Lines

theorem Accounted.log (accounted : Accounted files before desk) (logger : Nat) (now : String) (level : Level)
    (name : String) (fields : List (String × Value)) :
    desk.answer (.log logger now level name fields) =
        refusal files before (.log logger now level name fields) ∧
      Accounted files (before ++ [.log logger now level name fields])
        (desk.next (.log logger now level name fields)) := by
  cases obtained : desk.loggers[logger]? with
  | none => exact accounted.log_unknown obtained
  | some component =>
      by_cases low : level.rank < desk.journal.logging.level.rank
      · exact accounted.log_low obtained low
      · by_cases full : files.outlet desk.journal.logging.sink = .refused
        · exact accounted.log_full obtained low full
        · exact accounted.log_taken obtained low full

theorem Accounted.next (accounted : Accounted files before desk) (wellFormed : files.WellFormed) (call : LogCall)
    (configures : ∀ level path, call = .configure level path → desk.answer call = none) :
    desk.answer call = refusal files before call ∧ Accounted files (before ++ [call]) (desk.next call) := by
  cases call with
  | configure level path =>
      have succeeds := configures level path rfl
      cases path with
      | none => exact ⟨succeeds, accounted.configure_errors level succeeds⟩
      | some path => exact ⟨succeeds, accounted.configure_file wellFormed level path succeeds⟩
  | obtain component => exact ⟨rfl, accounted.obtain component⟩
  | log logger now level name fields => exact accounted.log logger now level name fields

end Steps

theorem accounted_after {files : Files} (wellFormed : files.WellFormed) (calls : List LogCall)
    (configures : (Desk.fresh files).Configures calls) :
    Accounted files calls ((Desk.fresh files).after calls) := by
  induction calls using List.reverseRecOn with
  | nil => exact accounted_fresh files
  | append_singleton before call ih =>
      rw [Desk.after_concat]
      refine ((ih configures.front).next wellFormed call ?_).2
      rintro level path rfl
      exact configures.last

theorem refuses_deliveries {files : Files} {calls : List LogCall}
    (roomy : ∀ place, IsLog files calls place → place ∉ files.full) :
    refuses files (deliveries files calls) = false := by
  simp only [refuses, List.any_eq_false, decide_eq_true_eq]
  intro line delivered refused
  rcases deliveries_sent delivered with errors | ⟨place, goes, logged⟩
  · rw [errors] at refused
    cases refused
  · rw [goes, Files.outlet_refused_iff] at refused
    exact roomy place logged refused

-- Of the calls only configurations name files, and what such a path leads to is what is opened.
theorem roomy_of_opens {files : Files} {calls : List LogCall}
    (opens : ∀ level path, .configure level (some path) ∈ calls →
      ∃ place opened, files.openAppend path = .ok (place, opened) ∧ place ∉ files.full)
    (place : Place) (logged : IsLog files calls place) : place ∉ files.full := by
  obtain ⟨call, member, level, meant⟩ := logged
  unfold LogCall.meaning at meant
  split at meant
  · cases meant
  · next name path =>
      obtain ⟨other, leads, same⟩ := Option.map_eq_some_iff.mp meant
      cases same
      obtain ⟨found, _, opened, room⟩ := opens name path member
      rw [Files.openAppend_target opened] at leads
      cases leads
      exact room
  · cases meant

/-- What could be opened and written to before any call can be opened at every call. -/
theorem configures_of_opens {files : Files} (wellFormed : files.WellFormed) (calls : List LogCall)
    (opens : ∀ level path, .configure level (some path) ∈ calls →
      ∃ place opened, files.openAppend path = .ok (place, opened) ∧ place ∉ files.full) :
    (Desk.fresh files).Configures calls := by
  induction calls using List.reverseRecOn with
  | nil =>
      intro before level path rest same
      simp at same
  | append_singleton before call ih =>
      have opensEarly level path (member : .configure level (some path) ∈ before) :=
        opens level path (List.mem_append_left _ member)
      have early := ih opensEarly
      have accounted := accounted_after wellFormed before early
      have free := accounted.stuck.trans (refuses_deliveries (roomy_of_opens opensEarly))
      refine early.concat ?_
      rintro level path rfl
      cases path with
      | none => simp [Desk.answer, Desk.perform, Journal.configure_eq, free, Desk.settle]
      | some path =>
          obtain ⟨place, opened, first, _⟩ := opens level path (by simp)
          obtain ⟨later, again⟩ := accounted.extended.opens wellFormed first
          simp [Desk.answer, Desk.perform, Journal.configure_eq, free, again, Desk.settle]

theorem blank_wellFormed : Files.WellFormed {} where
  enclosed := by
    intro place held
    have root : place = [] := by
      by_contra other
      simp [Files.get?, other] at held
    subst root
    rfl
  named := by
    intro place held
    simp at held

theorem blank_leads : Files.resolve {} "run.log" = .ok (.free ["run.log"]) := by
  have passable : Files.Passable {} [] "run.log" := ⟨by decide, List.not_mem_nil, by decide⟩
  have free : Files.get? {} ["run.log"] = none := rfl
  rw [Files.resolve_name rfl rfl (by decide) (by decide) passable (by simp [free]), free]
  rfl

end ScriptMetrics
