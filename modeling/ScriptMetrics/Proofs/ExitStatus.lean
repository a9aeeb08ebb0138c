import ScriptMetrics.Proofs.Survey

/-!
The status that a run exits with. It is two if something keeps the analysis from its end, one if a
function goes beyond a limit, and zero otherwise; what is printed is the first failure, or what each file
is reported as when it is analysed alone. Three things leave a run without a status: a log that cannot be
opened or is full, a call to the crash reporting service that fails, and a path of which it cannot be told
whether anything stands there.
-/

namespace ScriptMetrics

namespace Run

open Workbench (Analyzed InTurn ComesTo alone)

/-- How a run ends whose log is open. -/
inductive EndsAs (settings : Settings) (opened : Session) (good : Nat → Session → Prop) :
    EStateM.Result Escape Session (Nat × Workbench) → Prop where
  | status {status : Nat} {bench : Workbench} {after : Session} {stored : Option Stored}
      (seen : opened.journal.files.look settings.path = .ok stored) (holds : good status after) :
      EndsAs settings opened good (.ok (status, bench) after)
  | unseen {fault : PathFault} {after : Session}
      (blind : opened.journal.files.look settings.path = .error fault) :
      EndsAs settings opened good (.error (.breakdown (.unseen settings.path fault)) after)
  | cut {escape : Escape} {after : Session} (cut : opened.Cut escape after) :
      EndsAs settings opened good (.error escape after)

theorem EndsAs.imp {settings : Settings} {opened : Session} {good better : Nat → Session → Prop}
    {result : EStateM.Result Escape Session (Nat × Workbench)} (ends : EndsAs settings opened good result)
    (stronger : ∀ status after, good status after → better status after) :
    EndsAs settings opened better result := by
  cases ends with
  | status seen holds => exact .status seen (stronger _ _ holds)
  | unseen blind => exact .unseen blind
  | cut cut => exact .cut cut

-- Lines that have gone to the log since it was opened change nothing about how a run can end.
theorem EndsAs.earlier {settings : Settings} {configured opened : Session} {good : Nat → Session → Prop}
    {result : EStateM.Result Escape Session (Nat × Workbench)} (grown : configured.Grown opened)
    (ends : EndsAs settings opened good result) : EndsAs settings configured good result := by
  cases ends with
  | status seen holds =>
      cases looked : configured.journal.files.look settings.path with
      | ok stored => exact .status looked holds
      | error fault =>
          rw [(grown.journal.files.look_error _ _).mpr looked] at seen
          cases seen
  | unseen blind => exact .unseen ((grown.journal.files.look_error _ _).mp blind)
  | cut cut => exact .cut (grown.cut cut)

theorem endsAs_settled (settings : Settings) (parser : String → Parsed) (loads : List (Option String))
    {session : Session} (isOpen : session.IsOpen) :
    EndsAs settings session (fun status after => Completes settings parser loads session after status)
      (settled settings (fun _ => parser) { loads } session) := by
  cases looked : session.journal.files.look settings.path with
  | ok stored =>
      cases settled_ends settings parser loads isOpen looked with
      | ok ran completes =>
          rw [ran]
          exact .status looked completes
      | error failed cut =>
          rw [failed]
          exact .cut cut
  | error fault =>
      cases settled_blind settings (fun _ => parser) { loads } isOpen looked with
      | ok _ never => exact never.elim
      | error failed fails =>
          rw [failed]
          rcases fails with cut | ⟨rfl, _⟩
          · exact .cut cut
          · exact .unseen looked

/-- What keeps an analysis from its end. -/
inductive Fatal (files : Files) (settings : Settings) (loads : List (Option String)) : Prop where
  | lost (cause : AnalysisError)
      (fails : files.sources settings.search settings.path = .error (.analysis cause))
  | unreadable (paths : List String) (found : files.sources settings.search settings.path = .ok paths)
      (path : String) (member : path ∈ paths) (fault : PathFault) (unread : files.read path = .error fault)
  | noGrammar (paths : List String) (found : files.sources settings.search settings.path = .ok paths)
      (path : String) (member : path ∈ paths) (content : ByteArray) (read : files.read path = .ok content)
      (cause : String) (fails : loads.head?.join = some cause)

/-- Some function of some source goes beyond a limit. -/
def Exceeded (files : Files) (settings : Settings) (parser : String → Parsed)
    (loads : List (Option String)) : Prop :=
  ∃ paths, files.sources settings.search settings.path = .ok paths ∧ ∃ path ∈ paths, ∃ report,
    alone files parser loads path = .ok report ∧
      ∃ evaluation ∈ report.functions, evaluation.record.IsBeyond

/-- The reports of all sources, each analysed alone, or the first failure in order of discovery. -/
def survey (files : Files) (settings : Settings) (parser : String → Parsed)
    (loads : List (Option String)) : Except Interruption (List FileReport) := do
  let paths ← files.sources settings.search settings.path
  paths.mapM (alone files parser loads)

/-- The log does not go to a source. -/
def LogApart (settings : Settings) (journal : Journal) : Prop :=
  ∀ paths, journal.files.sources settings.search settings.path = .ok paths → ∀ path ∈ paths,
    ∀ place stored, journal.logging.sink = .file place →
      journal.files.resolveTidy path ≠ .ok (.at place stored)

section Survey

variable {files : Files} {settings : Settings} {parser : String → Parsed} {loads : List (Option String)}

theorem alone_error_iff (path : String) :
    (∃ cause, alone files parser loads path = .error cause) ↔
      (∃ fault, files.read path = .error fault) ∨
        (∃ content, files.read path = .ok content) ∧ ∃ cause, loads.head?.join = some cause := by
  have source := files.readSource_eq path
  cases read : files.read path with
  | error fault =>
      rw [read] at source
      have failed : alone files parser loads path = _ := (Analyzed.unreadable fault source).alone_eq
      simp [failed, Except.mapError]
  | ok content =>
      rw [read] at source
      cases loading : loads.head?.join with
      | some cause =>
          have failed : alone files parser loads path = _ := (Analyzed.noGrammar _ cause source loading).alone_eq
          simp [failed, Except.mapError]
      | none =>
          rcases Workbench.exists_reported (parser _) _ path with ⟨report, reported⟩
          have succeeded := (Analyzed.report _ report source loading reported).alone_eq
          simp [succeeded, Except.mapError]

theorem alone_fileName {path : String} {report : FileReport}
    (succeeds : alone files parser loads path = .ok report) : report.file.fileName = path := by
  rcases Analyzed.exists_result files parser loads path with ⟨result, analyzed⟩
  rw [analyzed.alone_eq] at succeeds
  cases analyzed with
  | unreadable | noGrammar => cases succeeds
  | report source report read loads reported =>
      cases succeeds
      exact reported.fileName

variable {result : Except AnalysisError (List FileReport)}

theorem survey_error_iff (surveyed : survey files settings parser loads = result.mapError .analysis) :
    (∃ cause, result = .error cause) ↔ Fatal files settings loads := by
  unfold survey at surveyed
  cases found : files.sources settings.search settings.path with
  | error why =>
      rw [found] at surveyed
      cases result with
      | ok reports => cases surveyed
      | error cause =>
          cases surveyed
          exact ⟨fun _ => .lost cause found, fun _ => ⟨cause, rfl⟩⟩
  | ok paths =>
      rw [found] at surveyed
      have inTurn := Workbench.inTurn_mapM (alone files parser loads) paths
      rw [show paths.mapM (alone files parser loads) = result.mapError .analysis from surveyed] at inTurn
      constructor
      · rintro ⟨cause, rfl⟩
        rcases inTurn.exists_failed rfl with ⟨path, member, fails⟩
        rcases (alone_error_iff path).mp ⟨_, fails⟩ with
          ⟨fault, unread⟩ | ⟨⟨content, read⟩, why, unloaded⟩
        · exact .unreadable paths found path member fault unread
        · exact .noGrammar paths found path member content read why unloaded
      · intro fatal
        have failing : ∃ path ∈ paths, ∃ cause, alone files parser loads path = .error cause := by
          cases fatal with
          | lost cause lost =>
              rw [found] at lost
              cases lost
          | unreadable others same path member fault unread =>
              rw [found] at same
              cases same
              exact ⟨path, member, (alone_error_iff path).mpr (.inl ⟨fault, unread⟩)⟩
          | noGrammar others same path member content read cause fails =>
              rw [found] at same
              cases same
              exact ⟨path, member, (alone_error_iff path).mpr (.inr ⟨⟨content, read⟩, cause, fails⟩)⟩
        rcases failing with ⟨path, member, cause, fails⟩
        have some := inTurn.fails member fun report succeeds => by
          rw [fails] at succeeds
          cases succeeds
        cases result with
        | error cause => exact ⟨cause, rfl⟩
        | ok reports =>
            rcases some with ⟨_, impossible⟩
            cases impossible

/-- Each report of a survey bears the name of its source. -/
theorem survey_names {reports : List FileReport} (surveyed : survey files settings parser loads = .ok reports) :
    files.sources settings.search settings.path = .ok (reports.map fun report => report.file.fileName) := by
  rcases bind_eq_ok.mp surveyed with ⟨paths, found, mapped⟩
  have named : List.Forall₂ (fun path report => path = report.file.fileName) paths reports :=
    (forall₂_of_mapM mapped).imp fun path report succeeds => (alone_fileName succeeds).symm
  have same : List.Forall₂ (· = ·) paths (reports.map fun report => report.file.fileName) :=
    List.forall₂_map_right_iff.mpr named
  rw [List.forall₂_eq_eq_eq] at same
  rw [found, same]

theorem exceeded_iff {reports : List FileReport} (surveyed : survey files settings parser loads = .ok reports) :
    Exceeded files settings parser loads ↔
      ∃ report ∈ reports, ∃ evaluation ∈ report.functions, evaluation.record.IsBeyond := by
  rcases bind_eq_ok.mp surveyed with ⟨paths, found, mapped⟩
  have inTurn := Workbench.inTurn_mapM (alone files parser loads) paths
  unfold Exceeded
  constructor
  · rintro ⟨_, samePaths, path, member, report, reported, beyond⟩
    cases samePaths.symm.trans found
    rcases inTurn.exists_report mapped member with ⟨same, listed, reportedToo⟩
    rw [reported] at reportedToo
    cases reportedToo
    exact ⟨report, listed, beyond⟩
  · rintro ⟨report, listed, beyond⟩
    rcases inTurn.exists_path mapped listed with ⟨path, member, reported⟩
    exact ⟨paths, found, path, member, report, reported, beyond⟩

theorem Surveyed.survey_eq {start : Journal}
    (surveyed : Surveyed start.GoesTo start.files settings parser loads result) (apart : LogApart settings start) :
    survey start.files settings parser loads = result.mapError .analysis := by
  unfold survey
  cases surveyed with
  | lost fails =>
      rw [fails]
      rfl
  | @found paths _ found inTurn =>
      rw [found]
      apply inTurn.mapM_eq
      rintro path member result ⟨later, grown, analyzed⟩
      have same : later.read path = start.files.read path :=
        grown.read_apart path fun place stored goes => apart paths found path member place stored goes
      have sameSource : later.readSource path = start.files.readSource path := by
        rw [Files.readSource_eq, Files.readSource_eq, same]
      exact (analyzed.congr sameSource).alone_eq

end Survey

section Told

variable {settings : Settings} {before after : Session} {result : Except AnalysisError (List FileReport)}
  {status : Nat}

theorem Told.status_le (told : Told settings before after result status) : status ≤ 2 := by
  cases told with
  | failure => exact Nat.le_refl 2
  | report => exact Nat.le_succ_of_le (Report.exitCode_le_one _)

theorem Told.status_eq_two_iff (told : Told settings before after result status) :
    status = 2 ↔ ∃ cause, result = .error cause := by
  cases told with
  | failure => exact ⟨fun _ => ⟨_, rfl⟩, fun _ => rfl⟩
  | @report reports =>
      have atMostOne := Report.exitCode_le_one (.ofFiles reports)
      constructor
      · omega
      · rintro ⟨cause, failed⟩
        cases failed

theorem Told.status_eq_one_iff (told : Told settings before after result status) :
    status = 1 ↔ ∃ reports, result = .ok reports ∧ (Report.ofFiles reports).violations ≠ [] := by
  cases told with
  | failure =>
      constructor
      · omega
      · rintro ⟨reports, succeeded, _⟩
        cases succeeded
  | @report reports =>
      rw [Report.exitCode_eq_one_iff]
      constructor
      · exact fun violated => ⟨reports, rfl, violated⟩
      · rintro ⟨_, same, violated⟩
        cases same
        exact violated

end Told

/-- The status of a run and what it has told are those that its sources call for. -/
structure Answers (settings : Settings) (parser : String → Parsed) (loads : List (Option String))
    (opened : Session) (status : Nat) (after : Session) : Prop where
  two : status = 2 ↔ Fatal opened.journal.files settings loads
  one : status = 1 ↔ ¬ Fatal opened.journal.files settings loads ∧
    Exceeded opened.journal.files settings parser loads
  zero : status = 0 ↔ ¬ Fatal opened.journal.files settings loads ∧
    ¬ Exceeded opened.journal.files settings parser loads
  /-- The first failure and no report, or the reports of all sources, each as if it were analysed alone. -/
  told : ∃ result, survey opened.journal.files settings parser loads = result.mapError .analysis ∧
    (∀ reports, result = .ok reports → opened.journal.files.sources settings.search settings.path =
      .ok (reports.map fun report => report.file.fileName)) ∧
    Told settings opened after result status

theorem Completes.answers {settings : Settings} {parser : String → Parsed} {loads : List (Option String)}
    {opened after : Session} {status : Nat} (completes : Completes settings parser loads opened after status)
    (apart : LogApart settings opened.journal) : Answers settings parser loads opened status after := by
  rcases completes with ⟨result, _, traced, told⟩
  have surveyed := traced.surveyed
  have same := surveyed.survey_eq apart
  have two : status = 2 ↔ Fatal opened.journal.files settings loads := by
    rw [told.status_eq_two_iff, survey_error_iff same]
  have one : status = 1 ↔ ¬ Fatal opened.journal.files settings loads ∧
      Exceeded opened.journal.files settings parser loads := by
    rw [told.status_eq_one_iff, ← two, told.status_eq_two_iff]
    cases result with
    | error cause => simp
    | ok reports =>
        rw [exceeded_iff same, ← Report.violations_ofFiles_iff surveyed.rated]
        simp
  have zero : status = 0 ↔ ¬ Fatal opened.journal.files settings loads ∧
      ¬ Exceeded opened.journal.files settings parser loads := by
    have atMostTwo := told.status_le
    constructor
    · rintro rfl
      have sound : ¬ Fatal opened.journal.files settings loads := fun fatal => nomatch two.mpr fatal
      exact ⟨sound, fun exceeded => nomatch one.mpr ⟨sound, exceeded⟩⟩
    · rintro ⟨sound, within⟩
      have notTwo : status ≠ 2 := fun is => sound (two.mp is)
      have notOne : status ≠ 1 := fun is => within (one.mp is).2
      omega
  have names : ∀ reports, result = .ok reports → opened.journal.files.sources settings.search settings.path =
      .ok (reports.map fun report => report.file.fileName) := by
    rintro reports rfl
    exact survey_names same
  exact ⟨two, one, zero, result, same, names, told⟩

/-- The status of a run, once its settings are settled and its log, which is none of the sources, is open.
It is two exactly if the sources cannot be found, one of them cannot be read, or one is read and the
grammar cannot be loaded; otherwise it is one exactly if a function goes beyond a limit. What is told is
the first failure and no report, or the reports of all sources in order. There is no status only if it cannot
be told whether anything stands at the path, or if the log or the crash reporting service fails. -/
theorem run_status (arguments : List String) (session opened : Session) (settings : Settings)
    (settled : settle arguments session = .ok (.ok settings) opened)
    (apart : LogApart settings opened.journal) (parser : String → Parsed) (loads : List (Option String)) :
    (∃ events, opened.output = session.output ++ opened.journal.said .output events) ∧
      EndsAs settings opened (Answers settings parser loads opened)
        (run arguments (fun _ => parser) { loads } session) := by
  rcases settle_opens settled with ⟨given, configured, _, _, configures, grown⟩
  have isOpen : opened.IsOpen := grown.isOpen configures.isOpen
  have ran : run arguments (fun _ => parser) { loads } session =
      Run.settled settings (fun _ => parser) { loads } opened := bind_ok settled
  constructor
  · rcases grown.journal.said with ⟨events, _, output⟩
    refine ⟨events, ?_⟩
    rw [grown.journal.said_eq, ← configures.output]
    exact output
  · rw [ran]
    apply (endsAs_settled settings parser loads isOpen).imp
    intro status after completes
    exact completes.answers apart

def sourceFile : Stored := .file ⟨#[0x66]⟩

def oneSource : Session where
  journal.files.stored := (∅ : Std.TreeMap Place Stored).insert ["a.js"] sourceFile

def loggedSource : Session where
  journal.files.stored := oneSource.journal.files.stored.insert ["run.log"] (.file .empty)
  journal.logging.sink := .file ["run.log"]
  journal.opened := [["run.log"]]

theorem oneSource_openAppend :
    oneSource.journal.files.openAppend "run.log" = .ok (["run.log"], loggedSource.journal.files) := by
  have free : oneSource.journal.files.get? ["run.log"] = none := rfl
  have passable : oneSource.journal.files.Passable [] "run.log" := ⟨by decide, List.not_mem_nil, by decide⟩
  unfold Files.openAppend
  rw [Files.resolve_name rfl rfl (by decide) (by decide) passable (by simp [free]), free]
  rfl

def loggedSettings : Settings where
  path := "a.js"
  logFile := some "run.log"

theorem oneSource_settles :
    settle ["a.js", "--log-file", "run.log"] oneSource = .ok (.ok loggedSettings) loggedSource := by
  have parsed : CommandLine.parse ["a.js", "--log-file", "run.log"] =
      .ok { path := some "a.js", logFile := some "run.log" } := by decide
  have configured : Session.logging (Journal.configure Level.warning.setting (some "run.log")) oneSource =
      .ok () loggedSource := by
    unfold Session.logging
    simp only [Journal.configure_eq, oneSource_openAppend]
    rfl
  exact (settle_eq parsed rfl).trans (bind_ok ((bind_ok configured).trans rfl))

theorem loggedSource_apart : LogApart loggedSettings loggedSource.journal := by
  have stored : loggedSource.journal.files.get? ["a.js"] = some sourceFile := rfl
  have passable : loggedSource.journal.files.Passable [] "a.js" := ⟨by decide, List.not_mem_nil, by decide⟩
  have resolved : loggedSource.journal.files.resolveTidy "a.js" = .ok (.at ["a.js"] sourceFile) := by
    rw [Files.resolveTidy_name rfl rfl (by decide) (by decide) passable (by simp [stored, sourceFile]), stored]
    rfl
  have sources : loggedSource.journal.files.sources {} "a.js" = .ok ["a.js"] := by
    unfold Files.sources Files.discover Files.look
    rw [resolved]
    rfl
  intro paths found path member place stored goes same
  rw [loggedSettings, sources] at found
  cases found
  cases List.mem_singleton.mp member
  cases goes
  simp [resolved] at same

theorem run_status_logged :
    EndsAs loggedSettings loggedSource
      (Answers loggedSettings (fun _ => ⟨.node { kind := "program" } [], false⟩) [] loggedSource)
      (run ["a.js", "--log-file", "run.log"] (fun _ _ => ⟨.node { kind := "program" } [], false⟩) {}
        oneSource) :=
  (run_status _ _ _ _ oneSource_settles loggedSource_apart _ _).2

/-- The sources cannot be found, or one of them cannot be read. -/
def FileFault (files : Files) (settings : Settings) : Prop :=
  (∃ cause, files.sources settings.search settings.path = .error cause) ∨
    ∃ paths, files.sources settings.search settings.path = .ok paths ∧
      ∃ path ∈ paths, ∃ fault, files.read path = .error fault

-- Also where a source is the log itself: whether a file can be read does not depend on its content.
theorem Surveyed.fileFault {grows : Place → Prop} {start : Files} {settings : Settings}
    {parser : String → Parsed} {loads : List (Option String)} {result : Except AnalysisError (List FileReport)}
    (surveyed : Surveyed grows start settings parser loads result) (faulty : FileFault start settings) :
    ∃ cause, result = .error cause := by
  cases surveyed with
  | @lost cause fails => exact ⟨cause, rfl⟩
  | @found paths _ found inTurn =>
      rcases faulty with ⟨cause, lost⟩ | ⟨_, same, path, member, fault, unread⟩
      · rw [found] at lost
        cases lost
      · rw [found] at same
        cases same
        apply inTurn.fails member
        rintro report ⟨files, grown, analyzed⟩
        have stillUnread := (grown.read_error path fault).mpr unread
        cases analyzed with
        | report source report read succeeds reported =>
            rw [Files.readSource_eq, stillUnread] at read
            cases read

/-- File errors in a run with valid settings. A log that cannot be opened leaves the run without a status, and
so may one that is open and full, a path of which it cannot be told whether anything stands there, or a call to
the crash reporting service that fails. Otherwise a file error gives status two and a message, and status one is
left to violations. -/
theorem run_file_errors (arguments : List String) (given : Arguments) (session : Session)
    (settings : Settings) (parsed : CommandLine.parse arguments = .ok given)
    (valid : given.settings session = .ok settings) (parser : String → Parsed)
    (loads : List (Option String)) :
    (∀ cause, logFault? settings session.journal = some cause → ∃ after,
      run arguments (fun _ => parser) { loads } session = .error (.logging cause) after) ∧
    (logFault? settings session.journal = none → ∃ configured, Configured settings session configured ∧
      EndsAs settings configured (fun status after => ∃ opened, configured.Grown opened ∧
          (FileFault opened.journal.files settings → status = 2) ∧
          (status = 2 → ∃ cause, Told settings opened after (.error cause) 2) ∧
          (status = 1 → ∃ reports, (Report.ofFiles reports).violations ≠ [] ∧
            Told settings opened after (.ok reports) 1))
        (run arguments (fun _ => parser) { loads } session)) := by
  constructor
  · intro cause fault
    rcases settle_error parsed valid fault with ⟨after, failed⟩
    exact ⟨after, bind_error failed⟩
  · intro opens
    rcases configured_of_opens opens with ⟨configured, configures⟩
    refine ⟨configured, configures, ?_⟩
    cases settle_ends parsed valid configures with
    | @ok _ opened settled holds =>
        rcases holds with ⟨rfl, grown⟩
        have ran : run arguments (fun _ => parser) { loads } session =
            Run.settled settings (fun _ => parser) { loads } opened := bind_ok settled
        rw [ran]
        apply EndsAs.earlier grown
        apply (endsAs_settled settings parser loads (grown.isOpen configures.isOpen)).imp
        rintro status after ⟨result, _, traced, told⟩
        refine ⟨opened, grown, ?_, ?_, ?_⟩
        · intro faulty
          exact told.status_eq_two_iff.mpr (traced.surveyed.fileFault faulty)
        · rintro rfl
          rcases told.status_eq_two_iff.mp rfl with ⟨cause, rfl⟩
          exact ⟨cause, told⟩
        · rintro rfl
          rcases told.status_eq_one_iff.mp rfl with ⟨reports, rfl, violated⟩
          exact ⟨reports, violated, told⟩
    | @error escape after failed full =>
        have ran : run arguments (fun _ => parser) { loads } session = .error escape after := bind_error failed
        rw [ran]
        rcases full with ⟨rfl, full⟩
        exact .cut (.full full)

theorem run_missing_log_directory : ∃ after,
    run ["--log-file", "no/x.log"] (fun _ _ => ⟨.node { kind := "program" } [], false⟩) {} oneSource =
      .error (.logging (.cannotOpen "no/x.log" .missing)) after := by
  have parsed : CommandLine.parse ["--log-file", "no/x.log"] = .ok { logFile := some "no/x.log" } := by decide
  have components : Path.components "no/x.log" = ["no", "x.log"] := by decide
  have closed : oneSource.journal.files.openAppend "no/x.log" = .error .missing :=
    Files.openAppend_unrooted rfl rfl components (by decide) (by decide) (by decide)
      ⟨by decide, List.not_mem_nil, by decide⟩ rfl
  have fault : logFault? { logFile := some "no/x.log" } oneSource.journal =
      some (.cannotOpen "no/x.log" .missing) := by
    have free : oneSource.journal.stuck = false := rfl
    simp [logFault?, closed, free]
  exact (run_file_errors _ _ oneSource { logFile := some "no/x.log" } parsed rfl
    (fun _ => ⟨.node { kind := "program" } [], false⟩) []).1 _ fault

end Run

end ScriptMetrics
