import ScriptMetrics.Proofs.ExitStatus
import ScriptMetrics.Proofs.Listing
import ScriptMetrics.Proofs.Wording

/-!
What is logged, and where to, shows in what a run prints only if the log comes out there or cannot be written.
Opening the log may add a file to the store that is searched, and each line makes it longer; as long as no
source comes of that or changes by it, every run on a store comes to what its sources come to where nothing
is logged at all.
-/

namespace ScriptMetrics

namespace Files

variable {grows : Place → Prop} {before middle finish : Files} {path : String}

-- A file that holds in the end what it held at first has held it all the time, as files only grow.
theorem Untouched.read (untouched : before.Untouched finish path) (extended : before.Extended grows middle)
    (wellFormed : before.WellFormed) (regrown : middle.Regrown grows finish) :
    (middle.read path).toOption = (before.read path).toOption := by
  have fits : ∀ found, before.resolveTidy path = .ok found → found.Fits before :=
    fun _ ends => follow_fits (resolveTidy_ok ends)
  have still : ∀ place content, finish.resolveTidy path = .ok (.at place (.file content)) →
      before.get? place = some (.file content) :=
    fun place content ends => untouched place content (resolveTidy_ok ends)
  have way := extended.resolveTidy wellFormed path
  have later := regrown.resolveTidy path
  unfold Files.read
  rw [extended.rules]
  generalize before.resolveTidy path = old at way fits
  generalize middle.resolveTidy path = new at way later
  generalize finish.resolveTidy path = last at later still
  cases way with
  | same => rfl
  | blocked => rfl
  | made place content may =>
      have free : before.get? place = none := fits _ rfl
      cases later with
      | same => simp [still place content rfl] at free
      | grown _ _ more _ => simp [still place (content ++ more) rfl] at free
  | grown place content more may =>
      have held : before.get? place = some (.file content) := fits _ rfl
      obtain ⟨rest, same⟩ : ∃ rest, before.get? place = some (.file (content ++ more ++ rest)) := by
        cases later with
        | same => exact ⟨.empty, by simpa using still place (content ++ more) rfl⟩
        | grown _ _ rest _ => exact ⟨rest, still place (content ++ more ++ rest) rfl⟩
      rw [held, Option.some.injEq, Stored.file.injEq] at same
      have sizes := congrArg ByteArray.size same
      rw [ByteArray.size_append, ByteArray.size_append] at sizes
      have nothing : more = .empty := by
        rw [← ByteArray.size_eq_zero_iff]
        omega
      rw [nothing, ByteArray.append_empty]

theorem Regrown.leads (regrown : middle.Regrown grows finish) (path : String) :
    SameWay grows (middle.leads path) (finish.leads path) := by
  unfold Files.leads Files.start
  rw [regrown.working, regrown.rules]
  exact regrown.follow _ _ _

theorem Extended.look_error (extended : before.Extended grows finish) (wellFormed : before.WellFormed)
    (path : String) (fault : PathFault) : finish.look path = .error fault ↔ before.look path = .error fault := by
  unfold Files.look
  have way := extended.resolveTidy wellFormed path
  generalize before.resolveTidy path = old at way
  generalize finish.resolveTidy path = new at way
  cases way <;> simp [PathFault.saysAbsent]

end Files

theorem toOption_mapError {ε η α : Type} (result : Except ε α) (wrap : ε → η) :
    (result.mapError wrap).toOption = result.toOption := by
  cases result <;> rfl

namespace Workbench

theorem InTurn.toOption_eq {ε : Type} {comes : String → Except ε FileReport → Prop} {paths : List String}
    {result : Except ε (List FileReport)} (inTurn : InTurn comes paths result)
    {file : String → Option FileReport}
    (each : ∀ path ∈ paths, ∀ result, comes path result → result.toOption = file path) :
    result.toOption = paths.mapM file := by
  induction inTurn with
  | nil => rfl
  | @stop path cause failed rest =>
      rw [List.mapM_cons, ← each path List.mem_cons_self _ failed]
      rfl
  | @next path report first rest result others ih =>
      have later := ih fun other member => each other (List.mem_cons_of_mem path member)
      rw [List.mapM_cons, ← each path List.mem_cons_self _ first, ← later]
      cases result <;> rfl

theorem alone_toOption {files other : Files} {path : String}
    (same : (files.read path).toOption = (other.read path).toOption) (parser : String → Parsed)
    (loads : List (Option String)) :
    (alone files parser loads path).toOption = (alone other parser loads path).toOption := by
  have source := files.readSource_eq path
  have otherSource := other.readSource_eq path
  cases read : files.read path with
  | error fault =>
      cases otherRead : other.read path with
      | ok content => simp [read, otherRead, Except.toOption] at same
      | error otherFault =>
          rw [read] at source
          rw [otherRead] at otherSource
          rw [(Analyzed.unreadable fault source).alone_eq, (Analyzed.unreadable otherFault otherSource).alone_eq]
          rfl
  | ok content =>
      cases otherRead : other.read path with
      | error fault => simp [read, otherRead, Except.toOption] at same
      | ok otherContent =>
          have equal : files.readSource path = other.readSource path := by
            simp only [read, otherRead, Except.toOption, Option.some.injEq] at same
            rw [source, otherSource, read, otherRead, same]
          obtain ⟨result, analyzed⟩ := Analyzed.exists_result files parser loads path
          rw [analyzed.alone_eq, (analyzed.congr equal).alone_eq]

end Workbench

namespace Run

open Workbench (alone)

/-- The reports of all sources where nothing is logged, if all of them can be analysed. -/
def unlogged (files : Files) (search : Search) (path : String) (parser : String → Parsed)
    (loads : List (Option String)) : Option (List FileReport) := do
  let sources ← (files.sources search path).toOption
  sources.mapM fun source => (alone files parser loads source).toOption

/-- What is analysed is as it was: it has not appeared, and no source has appeared or changed. -/
structure Spared (settings : Settings) (before after : Files) : Prop where
  path : before.look settings.path = .ok none → after.look settings.path = .ok none
  sources : ∀ found, after.sources settings.search settings.path = .ok found →
    ∀ source ∈ found, before.Untouched after source

/-- The log is open, and its file, if it has one, may have been added to the store, where a way can go. -/
structure Launched (before : Files) (journal : Journal) : Prop where
  isOpen : journal.IsOpen
  extended : before.Extended journal.GoesTo journal.files
  admits : before.Admits journal.GoesTo

theorem Launched.grown {before : Files} {journal later : Journal} (launched : Launched before journal)
    (grown : journal.Grown later) : Launched before later := by
  refine ⟨grown.isOpen launched.isOpen, ?_, ?_⟩
  · rw [grown.goesTo]
    exact launched.extended.regrown grown.files
  · rw [grown.goesTo]
    exact launched.admits

theorem Traced.toOption_eq {start : Journal} {before finish : Files} {settings : Settings}
    {parser : String → Parsed} {loads : List (Option String)} {result : Except AnalysisError (List FileReport)}
    (traced : Traced start.GoesTo start.files finish settings parser loads result) (wellFormed : before.WellFormed)
    (launched : Launched before start) (regrown : start.files.Regrown start.GoesTo finish)
    (spared : Spared settings before finish) :
    result.toOption = unlogged before settings.search settings.path parser loads := by
  have extended := launched.extended
  have same := (extended.regrown regrown).sources wellFormed launched.admits _ _ spared.path spared.sources
  have untouched := spared.sources
  rw [regrown.sources] at same untouched
  unfold unlogged
  rw [← same]
  cases traced with
  | lost fails =>
      rw [fails]
      rfl
  | found found inTurn =>
      rw [found]
      apply inTurn.toOption_eq
      rintro source member result ⟨files, grown, rest, analyzed⟩
      rw [← toOption_mapError result Interruption.analysis, ← analyzed.alone_eq]
      apply Workbench.alone_toOption
      exact (untouched _ found source member).read (extended.regrown grown) wellFormed rest

section Told

variable {settings other : Settings} {before after second last : Session}
  {result otherResult : Except AnalysisError (List FileReport)} {status otherStatus : Nat}

theorem Told.same (told : Told settings before after result status)
    (otherTold : Told other second last otherResult otherStatus) (color : settings.color = other.color)
    (output : before.output = second.output) (apart : before.journal.outlet ≠ .output)
    (otherApart : second.journal.outlet ≠ .output) (results : result.toOption = otherResult.toOption) :
    status = otherStatus ∧ after.output = last.output := by
  have unsaid (events : List Event) : before.journal.said .output events = "" := if_neg apart
  have otherUnsaid (events : List Event) : second.journal.said .output events = "" := if_neg otherApart
  cases told with
  | failure _ _ written _ =>
      cases otherTold with
      | failure _ _ otherWritten _ =>
          refine ⟨rfl, ?_⟩
          simp only [written, otherWritten, unsaid, otherUnsaid, output]
      | report => cases results
  | report _ _ closing closes written _ =>
      cases otherTold with
      | failure => cases results
      | report _ _ otherClosing otherCloses otherWritten _ =>
          cases results
          rw [color, otherCloses] at closes
          cases closes
          refine ⟨rfl, ?_⟩
          simp only [written, otherWritten, unsaid, otherUnsaid, output, color]

/-- What is printed begins with what the run says before it starts, but for what the log has put before it. -/
theorem Told.begins (told : Told settings before after result status) :
    ∃ early rest, after.output = before.output ++ before.journal.said .output early ++ opening ++ rest := by
  cases told with
  | failure early late written _ => exact ⟨early, _, written⟩
  | @report reports early late closing _ written _ =>
      refine ⟨early, before.journal.said .output late ++ ("Complete.\n\n" ++
        (String.join (reports.map (FileReport.text settings.color)) ++ (closing ++ "\n"))), ?_⟩
      simp only [written, String.append_assoc]

end Told

/-- A command line with valid settings whose log can be opened, and whose run spares what it analyses. -/
structure Discreet (parser : String → Parsed) (loads : List (Option String)) (arguments : List String)
    (session : Session) (settings : Settings) : Prop where
  valid : ∃ given, CommandLine.parse arguments = .ok given ∧ given.settings session = .ok settings
  opens : logFault? settings session.journal = none
  spares : ∀ ended after, run arguments (fun _ => parser) { loads } session = .ok ended after →
    Spared settings session.journal.files after.journal.files

/-- What is written to the log that the settings ask for is taken, and does not come out at standard output. -/
def Unheard (settings : Settings) (files : Files) : Prop :=
  ∀ path place opened, settings.logFile = some path → files.openAppend path = .ok (place, opened) →
    files.outlet (.file place) ≠ .output ∧ files.outlet (.file place) ≠ .refused

/-- A log that has been configured goes to standard error, or to the place that its path has been opened at. -/
theorem configure_cases {level : String} {path : Option String} {before after : Journal}
    (configured : Journal.configure level path before = .ok () after) :
    after.logging.sink = .standardError ∧ after.files = before.files ∨
      ∃ name place, path = some name ∧ before.files.openAppend name = .ok (place, after.files) ∧
        after.logging.sink = .file place := by
  rw [Journal.configure_eq] at configured
  split at configured
  · cases configured
  · cases path with
    | none =>
        cases configured
        exact .inl ⟨rfl, before.shut_files⟩
    | some name =>
        simp only at configured
        cases opens : before.files.openAppend name with
        | error fault => simp [opens] at configured
        | ok found =>
            simp only [opens] at configured
            cases configured
            exact .inr ⟨name, found.1, rfl, opens, rfl⟩

section Opening

variable {settings : Settings} {session configured : Session}

theorem Configured.cases (configures : Configured settings session configured) :
    configured.journal.logging.sink = .standardError ∧ configured.journal.files = session.journal.files ∨
      ∃ name place, settings.logFile = some name ∧
        session.journal.files.openAppend name = .ok (place, configured.journal.files) ∧
        configured.journal.logging.sink = .file place := by
  have logged := configures.logged
  unfold Session.logging at logged
  split at logged
  · next journal done =>
      cases logged
      exact configure_cases done
  · cases logged

theorem Configured.launched (configures : Configured settings session configured) :
    Launched session.journal.files configured.journal := by
  rcases configures.cases with ⟨sink, files⟩ | ⟨name, place, _, opens, sink⟩
  · have nowhere (place : Place) : ¬ configured.journal.GoesTo place := by simp [Journal.GoesTo, sink]
    refine ⟨configures.isOpen, ?_, ?_⟩
    · rw [files]
      exact .refl _ fun place goes => absurd goes (nowhere place)
    · exact fun directory name goes => absurd goes (nowhere _)
  · have only (other : Place) : configured.journal.GoesTo other ↔ other = place := by
      simp [Journal.GoesTo, sink, eq_comm]
    refine ⟨configures.isOpen, (Files.openAppend_extended opens).congr only, ?_⟩
    intro directory name goes free
    exact Files.openAppend_passable opens ((only _).mp goes ▸ free) directory name ((only _).mp goes).symm

theorem Configured.unheard (configures : Configured settings session configured)
    (unheard : Unheard settings session.journal.files) :
    configured.journal.outlet ≠ .output ∧ ¬ configured.journal.IsFull := by
  rcases configures.cases with ⟨sink, _⟩ | ⟨name, place, asked, opens, sink⟩
  · constructor
    · simp [Journal.outlet, sink, Files.outlet]
    · rintro ⟨place, goes, _⟩
      rw [Journal.GoesTo, sink] at goes
      cases goes
  · have same := (Files.openAppend_extended opens).outlet (.file place)
    obtain ⟨silent, taken⟩ := unheard name place _ asked opens
    constructor
    · rw [Journal.outlet, sink, same]
      exact silent
    · rintro ⟨other, goes, full⟩
      rw [Journal.GoesTo, sink] at goes
      cases goes
      rw [← same, ne_eq, Files.outlet_refused_iff] at taken
      exact taken full

end Opening

section Discreet

variable {parser : String → Parsed} {loads : List (Option String)} {arguments : List String}
  {session : Session} {settings : Settings}

/-- How a run ends whose log is not heard of: as its sources end where nothing is logged, or before it gets to
them, if it cannot be told whether anything stands at its path or crash reporting cannot be started. -/
inductive Quietly (parser : String → Parsed) (loads : List (Option String)) (session : Session)
    (settings : Settings) : EStateM.Result Escape Session (Nat × Workbench) → Prop where
  | told {opened after : Session} {result : Except AnalysisError (List FileReport)} {status : Nat}
      {bench : Workbench} {stored : Option Stored} (served : session.startFault? = none)
      (seen : session.journal.files.look settings.path = .ok stored)
      (started : opened.output = session.output) (apart : opened.journal.outlet ≠ .output)
      (told : Told settings opened after result status)
      (same : result.toOption = unlogged session.journal.files settings.search settings.path parser loads) :
      Quietly parser loads session settings (.ok (status, bench) after)
  | unseen {fault : PathFault} {after : Session} (served : session.startFault? = none)
      (blind : session.journal.files.look settings.path = .error fault)
      (output : after.output = session.output ++ opening) :
      Quietly parser loads session settings (.error (.breakdown (.unseen settings.path fault)) after)
  | unserved {cause : String} {after : Session} (fault : session.startFault? = some cause)
      (output : after.output = session.output) :
      Quietly parser loads session settings (.error (.crashService cause) after)

-- A log that is not full and a service that takes the calls it gets cut nothing off.
theorem uncut {opened : Session} (room : ¬ opened.journal.IsFull) (served : opened.startFault? = none)
    (captures : ∀ title path, opened.crashFault (.capture title path) = none) (escape : Escape) (after : Session) :
    ¬ opened.Cut escape after := by
  intro cut
  cases cut with
  | full full => exact room full
  | crash makes fails =>
      cases makes with
      | start listed =>
          rw [List.findSome?_eq_none_iff.mp served _ listed] at fails
          cases fails
      | capture title path =>
          rw [captures] at fails
          cases fails

theorem Configured.startFault? {configured : Session} (configures : Configured settings session configured) :
    configured.startFault? = session.startFault? := by
  unfold Session.startFault? Session.startCalls Session.env?
  rw [configures.environment, configures.crashFault]

theorem settled_unserved {opened : Session} {cause : String} (fault : opened.startFault? = some cause)
    (grammar : Grammar) (bench : Workbench) :
    ∃ after, Run.settled settings grammar bench opened = .error (.crashService cause) after ∧
      after.output = opened.output := by
  cases Session.start_fails fault with
  | ok _ never => exact never.elim
  | @error _ after failed fails =>
      obtain ⟨rfl, output⟩ := fails
      exact ⟨after, bind_error failed, output⟩

theorem Discreet.ends (discreet : Discreet parser loads arguments session settings)
    (captures : ∀ title path, session.crashFault (.capture title path) = none)
    (unheard : Unheard settings session.journal.files) (wellFormed : session.journal.files.WellFormed) :
    Quietly parser loads session settings (run arguments (fun _ => parser) { loads } session) := by
  obtain ⟨given, parsed, valid⟩ := discreet.valid
  obtain ⟨configured, configures⟩ := configured_of_opens discreet.opens
  obtain ⟨silent, room⟩ := configures.unheard unheard
  cases settle_ends parsed valid configures with
  | error _ full => exact absurd full.2 room
  | @ok _ opened settled holds =>
      obtain ⟨rfl, grown⟩ := holds
      have launched := configures.launched.grown grown.journal
      have apart : opened.journal.outlet ≠ .output := grown.journal.outlet ▸ silent
      have still : ¬ opened.journal.IsFull := fun full => room (grown.journal.isFull full)
      have stillCaptures (title path : String) : opened.crashFault (.capture title path) = none := by
        rw [grown.crashFault, configures.crashFault, captures]
      have starts : opened.startFault? = session.startFault? := grown.startFault?.trans configures.startFault?
      have started : opened.output = session.output := by
        obtain ⟨events, _, output⟩ := grown.journal.said
        rw [← configures.output]
        refine output.trans ?_
        rw [Journal.said, if_neg silent, String.append_empty]
        rfl
      have ran : run arguments (fun _ => parser) { loads } session =
          Run.settled settings (fun _ => parser) { loads } opened := bind_ok settled
      rw [ran]
      cases served : session.startFault? with
      | some cause =>
          obtain ⟨after, ended, output⟩ := settled_unserved (starts.trans served) (fun _ => parser) { loads }
          rw [ended]
          exact .unserved served (output.trans started)
      | none =>
          have stillServed : opened.startFault? = none := starts.trans served
          have sameFault := launched.extended.look_error wellFormed settings.path
          cases looked : opened.journal.files.look settings.path with
          | ok stored =>
              cases settled_ends settings parser loads launched.isOpen looked with
              | error _ cut => exact absurd cut (uncut still stillServed stillCaptures _ _)
              | @ok ended after done completes =>
                  obtain ⟨result, regrown, traced, told⟩ := completes
                  have spared := discreet.spares ended after (ran.trans done)
                  have same := traced.toOption_eq wellFormed launched regrown spared
                  rw [done]
                  cases seen : session.journal.files.look settings.path with
                  | ok stored => exact .told served seen started apart told same
                  | error fault =>
                      rw [(sameFault fault).mpr seen] at looked
                      cases looked
          | error fault =>
              cases settled_blind settings (fun _ => parser) { loads } launched.isOpen looked with
              | ok _ never => exact never.elim
              | error done fails =>
                  rcases fails with cut | ⟨rfl, early, late, output⟩
                  · exact absurd cut (uncut still stillServed stillCaptures _ _)
                  · rw [done]
                    refine .unseen served ((sameFault fault).mp looked) ?_
                    simp only [output, started, Journal.said, if_neg apart, String.append_empty]

end Discreet

section Apart

variable {parser : String → Parsed} {loads : List (Option String)} {arguments : List String}
  {session configured : Session} {settings : Settings} {given : Arguments}

/-- The log goes to no source, by however long a path. -/
def LogAside (settings : Settings) (journal : Journal) : Prop :=
  ∀ paths, journal.files.sources settings.search settings.path = .ok paths → ∀ path ∈ paths,
    ∀ place stored, journal.GoesTo place → journal.files.leads path ≠ .ok (.at place stored)

theorem Launched.spared {before finish : Files} {journal : Journal} (launched : Launched before journal)
    (wellFormed : before.WellFormed)
    (kept : before.look settings.path = .ok none → journal.files.look settings.path = .ok none)
    (aside : LogAside settings journal) (regrown : journal.files.Regrown journal.GoesTo finish) :
    Spared settings before finish := by
  constructor
  · intro missing
    have still := kept missing
    have way := regrown.resolveTidy settings.path
    unfold Files.look at still ⊢
    generalize journal.files.resolveTidy settings.path = old at way still
    generalize finish.resolveTidy settings.path = new at way
    cases way with
    | same => exact still
    | grown => cases still
  · intro found sources source member place content ends
    rw [regrown.sources] at sources
    have elsewhere := aside found sources source member
    have way := launched.extended.leads wellFormed source
    have later := regrown.leads source
    rw [ends] at later
    generalize journal.files.leads source = middle at way later elsewhere
    cases later with
    | grown _ held more goes => exact absurd rfl (elsewhere place (.file held) goes)
    | same =>
        cases leads : before.leads source with
        | error fault =>
            rw [leads] at way
            cases way
        | ok found =>
            rw [leads] at way
            cases way with
            | same => exact Files.follow_fits leads
            | grown _ held more goes => exact absurd rfl (elsewhere place _ goes)
            | made _ _ goes => exact absurd rfl (elsewhere place _ goes)

end Apart

section Below

end Below

section Console

section Device

variable {path name : String} {given : Arguments}

end Device

end Console

end Run

end ScriptMetrics
