import ScriptMetrics.Proofs.Likeness
import ScriptMetrics.Proofs.Limits
import ScriptMetrics.Proofs.Logbook

/-!
All sources under a path, analysed one after another. From one file to the next nothing changes but the
log, and the bench stays one on which each file comes to what it would come to alone. So a run that is not
cut off ends with the first failure, or with a report of each file in order, unless it cannot be told
whether anything stands at the path at all.
-/

namespace ScriptMetrics

/-- The source files under a path, or what keeps them from being found. -/
def Files.sources (files : Files) (search : Search) (path : String) : Except Interruption (List String) :=
  match files.discover search path #[] with
  | .ok found _ => .ok found
  | .error cause _ => .error cause

/-- Nothing but errors of the analyzer keeps an action from its end. -/
def Noted.IsRegular {α : Type} (action : Noted α) : Prop :=
  ∀ events, Ends action events (fun _ _ => True) fun cause _ => ∃ error, cause = .analysis error

section Regular

variable {α β : Type} {action : Noted α}

theorem Noted.isRegular_pure (value : α) : IsRegular (pure value) :=
  fun _ => Ends.ok rfl trivial

theorem Noted.isRegular_throw (error : AnalysisError) : IsRegular (throw (.analysis error) : Noted α) :=
  fun _ => Ends.error rfl ⟨error, rfl⟩

theorem Noted.isRegular_note (event : Event) : IsRegular (note event) :=
  fun _ => Ends.ok rfl trivial

theorem Noted.IsRegular.bind (first : IsRegular action) {next : α → Noted β}
    (onward : ∀ value, IsRegular (next value)) : IsRegular (action >>= next) :=
  fun events => (first events).bind fun value after _ => onward value after

theorem Noted.isRegular_mapM {action : α → Noted β} (values : List α)
    (each : ∀ value, IsRegular (action value)) : IsRegular (values.mapM action) := by
  induction values with
  | nil => exact isRegular_pure []
  | cons value rest ih =>
      rw [List.mapM_cons]
      exact (each value).bind fun _ => ih.bind fun _ => isRegular_pure _

variable {files : Files} {search : Search}

-- By induction on the levels: all that keeps a listing from its end is a directory that cannot be listed.
theorem Files.listFiles_isRegular (levels : Nat) (directory : String) :
    (files.listFiles search levels directory).IsRegular := by
  induction levels generalizing directory with
  | zero => exact Noted.isRegular_pure []
  | succ levels ih =>
      unfold Files.listFiles
      split
      · exact Noted.isRegular_throw _
      · apply Noted.IsRegular.bind
        · apply Noted.isRegular_mapM
          intro name
          show Noted.IsRegular (if _ then _ else _)
          split
          · exact (Noted.isRegular_note _).bind fun _ => Noted.isRegular_pure _
          · split
            · exact ih _
            · exact Noted.isRegular_pure _
        · intro found
          exact Noted.isRegular_pure _

/-- All files at or under a path, sources or not. -/
def Files.seek (files : Files) (search : Search) (path : String) : Noted (List String) :=
  match files.look path with
  | .error fault => throw (.breakdown (.unseen path fault))
  | .ok none => throw (.analysis (.missingPath path))
  | .ok (some (.file _)) => pure [path]
  | .ok (some _) => files.listFiles search files.deepest path

theorem Files.discover_eq (files : Files) (search : Search) (path : String) :
    files.discover search path = (do
      Noted.note (finderEvent .info "find_files_start"
        [("path", .text path), ("extensions", .list (search.extensions.map .text))])
      let all ← files.seek search path
      let found := all.filter search.accepts
      Noted.note (finderEvent .info "find_files_complete"
        [("total_found", .number all.length), ("after_filtering", .number found.length)])
      return found) := by
  unfold Files.discover Files.seek
  cases files.look path with
  | error fault => rfl
  | ok stored =>
      cases stored with
      | none => rfl
      | some stored => cases stored <;> rfl

theorem Files.discover_blind (search : Search) {path : String} {fault : PathFault}
    (blind : files.look path = .error fault) (events : Array Event) :
    ∃ notes, files.discover search path events = .error (.breakdown (.unseen path fault)) notes := by
  have lost : files.seek search path = throw (.breakdown (.unseen path fault)) := by
    unfold seek
    rw [blind]
  rw [discover_eq, lost]
  exact ⟨_, rfl⟩

/-- Where it can be told what stands at a path, only errors of the analyzer keep sources from being found. -/
theorem Files.discover_seen (search : Search) {path : String} {stored : Option Stored}
    (seen : files.look path = .ok stored) (events : Array Event) :
    ∃ (result : Except AnalysisError (List String)) (notes : Array Event),
      files.discover search path events = leaving (result.mapError .analysis) notes := by
  have regular : (files.discover search path).IsRegular := by
    rw [discover_eq]
    apply (Noted.isRegular_note _).bind
    intro _
    apply Noted.IsRegular.bind
    · unfold seek
      rw [seen]
      cases stored with
      | none => exact Noted.isRegular_throw _
      | some stored =>
          cases stored with
          | file content => exact Noted.isRegular_pure _
          | directory => exact listFiles_isRegular _ _
          | link target => exact listFiles_isRegular _ _
          | device device => exact listFiles_isRegular _ _
    · intro all
      exact (Noted.isRegular_note _).bind fun _ => Noted.isRegular_pure _
  cases regular events with
  | ok ran _ => exact ⟨.ok _, _, ran⟩
  | error failed analysis =>
      rcases analysis with ⟨error, rfl⟩
      exact ⟨.error error, _, failed⟩

theorem Files.sources_eq {path : String} {result : Except Interruption (List String)} {notes : Array Event}
    (ran : files.discover search path #[] = leaving result notes) : files.sources search path = result := by
  unfold Files.sources
  rw [ran]
  cases result <;> rfl

end Regular

theorem Files.Regrown.sources {grows : Place → Prop} {before after : Files}
    (regrown : before.Regrown grows after) (search : Search) (path : String) :
    after.sources search path = before.sources search path := by
  unfold Files.sources
  rw [regrown.discover]

theorem Files.readSource_eq (files : Files) (path : String) :
    files.readSource path =
      (files.read path).map fun content => Text.unifyLineEnds (Utf8.decode content.data.toList) := by
  unfold Files.readSource
  cases files.read path <;> rfl

namespace Workbench

/-- Files in turn, up to the first that fails, given what each of them may come to. -/
inductive InTurn {ε : Type} (comes : String → Except ε FileReport → Prop) :
    List String → Except ε (List FileReport) → Prop where
  | nil : InTurn comes [] (.ok [])
  | stop {path : String} {cause : ε} (failed : comes path (.error cause)) (rest : List String) :
      InTurn comes (path :: rest) (.error cause)
  | next {path : String} {report : FileReport} (first : comes path (.ok report)) {rest : List String}
      {result : Except ε (List FileReport)} (others : InTurn comes rest result) :
      InTurn comes (path :: rest) (result.map (report :: ·))

section InTurn

variable {ε : Type} {comes : String → Except ε FileReport → Prop} {paths : List String}
  {result : Except ε (List FileReport)}

theorem InTurn.imp (inTurn : InTurn comes paths result) {might : String → Except ε FileReport → Prop}
    (weaker : ∀ path result, comes path result → might path result) : InTurn might paths result := by
  induction inTurn with
  | nil => exact .nil
  | stop failed rest => exact .stop (weaker _ _ failed) rest
  | next first others ih => exact .next (weaker _ _ first) ih

theorem InTurn.mapM_eq {η : Type} {wrap : ε → η} (inTurn : InTurn comes paths result)
    {file : String → Except η FileReport}
    (alone : ∀ path ∈ paths, ∀ result, comes path result → file path = result.mapError wrap) :
    paths.mapM file = result.mapError wrap := by
  induction inTurn with
  | nil => rfl
  | @stop path cause failed rest =>
      rw [List.mapM_cons, alone path List.mem_cons_self _ failed]
      rfl
  | @next path report first rest result others ih =>
      have later := ih fun other member => alone other (List.mem_cons_of_mem path member)
      rw [List.mapM_cons, alone path List.mem_cons_self _ first, later]
      cases result <;> rfl

theorem InTurn.exists_failed (inTurn : InTurn comes paths result) {cause : ε}
    (failed : result = .error cause) : ∃ path ∈ paths, comes path (.error cause) := by
  induction inTurn with
  | nil => cases failed
  | @stop path _ comes rest =>
      cases failed
      exact ⟨path, List.mem_cons_self, comes⟩
  | @next path report first rest result others ih =>
      cases result with
      | ok later => cases failed
      | error later =>
          cases failed
          rcases ih rfl with ⟨other, member, fails⟩
          exact ⟨other, List.mem_cons_of_mem path member, fails⟩

theorem InTurn.forall₂ (inTurn : InTurn comes paths result) {reports : List FileReport}
    (succeeds : result = .ok reports) :
    List.Forall₂ (fun path report => comes path (.ok report)) paths reports := by
  induction inTurn generalizing reports with
  | nil =>
      cases succeeds
      exact .nil
  | stop failed rest => cases succeeds
  | @next path report first rest result others ih =>
      cases result with
      | error cause => cases succeeds
      | ok later =>
          cases succeeds
          exact .cons first (ih rfl)

theorem InTurn.exists_report (inTurn : InTurn comes paths result) {reports : List FileReport}
    (succeeds : result = .ok reports) {path : String} (member : path ∈ paths) :
    ∃ report ∈ reports, comes path (.ok report) := by
  rcases List.mem_iff_getElem?.mp member with ⟨i, found⟩
  rcases forall₂_getElem? (inTurn.forall₂ succeeds) i path found with ⟨report, there, related⟩
  exact ⟨report, List.mem_of_getElem? there, related⟩

theorem InTurn.exists_path (inTurn : InTurn comes paths result) {reports : List FileReport}
    (succeeds : result = .ok reports) {report : FileReport} (member : report ∈ reports) :
    ∃ path ∈ paths, comes path (.ok report) := by
  rcases List.mem_iff_getElem?.mp member with ⟨i, found⟩
  have related := (inTurn.forall₂ succeeds).flip
  rcases forall₂_getElem? related i report found with ⟨path, there, related⟩
  exact ⟨path, List.mem_of_getElem? there, related⟩

theorem InTurn.fails (inTurn : InTurn comes paths result) {path : String} (member : path ∈ paths)
    (fails : ∀ report, ¬ comes path (.ok report)) : ∃ cause, result = .error cause := by
  cases succeeds : result with
  | error cause => exact ⟨cause, rfl⟩
  | ok reports =>
      rcases inTurn.exists_report succeeds member with ⟨report, _, related⟩
      exact absurd related (fails report)

theorem inTurn_mapM (file : String → Except ε FileReport) (paths : List String) :
    InTurn (fun path result => file path = result) paths (paths.mapM file) := by
  induction paths with
  | nil => exact .nil
  | cons path rest ih =>
      rw [List.mapM_cons]
      cases first : file path with
      | error cause => exact .stop first rest
      | ok report =>
          have others := InTurn.next first ih
          generalize rest.mapM file = later at others ⊢
          cases later <;> exact others

end InTurn

/-- What a file may come to once a log has grown. -/
def ComesTo (grows : Place → Prop) (start : Files) (parser : String → Parsed) (loads : List (Option String))
    (path : String) (result : Except AnalysisError FileReport) : Prop :=
  ∃ files, start.Regrown grows files ∧ Analyzed files parser loads path result

/-- What a file may come to while a log grows until the store is the given one. -/
def ComesBy (grows : Place → Prop) (start finish : Files) (parser : String → Parsed)
    (loads : List (Option String)) (path : String) (result : Except AnalysisError FileReport) : Prop :=
  ∃ files, start.Regrown grows files ∧ files.Regrown grows finish ∧ Analyzed files parser loads path result

end Workbench

namespace Run

open Workbench (Current Analyzed InTurn ComesTo ComesBy)

variable {parser : String → Parsed} {loads : List (Option String)} {grows : Place → Prop} {start : Files}
  {bench : Workbench} {session : Session}

theorem adds_conclude {σ α : Type} (isOpen : session.IsOpen) (notes : σ → Array Event)
    (result : Except AnalysisError α) (after : σ) :
    Session.Adds (conclude notes (leaving (result.mapError .analysis) after)) session fun ended _ =>
      ended = (result, after) := by
  cases result with
  | ok value =>
      apply (Session.adds_emitAll isOpen _).bind
      intro _ _ _ _
      exact Session.adds_pure rfl
  | error cause =>
      apply (Session.adds_emitAll isOpen _).bind
      intro _ _ _ _
      exact Session.adds_pure rfl

theorem conclude_ends {σ α : Type} (isOpen : session.IsOpen) (notes : σ → Array Event) (cause : Breakdown)
    (after : σ) :
    Ends (conclude notes (.error (.breakdown cause) after : EStateM.Result _ _ α)) session (fun _ _ => False)
      (fun escape after => session.Cut escape after ∨ escape = .breakdown cause ∧ session.Grown after) := by
  apply (Ends.allow (Session.adds_emitAll isOpen _) fun _ _ cut => .inl cut).bind
  rintro _ _ ⟨grown, _⟩
  exact Ends.error rfl (.inr ⟨rfl, grown⟩)

theorem analyzeNext_at (grammar : Grammar) (path : String) (bench : Workbench) (session : Session) :
    analyzeNext grammar path bench session = conclude Workbench.events
      (Workbench.analyzeFile session.journal.files grammar path { bench with events := #[] }) session := by
  unfold analyzeNext
  exact bind_ok rfl

theorem adds_analyzeNext (isOpen : session.IsOpen) (current : Current loads bench) (path : String) :
    Session.Adds (analyzeNext (fun _ => parser) path bench) session fun ended _ =>
      Analyzed session.journal.files parser loads path ended.1 ∧
        ∀ report, ended.1 = .ok report → Current loads ended.2 := by
  have cleared : Current loads { bench with events := #[] } := ⟨current.language, current.loading⟩
  rcases Analyzed.exists_result session.journal.files parser loads path with ⟨result, analyzed⟩
  rcases cleared.analyzeFile session.journal.files parser path analyzed with ⟨left, ran, stays⟩
  have concluded : Session.Adds (analyzeNext (fun _ => parser) path bench) session fun ended _ =>
      ended = (result, left) := by
    apply (adds_conclude isOpen Workbench.events result left).congr
    rw [analyzeNext_at, ran]
  apply concluded.imp
  rintro _ _ _ rfl
  exact ⟨analyzed, stays⟩

-- By induction on the files left. The log stays open and the bench current; the store that a file is read
-- from is the one at the start, with more in the log.
theorem adds_analyzeAll (isOpen : session.IsOpen) (paths : List String) (current : Current loads bench)
    (goes : session.journal.GoesTo = grows) (grown : start.Regrown grows session.journal.files) :
    Session.Adds (analyzeAll (fun _ => parser) paths bench) session fun ended after =>
      InTurn (ComesBy grows start after.journal.files parser loads) paths ended.1 := by
  induction paths generalizing bench session with
  | nil => exact Session.adds_pure .nil
  | cons path rest ih =>
      unfold analyzeAll
      apply (adds_analyzeNext isOpen current path).bind
      rintro ⟨result, left⟩ middle front ⟨analyzed, stays⟩
      have onward : session.journal.files.Regrown grows middle.journal.files := goes ▸ front.journal.files
      cases result with
      | error cause => exact Session.adds_pure (.stop ⟨_, grown, onward, analyzed⟩ rest)
      | ok report =>
          have still := front.journal.goesTo.trans goes
          apply (ih (front.isOpen isOpen) (stays report rfl) still (grown.trans onward)).bind
          rintro ⟨others, last⟩ after back inTurn
          have further : middle.journal.files.Regrown grows after.journal.files := still ▸ back.journal.files
          exact Session.adds_pure (.next ⟨_, grown, onward.trans further, analyzed⟩ inTurn)

theorem discover_at (settings : Settings) (session : Session) :
    discover settings session = (conclude id (session.journal.files.discover settings.search settings.path #[]) >>=
      fun ended => pure ended.1) session := by
  unfold discover
  exact bind_ok rfl

theorem adds_discover (isOpen : session.IsOpen) (settings : Settings) {stored : Option Stored}
    (seen : session.journal.files.look settings.path = .ok stored) :
    Session.Adds (discover settings) session fun found _ =>
      session.journal.files.sources settings.search settings.path = found.mapError .analysis := by
  rcases Files.discover_seen settings.search seen #[] with ⟨result, notes, ran⟩
  have sources := Files.sources_eq ran
  have concluded : Session.Adds (conclude id (leaving (result.mapError .analysis) notes) >>=
      fun ended => pure ended.1) session fun found _ => found = result := by
    apply (adds_conclude isOpen id result notes).bind
    rintro _ _ _ rfl
    exact Session.adds_pure rfl
  rw [sources]
  apply Session.Adds.congr _ ((discover_at settings session).trans (by rw [ran]))
  apply concluded.imp
  rintro _ _ _ rfl
  rfl

/-- A path of which it cannot be told whether anything stands there ends the search without an answer. -/
theorem discover_ends (isOpen : session.IsOpen) (settings : Settings) {fault : PathFault}
    (blind : session.journal.files.look settings.path = .error fault) :
    Ends (discover settings) session (fun _ _ => False) (fun escape after =>
      session.Cut escape after ∨ escape = .breakdown (.unseen settings.path fault) ∧ session.Grown after) := by
  rcases Files.discover_blind settings.search blind #[] with ⟨notes, ran⟩
  exact (conclude_ends isOpen id _ notes).bind_never.congr ((discover_at settings session).trans (by rw [ran]))

/-- What the sources under a path come to, given what each of them may come to. -/
inductive Searched (files : Files) (settings : Settings)
    (comes : String → Except AnalysisError FileReport → Prop) :
    Except AnalysisError (List FileReport) → Prop where
  | lost {cause : AnalysisError}
      (fails : files.sources settings.search settings.path = .error (.analysis cause)) :
      Searched files settings comes (.error cause)
  | found {paths : List String} {result : Except AnalysisError (List FileReport)}
      (found : files.sources settings.search settings.path = .ok paths)
      (inTurn : InTurn comes paths result) : Searched files settings comes result

theorem Searched.imp {files : Files} {settings : Settings}
    {comes might : String → Except AnalysisError FileReport → Prop}
    {result : Except AnalysisError (List FileReport)} (searched : Searched files settings comes result)
    (weaker : ∀ path result, comes path result → might path result) : Searched files settings might result := by
  cases searched with
  | lost fails => exact .lost fails
  | found found inTurn => exact .found found (inTurn.imp weaker)

/-- What the sources under a path come to while a log grows. -/
abbrev Surveyed (grows : Place → Prop) (start : Files) (settings : Settings) (parser : String → Parsed)
    (loads : List (Option String)) : Except AnalysisError (List FileReport) → Prop :=
  Searched start settings (ComesTo grows start parser loads)

/-- What they come to while a log grows until the store is the given one. -/
abbrev Traced (grows : Place → Prop) (start finish : Files) (settings : Settings) (parser : String → Parsed)
    (loads : List (Option String)) : Except AnalysisError (List FileReport) → Prop :=
  Searched start settings (ComesBy grows start finish parser loads)

section Traced

variable {settings : Settings} {finish : Files} {result : Except AnalysisError (List FileReport)}

theorem Traced.surveyed (traced : Traced grows start finish settings parser loads result) :
    Surveyed grows start settings parser loads result := by
  apply traced.imp
  rintro path result ⟨files, grown, _, analyzed⟩
  exact ⟨files, grown, analyzed⟩

theorem Traced.later {middle : Files} (traced : Traced grows start middle settings parser loads result)
    (grown : middle.Regrown grows finish) : Traced grows start finish settings parser loads result := by
  apply traced.imp
  rintro path result ⟨files, before, since, analyzed⟩
  exact ⟨files, before, since.trans grown, analyzed⟩

-- Lines that went to the log before a search do not change what is found.
theorem Traced.earlier {middle : Files} (traced : Traced grows middle finish settings parser loads result)
    (grown : start.Regrown grows middle) : Traced grows start finish settings parser loads result := by
  have further : ∀ path result, ComesBy grows middle finish parser loads path result →
      ComesBy grows start finish parser loads path result := by
    rintro path result ⟨files, before, since, analyzed⟩
    exact ⟨files, grown.trans before, since, analyzed⟩
  cases traced with
  | lost fails => exact .lost ((grown.sources _ _).symm.trans fails)
  | found found inTurn => exact .found ((grown.sources _ _).symm.trans found) (inTurn.imp further)

theorem Surveyed.rated {reports : List FileReport}
    (surveyed : Surveyed grows start settings parser loads (.ok reports)) :
    ∀ report ∈ reports, report.IsRated := by
  cases surveyed with
  | found found inTurn =>
      intro report member
      rcases inTurn.exists_path rfl member with ⟨path, _, _, _, analyzed⟩
      cases analyzed with
      | report source report read succeeds reported =>
          rcases reported with ⟨collection, _, rfl⟩
          exact FileReport.ofCollection_isRated collection

end Traced

theorem adds_analyze (settings : Settings) (parser : String → Parsed) (isOpen : session.IsOpen)
    (current : Current loads bench) {stored : Option Stored}
    (seen : session.journal.files.look settings.path = .ok stored) :
    Session.Adds (analyze settings (fun _ => parser) bench) session fun ended after =>
      ∃ result : Except AnalysisError (List FileReport), ended.1 = result.map Report.ofFiles ∧
        Traced session.journal.GoesTo session.journal.files after.journal.files settings parser loads result := by
  unfold analyze
  apply (adds_discover isOpen settings seen).bind
  intro found searched front sources
  cases found with
  | error cause => exact Session.adds_pure ⟨.error cause, rfl, .lost sources⟩
  | ok paths =>
      apply (adds_analyzeAll (front.isOpen isOpen) paths current front.journal.goesTo front.journal.files).bind
      rintro ⟨result, left⟩ analyzed middle inTurn
      have traced : Traced session.journal.GoesTo session.journal.files analyzed.journal.files settings parser loads
          result := .found sources inTurn
      cases result with
      | error cause => exact Session.adds_pure ⟨.error cause, rfl, traced⟩
      | ok reports =>
          have grown := front.trans middle
          apply (Session.adds_emit (grown.isOpen isOpen) (Report.ofFiles reports).event).bind
          intro _ after back _
          exact Session.adds_pure ⟨.ok reports, rfl, traced.later (grown.journal.goesTo ▸ back.journal.files)⟩

/-- What a run says before it starts. -/
def opening : String :=
  "Parsing ast and running static analysis...\n"

/-- What a run tells about its outcome: the error that ended it and no report, or the text of each file in
order. Log lines come in between where the log goes to the same stream. -/
inductive Told (settings : Settings) (before after : Session) :
    Except AnalysisError (List FileReport) → Nat → Prop where
  | failure {cause : AnalysisError} (early late : List Event)
      (output : after.output = before.output ++ before.journal.said .output early ++ opening ++
        before.journal.said .output late)
      (errors : after.journal.errors = before.journal.errors ++ before.journal.said .errors (early ++ late) ++
        ("ERROR: " ++ cause.message ++ "\n")) :
      Told settings before after (.error cause) 2
  | report {reports : List FileReport} (early late : List Event) (closing : String)
      (closes : printViolations settings.color (reports.flatMap FileReport.violations) = .ok closing)
      (output : after.output = before.output ++ before.journal.said .output early ++ opening ++
        before.journal.said .output late ++ "Complete.\n\n" ++
        String.join (reports.map (FileReport.text settings.color)) ++ closing ++ "\n")
      (errors : after.journal.errors = before.journal.errors ++ before.journal.said .errors (early ++ late)) :
      Told settings before after (.ok reports) (Report.ofFiles reports).outcome.exitCode

/-- A run that is not cut off. -/
def Completes (settings : Settings) (parser : String → Parsed) (loads : List (Option String))
    (before after : Session) (status : Nat) : Prop :=
  ∃ result, before.journal.files.Regrown before.journal.GoesTo after.journal.files ∧
    Traced before.journal.GoesTo before.journal.files after.journal.files settings parser loads result ∧
    Told settings before after result status

theorem fail_ends (settings : Settings) (cause : AnalysisError) (isOpen : session.IsOpen) :
    Ends (fail settings cause) session (fun status after => status = 2 ∧ ∃ told, session.Grown told ∧
      after.output = told.output ∧ after.journal.files = told.journal.files ∧
      after.journal.errors = told.journal.errors ++ ("ERROR: " ++ cause.message ++ "\n")) session.Cut := by
  unfold fail
  apply Ends.bind (Session.adds_emit isOpen _)
  rintro _ logged ⟨front, _⟩
  apply (Ends.allow (Session.adds_call (.capture _ _)) fun _ _ cut => front.cut cut).bind
  rintro _ told ⟨back, _⟩
  exact Ends.ok rfl ⟨rfl, told, front.trans back, rfl, rfl, rfl⟩

/-- A session that has written some text to standard output. -/
def wrote (session : Session) (text : String) : Session :=
  { session with journal := { session.journal with output := session.journal.output ++ text } }

-- The log goes on as before while a run writes to standard output itself.
theorem cut_of_wrote {text : String} {escape : Escape} {after : Session}
    (cut : (wrote session text).Cut escape after) : session.Cut escape after := by
  cases cut with
  | full full => exact .full full
  | crash makes fails =>
      cases makes with
      | start listed => exact .crash (.start listed) fails
      | capture title path => exact .crash (.capture title path) fails

-- What is logged before and after a text comes out on either side of it.
theorem said_around {started after : Session} {text : String} (front : session.Grown started)
    (back : (wrote started text).Grown after) : ∃ early late,
      after.output = session.output ++ session.journal.said .output early ++ text ++
          session.journal.said .output late ∧
        after.journal.errors = session.journal.errors ++ session.journal.said .errors (early ++ late) := by
  rcases front.journal.said with ⟨early, earlyErrors, earlyOutput⟩
  rcases back.journal.said with ⟨late, lateErrors, lateOutput⟩
  have said : (wrote started text).journal.said = session.journal.said := front.journal.said_eq
  refine ⟨early, late, ?_, ?_⟩
  · refine lateOutput.trans ?_
    rw [said]
    show started.journal.output ++ text ++ _ = _
    rw [earlyOutput]
    rfl
  · rw [lateErrors, said, Journal.said_append, ← String.append_assoc]
    show started.journal.errors ++ _ = _
    rw [earlyErrors]

theorem ends_write {α : Type} {next : Running α} {text : String} {good : α → Session → Prop}
    {bad : Escape → Session → Prop}
    (onward : Ends next (wrote session text) good bad) :
    Ends (Session.write text >>= fun _ => next) session good bad :=
  ends_bind rfl onward

/-- Reports of rated functions are always rendered. -/
theorem printReport_ofFiles (settings : Settings) {reports : List FileReport}
    (rated : ∀ report ∈ reports, report.IsRated) :
    ∃ closing, printViolations settings.color (reports.flatMap FileReport.violations) = .ok closing ∧
      printReport settings (Report.ofFiles reports) = Session.write
        (String.join (reports.map (FileReport.text settings.color)) ++ closing ++ "\n") := by
  rcases Report.print_ofFiles rated settings.color with ⟨closing, closes, printed⟩
  refine ⟨closing, closes, ?_⟩
  unfold printReport
  rw [printed]

theorem settled_ends (settings : Settings) (parser : String → Parsed) (loads : List (Option String))
    (isOpen : session.IsOpen) {stored : Option Stored}
    (seen : session.journal.files.look settings.path = .ok stored) :
    Ends (settled settings (fun _ => parser) { loads }) session
      (fun ended after => Completes settings parser loads session after ended.1) session.Cut := by
  unfold settled
  apply Ends.bind (Session.adds_start isOpen)
  rintro _ started ⟨front, _⟩
  have startedOpen : (wrote started opening).IsOpen := front.isOpen isOpen
  rcases front.journal.files.look_seen seen with ⟨_, stillSeen⟩
  apply ends_write
  have analyzes := adds_analyze settings parser startedOpen (Workbench.current_fresh loads) stillSeen
  apply (Ends.allow analyzes fun _ _ cut => front.cut (cut_of_wrote cut)).bind
  rintro ⟨_, left⟩ analyzed ⟨middle, result, rfl, traced⟩
  have grown : session.journal.files.Regrown session.journal.GoesTo analyzed.journal.files :=
    front.journal.files.trans (front.journal.goesTo ▸ middle.journal.files)
  have traced : Traced session.journal.GoesTo session.journal.files analyzed.journal.files settings parser loads
      result := Traced.earlier (front.journal.goesTo ▸ traced) front.journal.files
  have cut : ∀ escape last, analyzed.Cut escape last → session.Cut escape last := fun _ _ cut =>
    front.cut (cut_of_wrote (middle.cut cut))
  cases result with
  | error cause =>
      apply ((fail_ends settings cause (middle.isOpen startedOpen)).allow cut).bind
      rintro _ after ⟨rfl, told, back, sameOutput, files, complained⟩
      rcases said_around front (middle.trans back) with ⟨early, late, output, errors⟩
      have further : analyzed.journal.files.Regrown session.journal.GoesTo after.journal.files := by
        rw [files, ← front.journal.goesTo]
        exact middle.journal.goesTo ▸ back.journal.files
      refine Ends.ok rfl ⟨.error cause, grown.trans further, traced.later further, .failure early late ?_ ?_⟩
      · exact sameOutput.trans output
      · rw [complained, errors]
  | ok reports =>
      rcases said_around front middle with ⟨early, late, output, errors⟩
      rcases printReport_ofFiles settings traced.surveyed.rated with ⟨closing, closes, rendered⟩
      apply ends_write
      rw [rendered]
      apply ends_write
      refine Ends.ok rfl ⟨.ok reports, grown, traced, .report early late closing closes ?_ errors⟩
      show analyzed.output ++ "Complete.\n\n" ++ _ = _
      simp only [output, String.append_assoc]

/-- A path of which it cannot be told whether anything stands there leaves a run without a status. -/
theorem settled_blind (settings : Settings) (grammar : Grammar) (bench : Workbench) (isOpen : session.IsOpen)
    {fault : PathFault} (blind : session.journal.files.look settings.path = .error fault) :
    Ends (settled settings grammar bench) session (fun _ _ => False) (fun escape after =>
      session.Cut escape after ∨ escape = .breakdown (.unseen settings.path fault) ∧ ∃ early late,
        after.output = session.output ++ session.journal.said .output early ++ opening ++
          session.journal.said .output late) := by
  unfold settled
  apply (Ends.allow (Session.adds_start isOpen) fun _ _ cut => .inl cut).bind
  rintro _ started ⟨front, _⟩
  have startedOpen : (wrote started opening).IsOpen := front.isOpen isOpen
  have stillBlind := (front.journal.files.look_error settings.path fault).mpr blind
  apply ends_write
  apply Ends.bind_never
  unfold analyze
  apply Ends.bind_never
  apply (discover_ends startedOpen settings stillBlind).allow
  rintro _ after (cut | ⟨rfl, back⟩)
  · exact .inl (front.cut (cut_of_wrote cut))
  · rcases said_around front back with ⟨early, late, output, _⟩
    exact .inr ⟨rfl, early, late, output⟩

end Run

end ScriptMetrics
