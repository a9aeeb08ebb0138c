import ScriptMetrics.Analysis.Workbench
import ScriptMetrics.Proofs.Collection
import ScriptMetrics.Proofs.Subtrees

/-!
One source after another on a bench. What the analysis of a file comes to is decided by what is read
from the file and by the first attempt to load the grammar: a bench that has loaded it goes on as a
fresh one whose first attempt succeeds would. The tree of a source is never damaged.
-/

namespace ScriptMetrics

namespace Workbench

/-- Nothing but notes has been added to a bench. -/
def Noted (before after : Workbench) : Prop :=
  ∃ events, after = { before with events }

theorem Noted.refl (bench : Workbench) : bench.Noted bench :=
  ⟨bench.events, rfl⟩

theorem Noted.trans {first second third : Workbench} (front : first.Noted second)
    (back : second.Noted third) : first.Noted third := by
  obtain ⟨_, rfl⟩ := front
  obtain ⟨events, rfl⟩ := back
  exact ⟨events, rfl⟩

theorem note_ok (event : Event) (bench : Workbench) :
    ∃ after, note event bench = .ok () after ∧ bench.Noted after :=
  ⟨_, rfl, _, rfl⟩

theorem noteAll_ok {α : Type} (values : List α) (event : α → Event) (bench : Workbench) :
    ∃ after, (values.forM fun value => note (event value)) bench = .ok () after ∧ bench.Noted after := by
  induction values generalizing bench with
  | nil => exact ⟨bench, rfl, .refl bench⟩
  | cons value rest ih =>
      obtain ⟨first, noted, front⟩ := note_ok (event value) bench
      obtain ⟨after, others, back⟩ := ih first
      exact ⟨after, (bind_ok noted).trans others, front.trans back⟩

theorem analyzeArena_ok (arena : Arena) (path : String) (collection : Collection)
    (collected : arena.collect path = .ok collection) (bench : Workbench) :
    ∃ after, analyzeArena arena path bench = .ok (FileReport.ofCollection collection) after ∧
      bench.Noted after := by
  obtain ⟨after, noted, same⟩ := noteAll_ok collection.functions functionEvent bench
  refine ⟨after, ?_, same⟩
  unfold analyzeArena
  simp only [collected]
  rw [bind_ok noted]
  rfl

/-- What a parsed source is reported as. -/
def Reported (parsed : Parsed) (source path : String) (report : FileReport) : Prop :=
  ∃ collection, (Arena.ofCst source.toUTF8 parsed.tree parsed.hasErrors).collect path = .ok collection ∧
    report = FileReport.ofCollection collection

theorem exists_reported (parsed : Parsed) (source path : String) :
    ∃ report, Reported parsed source path report := by
  obtain ⟨counted, records, _, collected, _⟩ :=
    (Arena.ofCst_treelike source.toUTF8 parsed.tree parsed.hasErrors).collect_ok path
  exact ⟨_, _, collected, rfl⟩

theorem Reported.fileName {parsed : Parsed} {source path : String} {report : FileReport}
    (reported : Reported parsed source path report) : report.file.fileName = path := by
  obtain ⟨collection, collected, rfl⟩ := reported
  exact (Arena.ofCst_treelike source.toUTF8 parsed.tree parsed.hasErrors).collect_fileName collected

theorem parseSource_ok (grammar : Grammar) (source path : String) (bench ready : Workbench)
    (loaded : load bench = .ok () ready) :
    ∃ after, parseSource grammar source path bench =
        .ok (Arena.ofCst source.toUTF8 (grammar ready.parsed.size source).tree
          (grammar ready.parsed.size source).hasErrors) after ∧
      Noted { ready with parsed := ready.parsed.push source } after := by
  let parsed := { ready with parsed := ready.parsed.push source }
  let arena := Arena.ofCst source.toUTF8 (grammar ready.parsed.size source).tree
    (grammar ready.parsed.size source).hasErrors
  obtain ⟨warned, warning, front⟩ :=
    note_ok (parserEvent .warning "parse_recovered" [("file", .text path)]) parsed
  unfold parseSource
  rw [bind_ok loaded]
  by_cases errors : arena.hasErrors
  · obtain ⟨after, noted, back⟩ := note_ok
      (parserEvent .debug "parse_complete" [("file", .text path), ("nodes", .number arena.size)]) warned
    refine ⟨after, ?_, front.trans back⟩
    show (if arena.hasErrors then _ else _ : Work Arena) parsed = _
    rw [if_pos errors]
    exact (bind_ok warning).trans (bind_ok noted)
  · obtain ⟨after, noted, back⟩ := note_ok
      (parserEvent .debug "parse_complete" [("file", .text path), ("nodes", .number arena.size)]) parsed
    refine ⟨after, ?_, back⟩
    show (if arena.hasErrors then _ else _ : Work Arena) parsed = _
    rw [if_neg errors]
    exact bind_ok noted

/-- A bench of the standard language that is still to make the given attempts, or has made the first
of them with success. -/
structure Current (loads : List (Option String)) (bench : Workbench) : Prop where
  language : bench.language = "javascript"
  loading : bench.ready = true ∧ loads.head?.join = none ∨ bench.ready = false ∧ bench.loads = loads

theorem current_fresh (loads : List (Option String)) : Current loads { loads } :=
  ⟨rfl, .inr ⟨rfl, rfl⟩⟩

theorem Current.noted {loads : List (Option String)} {before after : Workbench}
    (current : Current loads before) (noted : before.Noted after) : Current loads after := by
  obtain ⟨_, rfl⟩ := noted
  exact ⟨current.language, current.loading⟩

theorem Current.load_ok {loads : List (Option String)} {bench : Workbench} (current : Current loads bench)
    (succeeds : loads.head?.join = none) :
    ∃ ready, load bench = .ok () ready ∧ Current loads ready := by
  unfold Workbench.load
  rcases current.loading with ⟨already, _⟩ | ⟨unready, pending⟩
  · rw [if_pos already]
    exact ⟨bench, rfl, current⟩
  · rw [if_neg (by simp [unready])]
    have next : bench.nextLoad = none := by rw [nextLoad, pending, succeeds]
    simp only [next]
    exact ⟨_, rfl, current.language, .inl ⟨rfl, succeeds⟩⟩

theorem Current.load_error {loads : List (Option String)} {bench : Workbench}
    (current : Current loads bench) {cause : String} (fails : loads.head?.join = some cause) :
    ∃ after, load bench = .error (.analysis (.noGrammar "javascript" cause)) after := by
  unfold Workbench.load
  rcases current.loading with ⟨_, succeeded⟩ | ⟨unready, pending⟩
  · rw [fails] at succeeded
    cases succeeded
  · rw [if_neg (by simp [unready])]
    have next : bench.nextLoad = some cause := by rw [nextLoad, pending, fails]
    simp only [next, current.language]
    exact ⟨_, rfl⟩

/-- What the analysis of a file comes to, given how the grammar loads. -/
inductive Analyzed (files : Files) (parser : String → Parsed) (loads : List (Option String))
    (path : String) : Except AnalysisError FileReport → Prop where
  | unreadable (fault : PathFault) (unread : files.readSource path = .error fault) :
      Analyzed files parser loads path (.error (.unreadable path fault))
  | noGrammar (source cause : String) (read : files.readSource path = .ok source)
      (fails : loads.head?.join = some cause) :
      Analyzed files parser loads path (.error (.noGrammar "javascript" cause))
  | report (source : String) (report : FileReport) (read : files.readSource path = .ok source)
      (succeeds : loads.head?.join = none) (reported : Reported (parser source) source path report) :
      Analyzed files parser loads path (.ok report)

theorem Analyzed.congr {files other : Files} {parser : String → Parsed} {loads : List (Option String)}
    {path : String} {result : Except AnalysisError FileReport} (same : files.readSource path = other.readSource path)
    (analyzed : Analyzed files parser loads path result) : Analyzed other parser loads path result := by
  cases analyzed with
  | unreadable fault unread => exact .unreadable fault (same.symm.trans unread)
  | noGrammar source cause read fails => exact .noGrammar source cause (same.symm.trans read) fails
  | report source report read succeeds reported =>
      exact .report source report (same.symm.trans read) succeeds reported

theorem Analyzed.exists_result (files : Files) (parser : String → Parsed) (loads : List (Option String))
    (path : String) : ∃ result, Analyzed files parser loads path result := by
  cases read : files.readSource path with
  | error fault => exact ⟨_, .unreadable fault read⟩
  | ok source =>
      cases loading : loads.head?.join with
      | some cause => exact ⟨_, .noGrammar source cause read loading⟩
      | none =>
          obtain ⟨report, reported⟩ := exists_reported (parser source) source path
          exact ⟨_, .report source report read loading reported⟩

theorem Current.analyzeFile {loads : List (Option String)} {bench : Workbench} (current : Current loads bench)
    (files : Files) (parser : String → Parsed) (path : String)
    {result : Except AnalysisError FileReport} (analyzed : Analyzed files parser loads path result) :
    ∃ after, Workbench.analyzeFile files (fun _ => parser) path bench =
        leaving (result.mapError .analysis) after ∧
      ∀ report, result = .ok report → Current loads after := by
  unfold Workbench.analyzeFile parseFile
  cases analyzed with
  | unreadable fault unread =>
      simp only [unread]
      exact ⟨bench, bind_error rfl, by simp⟩
  | noGrammar source cause read fails =>
      obtain ⟨after, failed⟩ := current.load_error fails
      simp only [read]
      exact ⟨after, bind_error (bind_error failed), by simp⟩
  | report source report read succeeds reported =>
      obtain ⟨collection, collected, rfl⟩ := reported
      obtain ⟨ready, loaded, stillCurrent⟩ := current.load_ok succeeds
      obtain ⟨parsed, parse, first⟩ := parseSource_ok (fun _ => parser) source path bench ready loaded
      obtain ⟨measured, measure, second⟩ := analyzeArena_ok _ path collection collected parsed
      obtain ⟨after, note, third⟩ := note_ok (fileEvent (.ofCollection collection) path) measured
      simp only [read]
      -- Of all that only the load matters to the next file: the rest is a source counted and notes.
      refine ⟨after, (bind_ok parse).trans ((bind_ok measure).trans (bind_ok note)), fun _ _ => ?_⟩
      have counted : Current loads { ready with parsed := ready.parsed.push source } :=
        ⟨stillCurrent.language, stillCurrent.loading⟩
      exact counted.noted (first.trans (second.trans third))

/-- What the analysis of a file alone comes to, on a fresh bench. -/
def alone (files : Files) (parser : String → Parsed) (loads : List (Option String)) (path : String) :
    Except Interruption FileReport :=
  match Workbench.analyzeFile files (fun _ => parser) path { loads } with
  | .ok report _ => .ok report
  | .error cause _ => .error cause

theorem Analyzed.alone_eq {files : Files} {parser : String → Parsed} {loads : List (Option String)}
    {path : String} {result : Except AnalysisError FileReport}
    (analyzed : Analyzed files parser loads path result) :
    alone files parser loads path = result.mapError .analysis := by
  obtain ⟨after, ran, _⟩ := (current_fresh loads).analyzeFile files parser path analyzed
  unfold alone
  rw [ran]
  cases result <;> rfl

end Workbench

end ScriptMetrics
