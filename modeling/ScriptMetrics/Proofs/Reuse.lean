import ScriptMetrics.Proofs.Bench

/-!
One bench over any sequence of uses. A use reads its text, loads the grammar unless an earlier use has,
and answers; what a use can do to a bench is said once (`Did`), and from that follows what a history of
uses can do. The grammar is asked for only while no attempt has succeeded, a failed attempt leaves the
bench as if it had not been made, and answers do not depend on what the bench was used for before.
-/

namespace ScriptMetrics

namespace Workbench

/-- What a bench is used for. -/
inductive Use where
  | parseSource (source path : String)
  | parseFile (path : String)
  | analyzeSource (source path : String)
  | analyzeFile (path : String)

/-- A use, with the files as they stand at that time. -/
structure Call where
  files : Files
  use : Use

inductive Answer where
  | arena (arena : Arena)
  | report (report : FileReport)

namespace Call

def work (grammar : Grammar) (call : Call) : Work Answer :=
  match call.use with
  | .parseSource source path => return .arena (← Workbench.parseSource grammar source path)
  | .parseFile path => return .arena (← Workbench.parseFile call.files grammar path)
  | .analyzeSource source path => return .report (← Workbench.analyzeSource grammar source path)
  | .analyzeFile path => return .report (← Workbench.analyzeFile call.files grammar path)

/-- The text of the file at a path, for a use that has one. -/
def read (call : Call) (path : String) : Except Interruption String :=
  (call.files.readSource path).mapError fun fault => .analysis (.unreadable path fault)

/-- The text that a use is about. Only one that is in a file may be out of reach. -/
def source (call : Call) : Except Interruption String :=
  match call.use with
  | .parseSource source _ => .ok source
  | .parseFile path => call.read path
  | .analyzeSource source _ => .ok source
  | .analyzeFile path => call.read path

end Call

theorem parseFile_ok (files : Files) (grammar : Grammar) (path source : String)
    (read : files.readSource path = .ok source) :
    parseFile files grammar path = parseSource grammar source path := by
  unfold parseFile
  rw [read]

theorem parseFile_unread (files : Files) (grammar : Grammar) (path : String) (fault : PathFault)
    (unread : files.readSource path = .error fault) (bench : Workbench) :
    parseFile files grammar path bench = .error (.analysis (.unreadable path fault)) bench := by
  unfold parseFile
  rw [unread]
  rfl

namespace Call

theorem read_eq_ok {call : Call} {path text : String} (read : call.read path = .ok text) :
    call.files.readSource path = .ok text := by
  unfold Call.read at read
  cases found : call.files.readSource path with
  | ok source =>
      rw [found] at read
      cases read
      rfl
  | error fault =>
      rw [found] at read
      cases read

theorem read_eq_error {call : Call} {path : String} {cause : Interruption}
    (unread : call.read path = .error cause) :
    ∃ fault, call.files.readSource path = .error fault ∧ cause = .analysis (.unreadable path fault) := by
  unfold Call.read at unread
  cases found : call.files.readSource path with
  | ok source =>
      rw [found] at unread
      cases unread
  | error fault =>
      rw [found] at unread
      cases unread
      exact ⟨fault, rfl, rfl⟩

theorem work_unread {call : Call} {cause : Interruption} (unread : call.source = .error cause) :
    (∃ path fault, cause = .analysis (.unreadable path fault)) ∧
      ∀ grammar bench, call.work grammar bench = .error cause bench := by
  unfold Call.source at unread
  unfold Call.work
  cases used : call.use with
  | parseSource source path => simp [used] at unread
  | analyzeSource source path => simp [used] at unread
  | parseFile path =>
      simp only [used] at unread ⊢
      obtain ⟨fault, missing, rfl⟩ := read_eq_error unread
      refine ⟨⟨path, fault, rfl⟩, fun grammar bench => ?_⟩
      exact bind_error (parseFile_unread call.files grammar path fault missing bench)
  | analyzeFile path =>
      simp only [used] at unread ⊢
      obtain ⟨fault, missing, rfl⟩ := read_eq_error unread
      refine ⟨⟨path, fault, rfl⟩, fun grammar bench => ?_⟩
      exact bind_error (bind_error (parseFile_unread call.files grammar path fault missing bench))

/-- What a call does once its text is parsed. -/
def finish (call : Call) (arena : Arena) : Work Answer :=
  match call.use with
  | .parseSource _ _ | .parseFile _ => return .arena arena
  | .analyzeSource _ path => return .report (← analyzeArena arena path)
  | .analyzeFile path => do
      let report ← analyzeArena arena path
      note (fileEvent report path)
      return .report report

-- With the text at hand it no longer matters where it came from.
theorem work_read {call : Call} {text : String} (read : call.source = .ok text) (grammar : Grammar) :
    ∃ path, call.work grammar = (parseSource grammar text path >>= call.finish) := by
  unfold Call.source at read
  unfold Call.work finish
  cases used : call.use with
  | parseSource source path =>
      simp only [used, Except.ok.injEq] at read ⊢
      rw [read]
      exact ⟨path, rfl⟩
  | parseFile path =>
      simp only [used] at read ⊢
      rw [parseFile_ok call.files grammar path text (read_eq_ok read)]
      exact ⟨path, rfl⟩
  | analyzeSource source path =>
      simp only [used, Except.ok.injEq, Workbench.analyzeSource, bind_assoc] at read ⊢
      rw [read]
      exact ⟨path, rfl⟩
  | analyzeFile path =>
      simp only [used, Workbench.analyzeFile, bind_assoc, pure_bind] at read ⊢
      rw [parseFile_ok call.files grammar path text (read_eq_ok read)]
      exact ⟨path, rfl⟩

theorem work_unloaded {call : Call} {text : String} (read : call.source = .ok text) (grammar : Grammar)
    {bench after : Workbench} {cause : Interruption} (failed : load bench = .error cause after) :
    call.work grammar bench = .error cause after := by
  obtain ⟨path, same⟩ := work_read read grammar
  rw [same]
  exact bind_error (bind_error failed)

theorem finish_ok (call : Call) (parsed : Parsed) (text : String) :
    ∃ answer, ∀ bench, ∃ after,
      call.finish (.ofCst text.toUTF8 parsed.tree parsed.hasErrors) bench = .ok answer after ∧
        Noted bench after := by
  unfold finish
  cases call.use with
  | parseSource source path => exact ⟨_, fun bench => ⟨bench, rfl, .refl bench⟩⟩
  | parseFile path => exact ⟨_, fun bench => ⟨bench, rfl, .refl bench⟩⟩
  | analyzeSource source path =>
      obtain ⟨_, collection, collected, rfl⟩ := exists_reported parsed text path
      refine ⟨.report (.ofCollection collection), fun bench => ?_⟩
      obtain ⟨after, measure, noted⟩ := analyzeArena_ok _ path collection collected bench
      exact ⟨after, bind_ok measure, noted⟩
  | analyzeFile path =>
      obtain ⟨_, collection, collected, rfl⟩ := exists_reported parsed text path
      refine ⟨.report (.ofCollection collection), fun bench => ?_⟩
      obtain ⟨measured, measure, front⟩ := analyzeArena_ok _ path collection collected bench
      obtain ⟨after, note, back⟩ := note_ok (fileEvent (.ofCollection collection) path) measured
      exact ⟨after, (bind_ok measure).trans (bind_ok note), front.trans back⟩

end Call

theorem load_ready (bench : Workbench) (ready : bench.ready = true) : load bench = .ok () bench := by
  unfold load
  rw [if_pos ready]

theorem load_ok (bench : Workbench) (unready : bench.ready = false) (succeeds : bench.nextLoad = none) :
    load bench = .ok () { bench with
      ready := true
      loads := bench.loads.tail
      attempts := bench.attempts.push bench.language } := by
  unfold load
  rw [if_neg (by simp [unready]), succeeds]

theorem load_error (bench : Workbench) (unready : bench.ready = false) {cause : String}
    (fails : bench.nextLoad = some cause) :
    ∃ events, load bench = .error (.analysis (.noGrammar bench.language cause)) { bench with
      loads := bench.loads.tail
      attempts := bench.attempts.push bench.language
      events } := by
  unfold load
  rw [if_neg (by simp [unready]), fails]
  exact ⟨_, rfl⟩

namespace Call

/-- What a call answers, on any bench whose grammar is loaded or loads. -/
def Answers (parser : String → Parsed) (call : Call) (text : String) (answer : Answer) : Prop :=
  ∀ bench ready, load bench = .ok () ready →
    ∃ after, call.work (fun _ => parser) bench = .ok answer after ∧
      Noted { ready with parsed := ready.parsed.push text } after

theorem exists_answers (parser : String → Parsed) {call : Call} {text : String}
    (read : call.source = .ok text) : ∃ answer, call.Answers parser text answer := by
  obtain ⟨path, same⟩ := work_read read fun _ => parser
  obtain ⟨answer, finishes⟩ := call.finish_ok (parser text) text
  refine ⟨answer, fun bench ready loaded => ?_⟩
  obtain ⟨parsed, parse, front⟩ := parseSource_ok (fun _ => parser) text path bench ready loaded
  obtain ⟨after, done, back⟩ := finishes parsed
  rw [same]
  exact ⟨after, (bind_ok parse).trans done, front.trans back⟩

end Call

/-- One call on a bench: the bench before it, what came of it, and the bench after it. -/
structure Step where
  before : Workbench
  result : Except Interruption Answer
  after : Workbench

def perform (parser : String → Parsed) (call : Call) (bench : Workbench) : Step :=
  match call.work (fun _ => parser) bench with
  | .ok answer after => ⟨bench, .ok answer, after⟩
  | .error cause after => ⟨bench, .error cause, after⟩

def history (parser : String → Parsed) : List Call → Workbench → List Step
  | [], _ => []
  | call :: rest, bench =>
      let step := perform parser call bench
      step :: history parser rest step.after

section Performing

variable {parser : String → Parsed} {call : Call} {bench after : Workbench}

theorem perform_ok {answer : Answer} (ran : call.work (fun _ => parser) bench = .ok answer after) :
    perform parser call bench = ⟨bench, .ok answer, after⟩ := by
  unfold perform
  rw [ran]

theorem perform_error {cause : Interruption}
    (ran : call.work (fun _ => parser) bench = .error cause after) :
    perform parser call bench = ⟨bench, .error cause, after⟩ := by
  unfold perform
  rw [ran]

end Performing

/-- All that a call can do. The order matters: the text is read before the grammar is asked for. -/
inductive Did (parser : String → Parsed) (call : Call) : Step → Prop where
  | unread (bench : Workbench) (path : String) (fault : PathFault)
      (unread : call.source = .error (.analysis (.unreadable path fault))) :
      Did parser call ⟨bench, .error (.analysis (.unreadable path fault)), bench⟩
  | refused (bench : Workbench) (text cause : String) (events : Array Event)
      (read : call.source = .ok text) (unready : bench.ready = false)
      (fails : bench.nextLoad = some cause) :
      Did parser call ⟨bench, .error (.analysis (.noGrammar bench.language cause)),
        { bench with
          loads := bench.loads.tail
          attempts := bench.attempts.push bench.language
          events }⟩
  | loaded (bench : Workbench) (text : String) (answer : Answer) (events : Array Event)
      (read : call.source = .ok text) (unready : bench.ready = false) (succeeds : bench.nextLoad = none)
      (answers : call.Answers parser text answer) :
      Did parser call ⟨bench, .ok answer,
        { bench with
          ready := true
          loads := bench.loads.tail
          attempts := bench.attempts.push bench.language
          parsed := bench.parsed.push text
          events }⟩
  | reused (bench : Workbench) (text : String) (answer : Answer) (events : Array Event)
      (read : call.source = .ok text) (ready : bench.ready = true)
      (answers : call.Answers parser text answer) :
      Did parser call ⟨bench, .ok answer, { bench with parsed := bench.parsed.push text, events }⟩

theorem perform_did (parser : String → Parsed) (call : Call) (bench : Workbench) :
    Did parser call (perform parser call bench) := by
  cases read : call.source with
  | error cause =>
      obtain ⟨⟨path, fault, rfl⟩, stops⟩ := Call.work_unread read
      rw [perform_error (stops _ bench)]
      exact .unread bench path fault read
  | ok text =>
      obtain ⟨answer, answers⟩ := Call.exists_answers parser read
      cases ready : bench.ready with
      | true =>
          obtain ⟨after, ran, events, rfl⟩ := answers bench bench (load_ready bench ready)
          rw [perform_ok ran]
          exact .reused bench text answer events read ready answers
      | false =>
          cases next : bench.nextLoad with
          | none =>
              obtain ⟨after, ran, events, rfl⟩ := answers bench _ (load_ok bench ready next)
              rw [perform_ok ran]
              exact .loaded bench text answer events read ready next answers
          | some cause =>
              obtain ⟨events, failed⟩ := load_error bench ready next
              rw [perform_error (Call.work_unloaded read _ failed)]
              exact .refused bench text cause events read ready next

theorem perform_before (parser : String → Parsed) (call : Call) (bench : Workbench) :
    (perform parser call bench).before = bench := by
  unfold perform
  split <;> rfl

namespace Step

/-- The grammar was asked for. -/
def Attempts (step : Step) : Prop :=
  step.after.attempts = step.before.attempts.push step.before.language

/-- The grammar was asked for, and the list of outcomes, whose next entry each attempt takes, has it load. -/
def Loads (loads : List (Option String)) (step : Step) : Prop :=
  step.Attempts ∧ loads[step.before.attempts.size]?.join = none

def Fails (loads : List (Option String)) (cause : String) (step : Step) : Prop :=
  step.Attempts ∧ loads[step.before.attempts.size]?.join = some cause

end Step

/-- A bench that has taken its outcomes from the front of a list, one for each attempt. -/
structure Kept (language : String) (loads : List (Option String)) (bench : Workbench) : Prop where
  language : bench.language = language
  pending : bench.loads = loads.drop bench.attempts.size

theorem Kept.nextLoad_eq {language : String} {loads : List (Option String)} {bench : Workbench}
    (kept : Kept language loads bench) : bench.nextLoad = loads[bench.attempts.size]?.join := by
  rw [nextLoad, kept.pending, List.head?_drop]

namespace Did

variable {parser : String → Parsed} {call : Call} {step : Step}
variable {language : String} {loads : List (Option String)}

theorem attempts_iff (did : Did parser call step) :
    step.Attempts ↔ (∃ text, call.source = .ok text) ∧ step.before.ready = false := by
  unfold Step.Attempts
  cases did with
  | unread bench path fault unread => simp [unread]
  | refused bench text cause events read unready fails => simp [read, unready]
  | loaded bench text answer events read unready succeeds answers => simp [read, unready]
  | reused bench text answer events read ready answers => simp [read, ready]

theorem idle (did : Did parser call step) (idle : ¬ step.Attempts) :
    step.after.attempts = step.before.attempts := by
  cases did with
  | unread bench path fault unread => rfl
  | refused bench text cause events read unready fails => exact absurd rfl idle
  | loaded bench text answer events read unready succeeds answers => exact absurd rfl idle
  | reused bench text answer events read ready answers => rfl

theorem unread_iff (did : Did parser call step) (path : String) (fault : PathFault) :
    step.result = .error (.analysis (.unreadable path fault)) ↔
      call.source = .error (.analysis (.unreadable path fault)) := by
  cases did with
  | unread bench path fault unread => simp [unread]
  | refused bench text cause events read unready fails => simp [read]
  | loaded bench text answer events read unready succeeds answers => simp [read]
  | reused bench text answer events read ready answers => simp [read]

theorem unread_same (did : Did parser call step) (cause : Interruption)
    (unread : call.source = .error cause) : step.after = step.before := by
  cases did with
  | unread bench path fault unread => rfl
  | refused bench text cause events read unready fails => simp [read] at unread
  | loaded bench text answer events read unready succeeds answers => simp [read] at unread
  | reused bench text answer events read ready answers => simp [read] at unread

theorem noGrammar_iff (did : Did parser call step) (named cause : String) :
    step.result = .error (.analysis (.noGrammar named cause)) ↔
      named = step.before.language ∧ step.Attempts ∧ step.before.nextLoad = some cause := by
  rw [did.attempts_iff]
  cases did with
  | unread bench path fault unread => simp [unread]
  | refused bench text cause events read unready fails => simp [read, unready, fails, eq_comm]
  | loaded bench text answer events read unready succeeds answers => simp [succeeds]
  | reused bench text answer events read ready answers => simp [ready]

theorem ok_iff (did : Did parser call step) :
    (∃ answer, step.result = .ok answer) ↔
      (∃ text, call.source = .ok text) ∧ ∀ cause, ¬ (step.Attempts ∧ step.before.nextLoad = some cause) := by
  rw [did.attempts_iff]
  cases did with
  | unread bench path fault unread => simp [unread]
  | refused bench text cause events read unready fails => simp [read, unready, fails]
  | loaded bench text answer events read unready succeeds answers => simp [read, succeeds]
  | reused bench text answer events read ready answers => simp [read, ready]

theorem answers (did : Did parser call step) {answer : Answer} (answered : step.result = .ok answer) :
    ∃ text, call.Answers parser text answer := by
  cases did with
  | unread bench path fault unread => cases answered
  | refused bench text cause events read unready fails => cases answered
  | loaded bench text answer events read unready succeeds answers =>
      cases answered
      exact ⟨text, answers⟩
  | reused bench text answer events read ready answers =>
      cases answered
      exact ⟨text, answers⟩

theorem kept (did : Did parser call step) (kept : Kept language loads step.before) :
    Kept language loads step.after := by
  have taken : step.before.loads.tail = loads.drop (step.before.attempts.size + 1) := by
    rw [kept.pending, List.tail_drop]
  cases did with
  | unread bench path fault unread => exact kept
  | reused bench text answer events read ready answers => exact ⟨kept.language, kept.pending⟩
  | refused bench text cause events read unready fails =>
      exact ⟨kept.language, by simpa using taken⟩
  | loaded bench text answer events read unready succeeds answers =>
      exact ⟨kept.language, by simpa using taken⟩

theorem refused_after (did : Did parser call step) (attempted : step.Attempts) {cause : String}
    (failed : step.before.nextLoad = some cause) :
    ∃ events, step.after = { step.before with
      loads := step.before.loads.tail
      attempts := step.before.attempts.push step.before.language
      events } := by
  rw [did.attempts_iff] at attempted
  cases did with
  | unread bench path fault unread => simp [unread] at attempted
  | refused bench text cause events read unready fails => exact ⟨events, rfl⟩
  | loaded bench text answer events read unready succeeds answers => simp [succeeds] at failed
  | reused bench text answer events read ready answers => simp [ready] at attempted

end Did

/-- Two benches that every call takes alike. What was attempted, parsed and noted is never looked at. -/
structure Alike (left right : Workbench) : Prop where
  language : left.language = right.language
  ready : left.ready = right.ready
  loads : left.loads = right.loads

theorem Call.Answers.unique {parser : String → Parsed} {call : Call} {text : String}
    {answer other : Answer} (answers : call.Answers parser text answer)
    (others : call.Answers parser text other) : answer = other := by
  have loaded := load_ok {} rfl rfl
  obtain ⟨_, ran, _⟩ := answers _ _ loaded
  obtain ⟨_, again, _⟩ := others _ _ loaded
  rw [ran] at again
  cases again
  rfl

theorem Did.alike {parser : String → Parsed} {call : Call} {first second : Step}
    (left : Did parser call first) (right : Did parser call second)
    (alike : Alike first.before second.before) :
    first.result = second.result ∧ Alike first.after second.after := by
  obtain ⟨language, ready, loads⟩ := alike
  have next : first.before.nextLoad = second.before.nextLoad := by rw [nextLoad, nextLoad, loads]
  -- The text, the grammar and the next outcome are the same, so both calls go the same way.
  cases left with
  | unread bench path fault unread =>
      cases right with
      | unread other path fault again =>
          rw [unread] at again
          cases again
          exact ⟨rfl, language, ready, loads⟩
      | _ => simp_all
  | refused bench text cause events read unready fails =>
      cases right with
      | refused other text cause events again unready failsToo =>
          simp only [fails, failsToo, Option.some.injEq] at next
          refine ⟨?_, language, ready, congrArg List.tail loads⟩
          exact congrArg (Except.error ∘ Interruption.analysis) (congrArg₂ AnalysisError.noGrammar language next)
      | _ => simp_all
  | loaded bench text answer events read unready succeeds answers =>
      cases right with
      | loaded other text answer events again unready succeeds others =>
          rw [read] at again
          cases again
          rw [answers.unique others]
          exact ⟨rfl, language, rfl, congrArg List.tail loads⟩
      | _ => simp_all
  | reused bench text answer events read isReady answers =>
      cases right with
      | reused other text answer events again isReady others =>
          rw [read] at again
          cases again
          rw [answers.unique others]
          exact ⟨rfl, language, ready, loads⟩
      | _ => simp_all

theorem history_results {left right : Workbench} (alike : Alike left right) (parser : String → Parsed)
    (calls : List Call) :
    (history parser calls left).map Step.result = (history parser calls right).map Step.result := by
  induction calls generalizing left right with
  | nil => rfl
  | cons call rest ih =>
      obtain ⟨same, still⟩ := (perform_did parser call left).alike (perform_did parser call right)
        (by rw [perform_before, perform_before]; exact alike)
      rw [history, history, List.map_cons, List.map_cons, same, ih still]

/-- What a step of a history comes to, for its call and the steps before it. -/
structure Accounted (language : String) (loads : List (Option String)) (parser : String → Parsed)
    (earlier : List Step) (call : Call) (step : Step) : Prop where
  attempts_iff : step.Attempts ↔ (∃ text, call.source = .ok text) ∧ ∀ prior ∈ earlier, ¬ prior.Loads loads
  idle : ¬ step.Attempts → step.after.attempts = step.before.attempts
  -- A failed attempt is the caller's to see, and later calls cannot tell that it was made.
  noGrammar_iff : ∀ named cause, step.result = .error (.analysis (.noGrammar named cause)) ↔
    named = language ∧ step.Fails loads cause
  failed : ∀ cause, step.Fails loads cause →
    (∃ events, step.after = { step.before with
      loads := step.before.loads.tail
      attempts := step.before.attempts.push step.before.language
      events }) ∧
    ∀ rest, (history parser rest step.after).map Step.result =
      (history parser rest { step.before with loads := step.before.loads.tail }).map Step.result
  unreadable_iff : ∀ path fault, step.result = .error (.analysis (.unreadable path fault)) ↔
    call.source = .error (.analysis (.unreadable path fault))
  unread : ∀ cause, call.source = .error cause → step.result = .error cause ∧ step.after = step.before
  answered_iff : (∃ answer, step.result = .ok answer) ↔
    (∃ text, call.source = .ok text) ∧ ∀ cause, ¬ step.Fails loads cause
  afresh : ∀ answer, step.result = .ok answer → ∀ fresh : List (Option String), fresh.head?.join = none →
    (perform parser call { language, loads := fresh }).result = .ok answer

theorem Call.Answers.afresh {parser : String → Parsed} {call : Call} {text : String} {answer : Answer}
    (answers : call.Answers parser text answer) (language : String) (fresh : List (Option String))
    (loads : fresh.head?.join = none) :
    (perform parser call { language, loads := fresh }).result = .ok answer := by
  obtain ⟨after, ran, _⟩ := answers _ _ (load_ok { language, loads := fresh } rfl loads)
  rw [perform_ok ran]

theorem Did.accounted {parser : String → Parsed} {call : Call} {step : Step} {language : String}
    {loads : List (Option String)} {earlier : List Step} (did : Did parser call step)
    (kept : Kept language loads step.before)
    (ready : step.before.ready = true ↔ ∃ prior ∈ earlier, prior.Loads loads) :
    Accounted language loads parser earlier call step where
  attempts_iff := by
    rw [did.attempts_iff, ← Bool.not_eq_true, ready]
    simp
  idle := did.idle
  noGrammar_iff named cause := by
    rw [did.noGrammar_iff, kept.language, kept.nextLoad_eq, Step.Fails]
  failed cause fails := by
    obtain ⟨attempted, failed⟩ := fails
    obtain ⟨events, same⟩ := did.refused_after attempted (kept.nextLoad_eq.trans failed)
    refine ⟨⟨events, same⟩, fun rest => ?_⟩
    apply history_results
    rw [same]
    exact ⟨rfl, rfl, rfl⟩
  unreadable_iff := did.unread_iff
  unread cause unread := by
    obtain ⟨⟨path, fault, rfl⟩, _⟩ := Call.work_unread unread
    exact ⟨(did.unread_iff path fault).mpr unread, did.unread_same _ unread⟩
  answered_iff := by
    rw [did.ok_iff, kept.nextLoad_eq]
    rfl
  afresh answer answered fresh succeeds := by
    obtain ⟨text, answers⟩ := did.answers answered
    exact answers.afresh language fresh succeeds

end Workbench

end ScriptMetrics
