import ScriptMetrics.Proofs.Limits

/-!
Reports put together. The report of two lists of files is their two reports side by side, and a file
without functions decides nothing. How a report comes out is said three times, by its outcome, by the
exit code and by the line it closes with, and all three say whether some function goes beyond a limit.
-/

namespace ScriptMetrics

namespace Text

/-- The last line of the text is ended. -/
def IsEnded (text : String) : Prop :=
  ∃ front, text = front ++ "\n"

/-- The last line of a text. -/
def EndsInLine (text line : String) : Prop :=
  ∃ front, text = front ++ line ++ "\n" ∧ (front = "" ∨ IsEnded front)

theorem isEnded_iff (text : String) : IsEnded text ↔ text.toList.getLast? = some '\n' := by
  rw [List.getLast?_eq_some_iff]
  constructor
  · rintro ⟨front, rfl⟩
    exact ⟨front.toList, by simp⟩
  · rintro ⟨front, same⟩
    refine ⟨String.ofList front, ?_⟩
    rw [← String.toList_inj, same]
    simp

theorem IsEnded.append {text : String} (ended : IsEnded text) (front : String) : IsEnded (front ++ text) := by
  obtain ⟨line, rfl⟩ := ended
  exact ⟨front ++ line, by rw [String.append_assoc]⟩

theorem isEnded_join (texts : List String) (ended : ∀ text ∈ texts, IsEnded text) :
    String.join texts = "" ∨ IsEnded (String.join texts) := by
  rcases List.eq_nil_or_concat' texts with rfl | ⟨front, last, rfl⟩
  · exact .inl rfl
  · right
    rw [String.join_append]
    apply IsEnded.append
    simpa using ended last (by simp)

theorem isEnded_intercalate (title : String) (blocks : List String) (some : blocks ≠ [])
    (ended : ∀ block ∈ blocks, IsEnded block) : IsEnded ("\n".intercalate (title :: blocks)) := by
  rcases List.eq_nil_or_concat' blocks with none | ⟨front, last, rfl⟩
  · exact absurd none some
  · rw [← List.cons_append, String.intercalate_append_of_ne_nil (by simp) (by simp),
      String.intercalate_singleton]
    exact (ended last (by simp)).append _

/-- Below an ended text stands an empty line. -/
theorem not_endsInLine {text line : String} (ended : IsEnded text) (unended : ¬ IsEnded line)
    (some : line ≠ "") : ¬ EndsInLine (text ++ "\n") line := by
  rintro ⟨front, same, _⟩
  rw [String.append_left_inj] at same
  apply unended
  rw [isEnded_iff] at ended ⊢
  rw [same, String.toList_append, List.getLast?_append] at ended
  cases last : line.toList.getLast? with
  | none => simp_all
  | some char => simpa [last] using ended

end Text

open Text (IsEnded EndsInLine)

theorem Violation.isEnded_print {color : Bool} {violation : Violation} {block : String}
    (printed : violation.print color = .ok block) : IsEnded block := by
  unfold Violation.print at printed
  split at printed
  · cases printed
  · cases printed
    exact ⟨_, rfl⟩

/-- The line that a report without violations closes with. -/
def allClear (color : Bool) : String :=
  paint color [Style.onGreen, Style.bold] "NO VIOLATIONS FOUND"

theorem allClear_unended (color : Bool) : ¬ IsEnded (allClear color) := by
  rw [Text.isEnded_iff]
  cases color <;> decide

theorem isEnded_printViolations {color : Bool} {violations : List Violation} {closing : String}
    (printed : printViolations color violations = .ok closing) (some : violations ≠ []) :
    IsEnded closing := by
  unfold printViolations at printed
  split at printed
  · exact absurd rfl some
  · cases total : violations.mapM (Violation.print color) with
    | error unknown =>
        rw [total] at printed
        cases printed
    | ok blocks =>
        rw [total] at printed
        cases printed
        have printed := forall₂_of_mapM total
        apply Text.isEnded_intercalate
        · rintro rfl
          cases printed
          exact some rfl
        · intro block member
          rcases List.mem_iff_getElem?.mp member with ⟨i, found⟩
          rcases forall₂_getElem? printed.flip i block found with ⟨violation, _, own⟩
          exact Violation.isEnded_print own

namespace FunctionRecord

/-- The metrics of a function that go beyond their limits, in the order they are listed. -/
def beyond (record : FunctionRecord) : List Metric :=
  (if 100 < record.length then [.length] else []) ++
    (if 5 < record.nesting then [.nesting] else []) ++
    (if 10 < record.chains then [.chains] else [])

theorem violations_eq (record : FunctionRecord) : record.violations = record.beyond.map record.violation := by
  have long : exceedsLimit Metric.length.name (record.value .length) = true ↔ 100 < record.length :=
    exceedsLimit_iff (by simp [limits]) _
  have deep : exceedsLimit Metric.nesting.name (record.value .nesting) = true ↔ 5 < record.nesting :=
    exceedsLimit_iff (by simp [limits]) _
  have chained : exceedsLimit Metric.chains.name (record.value .chains) = true ↔ 10 < record.chains :=
    exceedsLimit_iff (by simp [limits]) _
  unfold FunctionRecord.violations beyond
  simp only [limits, List.map_cons, List.map_nil, List.filter_cons, List.filter_nil, long, deep, chained]
  split <;> split <;> split <;> rfl

end FunctionRecord

namespace FileReport

theorem isEnded_text (color : Bool) (report : FileReport) : IsEnded (report.text color) := by
  unfold FileReport.text
  split
  · exact IsEnded.append ⟨_, rfl⟩ _
  · have each : ∀ text ∈ report.functions.map fun evaluation => evaluation.print color ++ "\n", IsEnded text := by
      intro text member
      rcases List.mem_map.mp member with ⟨evaluation, _, rfl⟩
      exact ⟨_, rfl⟩
    rcases Text.isEnded_join _ each with nothing | ended
    · rw [nothing, String.append_empty]
      exact ⟨_, rfl⟩
    · exact ended.append _

theorem IsRated.violations_eq {report : FileReport} (rated : report.IsRated) :
    report.violations = report.functions.flatMap fun evaluation =>
      evaluation.record.beyond.map evaluation.record.violation := by
  apply List.flatMap_congr
  intro evaluation member
  rw [rated evaluation member]
  exact evaluation.record.violations_eq

theorem violations_of_no_functions {report : FileReport} (none : report.functions = []) :
    report.violations = [] := by
  rw [FileReport.violations, none, List.flatMap_nil]

end FileReport

namespace Report

theorem outcome_ofFiles_iff (files : List FileReport) :
    (ofFiles files).outcome = .failed ↔ (ofFiles files).violations ≠ [] := by
  cases violations : files.flatMap FileReport.violations <;> simp [ofFiles, violations]

theorem violations_append (xs ys : List FileReport) :
    (ofFiles (xs ++ ys)).violations = (ofFiles xs).violations ++ (ofFiles ys).violations := by
  simp [ofFiles]

theorem outcome_congr {xs ys : List FileReport} (same : (ofFiles xs).violations = (ofFiles ys).violations) :
    (ofFiles xs).outcome = (ofFiles ys).outcome := by
  show (if (ofFiles xs).violations.isEmpty then _ else _) = _
  rw [same]
  rfl

theorem violations_insert (xs ys : List FileReport) {file : FileReport} (none : file.functions = []) :
    (ofFiles (xs ++ file :: ys)).violations = (ofFiles (xs ++ ys)).violations := by
  simp [ofFiles, FileReport.violations_of_no_functions none]

theorem print_ends_iff {files : List FileReport} (rated : ∀ file ∈ files, file.IsRated) (color : Bool) :
    ∃ text, (ofFiles files).print color = .ok text ∧
      (EndsInLine text (allClear color) ↔ (ofFiles files).violations = []) := by
  obtain ⟨closing, closes, printed⟩ := print_ofFiles rated color
  refine ⟨_, printed, ?_⟩
  by_cases none : files.flatMap FileReport.violations = []
  · rw [none] at closes
    cases closes
    refine ⟨fun _ => none, fun _ => ⟨_, rfl, ?_⟩⟩
    apply Text.isEnded_join
    intro text member
    obtain ⟨file, _, rfl⟩ := List.mem_map.mp member
    exact file.isEnded_text color
  · refine ⟨fun ends => ?_, fun absent => absurd absent none⟩
    have ended := (isEnded_printViolations closes none).append (String.join (files.map (FileReport.text color)))
    exact absurd ends (Text.not_endsInLine ended (allClear_unended color) (by cases color <;> decide))

/-- Some function of some file goes beyond a limit. -/
def SomeBeyond (files : List FileReport) : Prop :=
  ∃ file ∈ files, ∃ evaluation ∈ file.functions, evaluation.record.IsBeyond

/-- What a report of two lists of files is, in terms of their two reports and of the files themselves. -/
structure PutTogether (xs ys : List FileReport) (report : Report) : Prop where
  files : report.files = (ofFiles xs).files ++ (ofFiles ys).files
  listed : report.files = xs ++ ys
  violations : report.violations = (ofFiles xs).violations ++ (ofFiles ys).violations
  ordered : report.violations = (xs ++ ys).flatMap fun file => file.functions.flatMap fun evaluation =>
    evaluation.record.beyond.map evaluation.record.violation
  functionCount : report.functionCount = (ofFiles xs).functionCount + (ofFiles ys).functionCount
  counted : report.functionCount = ((xs ++ ys).flatMap FileReport.functions).length
  outcome : report.outcome = .failed ↔ (ofFiles xs).outcome = .failed ∨ (ofFiles ys).outcome = .failed
  inserted : ∀ file, file.functions = [] →
    (ofFiles (xs ++ file :: ys)).violations = report.violations ∧
    (ofFiles (xs ++ file :: ys)).outcome = report.outcome ∧
    (ofFiles (xs ++ file :: ys)).outcome.exitCode = report.outcome.exitCode
  failed : report.outcome = .failed ↔ SomeBeyond (xs ++ ys)
  exitCode : report.outcome.exitCode = 1 ↔ SomeBeyond (xs ++ ys)
  closing : ∀ color, ∃ text, report.print color = .ok text ∧
    (¬ EndsInLine text (allClear color) ↔ SomeBeyond (xs ++ ys))

/-- Reports add up. The report of two lists of files is their two reports side by side; a file without
functions decides nothing; and it fails, exits with one and does not close as clear exactly if some
function goes beyond a limit. -/
theorem ofFiles_append (xs ys : List FileReport) (left : ∀ file ∈ xs, file.IsRated)
    (right : ∀ file ∈ ys, file.IsRated) : PutTogether xs ys (ofFiles (xs ++ ys)) := by
  have rated : ∀ file ∈ xs ++ ys, file.IsRated := by
    intro file member
    exact (List.mem_append.mp member).elim (left file) (right file)
  have violated : (ofFiles (xs ++ ys)).violations ≠ [] ↔ SomeBeyond (xs ++ ys) := violations_ofFiles_iff rated
  constructor
  case files => rfl
  case listed => rfl
  case violations => exact violations_append xs ys
  case ordered =>
    apply List.flatMap_congr
    intro file member
    exact (rated file member).violations_eq
  case functionCount => simp [functionCount, ofFiles]
  case counted => simp [functionCount, ofFiles, List.length_flatMap]
  case outcome =>
    rw [outcome_ofFiles_iff, outcome_ofFiles_iff, outcome_ofFiles_iff, violations_append, ne_eq,
      List.append_eq_nil_iff, not_and_or]
  case inserted =>
    intro file none
    have same := violations_insert xs ys none
    have outcome := outcome_congr same
    exact ⟨same, outcome, congrArg Outcome.exitCode outcome⟩
  case failed => rw [outcome_ofFiles_iff, violated]
  case exitCode => rw [exitCode_eq_one_iff, violated]
  case closing =>
    intro color
    obtain ⟨text, printed, ends⟩ := print_ends_iff rated color
    exact ⟨text, printed, by rw [ends, ← violated]⟩

/-- A file with one function, which is a line too long. -/
def longFile : FileReport where
  file := { fileName := "long.js" }
  functions := [{ fileName := "long.js", functionName := "long", length := 101 : FunctionRecord }.evaluate]

def bareFile : FileReport where
  file := { fileName := "bare.js" }

theorem longFile_fails :
    let report := ofFiles ([longFile] ++ [bareFile])
    report.outcome.exitCode = 1 ∧
    ∀ color, ∃ text, report.print color = .ok text ∧ ¬ EndsInLine text (allClear color) := by
  have left : ∀ file ∈ [longFile], file.IsRated := by
    simp [FileReport.IsRated, longFile, FunctionRecord.evaluate]
  have right : ∀ file ∈ [bareFile], file.IsRated := by
    simp [FileReport.IsRated, bareFile]
  have whole := ofFiles_append [longFile] [bareFile] left right
  have beyond : SomeBeyond ([longFile] ++ [bareFile]) :=
    ⟨longFile, List.mem_cons_self, _, List.mem_cons_self, .inl (by decide)⟩
  refine ⟨whole.exitCode.mpr beyond, ?_⟩
  intro color
  obtain ⟨text, printed, ends⟩ := whole.closing color
  exact ⟨text, printed, ends.mpr beyond⟩

end Report

end ScriptMetrics
