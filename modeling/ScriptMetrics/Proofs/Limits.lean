import ScriptMetrics.Proofs.Totality
import ScriptMetrics.Report.Print

/-!
Limits and reports. A report fails exactly if one of its functions goes beyond a limit, and a report
of rated functions can always be printed.
-/

namespace ScriptMetrics

theorem Metric.ofName?_name (metric : Metric) : ofName? metric.name = some metric := by
  cases metric <;> decide

-- Limits are looked up by name, and no two of them share one.
theorem exceedsLimit_iff {metric : Metric} {limit : Int} (listed : (metric, limit) ∈ limits) (value : Int) :
    exceedsLimit metric.name value = true ↔ limit < value := by
  simp only [limits, List.mem_cons, Prod.mk.injEq, List.not_mem_nil, or_false] at listed
  rcases listed with ⟨rfl, rfl⟩ | ⟨rfl, rfl⟩ | ⟨rfl, rfl⟩ <;> simp [exceedsLimit, limits, Metric.name]

namespace FunctionRecord

/-- Too long, too deeply nested, or with too long a chain of messages. -/
def IsBeyond (record : FunctionRecord) : Prop :=
  100 < record.length ∨ 5 < record.nesting ∨ 10 < record.chains

theorem isBeyond_iff (record : FunctionRecord) :
    record.IsBeyond ↔ ∃ metric limit, (metric, limit) ∈ limits ∧ limit < record.value metric := by
  constructor
  · rintro (long | deep | chained)
    · exact ⟨.length, 100, by simp [limits], long⟩
    · exact ⟨.nesting, 5, by simp [limits], deep⟩
    · exact ⟨.chains, 10, by simp [limits], chained⟩
  · rintro ⟨metric, limit, listed, beyond⟩
    simp only [limits, List.mem_cons, Prod.mk.injEq, List.not_mem_nil, or_false] at listed
    rcases listed with ⟨rfl, rfl⟩ | ⟨rfl, rfl⟩ | ⟨rfl, rfl⟩
    · exact .inl beyond
    · exact .inr (.inl beyond)
    · exact .inr (.inr beyond)

theorem mem_violations {record : FunctionRecord} {violation : Violation} :
    violation ∈ record.violations ↔ ∃ metric limit, (metric, limit) ∈ limits ∧
      limit < record.value metric ∧ violation = record.violation metric := by
  simp only [FunctionRecord.violations, List.mem_map, List.mem_filter]
  constructor
  · rintro ⟨metric, ⟨⟨⟨_, limit⟩, listed, rfl⟩, exceeds⟩, rfl⟩
    exact ⟨_, limit, listed, (exceedsLimit_iff listed _).mp exceeds, rfl⟩
  · rintro ⟨metric, limit, listed, beyond, rfl⟩
    exact ⟨metric, ⟨⟨(metric, limit), listed, rfl⟩, (exceedsLimit_iff listed _).mpr beyond⟩, rfl⟩

theorem violations_ne_nil_iff (record : FunctionRecord) : record.violations ≠ [] ↔ record.IsBeyond := by
  rw [isBeyond_iff]
  constructor
  · intro some
    rcases List.exists_mem_of_ne_nil _ some with ⟨violation, member⟩
    rcases mem_violations.mp member with ⟨metric, limit, listed, beyond, _⟩
    exact ⟨metric, limit, listed, beyond⟩
  · rintro ⟨metric, limit, listed, beyond⟩
    apply List.ne_nil_of_mem
    exact mem_violations.mpr ⟨metric, limit, listed, beyond, rfl⟩

end FunctionRecord

namespace FileReport

/-- A report whose functions have been rated. -/
def IsRated (report : FileReport) : Prop :=
  ∀ evaluation ∈ report.functions, evaluation = evaluation.record.evaluate

theorem ofCollection_isRated (collection : Collection) : (ofCollection collection).IsRated := by
  intro evaluation member
  rcases List.mem_map.mp member with ⟨record, _, rfl⟩
  rfl

theorem IsRated.violations_ne_nil_iff {report : FileReport} (rated : report.IsRated) :
    report.violations ≠ [] ↔ ∃ evaluation ∈ report.functions, evaluation.record.IsBeyond := by
  have each : ∀ evaluation ∈ report.functions, evaluation.violations ≠ [] ↔ evaluation.record.IsBeyond := by
    intro evaluation member
    rw [rated evaluation member]
    exact FunctionRecord.violations_ne_nil_iff _
  simp only [FileReport.violations, ne_eq, List.flatMap_eq_nil_iff, not_forall, exists_prop]
  exact exists_congr fun evaluation => and_congr_right (each evaluation)

theorem IsRated.known {report : FileReport} (rated : report.IsRated) {violation : Violation}
    (member : violation ∈ report.violations) : ∃ metric, Metric.ofName? violation.metric = some metric := by
  rcases List.mem_flatMap.mp member with ⟨evaluation, listed, found⟩
  rw [rated evaluation listed] at found
  rcases FunctionRecord.mem_violations.mp found with ⟨metric, _, _, _, rfl⟩
  exact ⟨metric, metric.ofName?_name⟩

/-- How a file is reported: a block for the file, then one for each function, or one that says that there is
none, with a line feed after each. -/
def text (color : Bool) (report : FileReport) : String :=
  report.file.print color ++ "\n" ++
    match report.functions with
    | [] => printNoFunctions color ++ "\n"
    | functions => String.join (functions.map fun evaluation => evaluation.print color ++ "\n")

theorem join_blocks (color : Bool) (report : FileReport) :
    String.join ((report.blocks color).map (·.push '\n')) = report.text color := by
  unfold FileReport.blocks text FileReport.hasFunctions
  cases report.functions with
  | nil => simp [String.push_eq_append]
  | cons first rest => simp [String.push_eq_append, Function.comp_def]

theorem join_texts (color : Bool) (files : List FileReport) :
    String.join ((files.flatMap (FileReport.blocks color)).map (·.push '\n')) =
      String.join (files.map (text color)) := by
  induction files with
  | nil => rfl
  | cons file files ih => simp [join_blocks, ih]

end FileReport

namespace Report

variable {files : List FileReport} (rated : ∀ file ∈ files, file.IsRated)

include rated

theorem violations_ofFiles_iff :
    (ofFiles files).violations ≠ [] ↔
      ∃ file ∈ files, ∃ evaluation ∈ file.functions, evaluation.record.IsBeyond := by
  simp only [ofFiles, ne_eq, List.flatMap_eq_nil_iff, not_forall, exists_prop]
  exact exists_congr fun file => and_congr_right fun member => (rated file member).violations_ne_nil_iff

theorem print_blocks (color : Bool) :
    ∃ closing, printViolations color (files.flatMap FileReport.violations) = .ok closing ∧
      (ofFiles files).print color =
        .ok (String.join ((files.flatMap (FileReport.blocks color) ++ [closing]).map (·.push '\n'))) := by
  have printed : ∃ closing, printViolations color (files.flatMap FileReport.violations) = .ok closing := by
    unfold printViolations
    split
    · exact ⟨_, rfl⟩
    · have each : ∀ violation ∈ files.flatMap FileReport.violations,
          ∃ block, Violation.print color violation = .ok block := by
        intro violation member
        rcases List.mem_flatMap.mp member with ⟨file, listed, found⟩
        rcases (rated file listed).known found with ⟨metric, known⟩
        exact ⟨_, by simp only [Violation.print, known]; rfl⟩
      rcases mapM_total _ _ each with ⟨blocks, total⟩
      rw [total]
      exact ⟨_, rfl⟩
  rcases printed with ⟨closing, done⟩
  refine ⟨closing, done, ?_⟩
  unfold Report.print
  simp only [ofFiles, done]
  rfl

/-- Rated functions can be printed: the text of each file in order, and a block of violations. -/
theorem print_ofFiles (color : Bool) :
    ∃ closing, printViolations color (files.flatMap FileReport.violations) = .ok closing ∧
      (ofFiles files).print color =
        .ok (String.join (files.map (FileReport.text color)) ++ closing ++ "\n") := by
  rcases print_blocks rated color with ⟨closing, closes, printed⟩
  refine ⟨closing, closes, printed.trans (congrArg Except.ok ?_)⟩
  rw [List.map_append, String.join_append, FileReport.join_texts]
  simp [String.push_eq_append, String.append_assoc]

omit rated

theorem exitCode_eq_one_iff (files : List FileReport) :
    (ofFiles files).outcome.exitCode = 1 ↔ (ofFiles files).violations ≠ [] := by
  cases violations : files.flatMap FileReport.violations <;>
    simp [ofFiles, violations, Outcome.exitCode]

theorem exitCode_le_one (report : Report) : report.outcome.exitCode ≤ 1 := by
  cases report.outcome <;> decide

end Report

end ScriptMetrics
