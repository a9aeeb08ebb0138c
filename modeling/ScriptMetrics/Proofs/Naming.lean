import ScriptMetrics.Proofs.Reordering
import ScriptMetrics.Report.Basic

/-!
The name of a file. It stands in the counters of the file, in the record of each of its functions and in
each violation, and nothing else in a report depends on it: the report of an arena under one name is the
report under another with the names exchanged.
-/

namespace ScriptMetrics

namespace FunctionRecord

def named (fileName : String) (record : FunctionRecord) : FunctionRecord :=
  { record with fileName }

end FunctionRecord

namespace Evaluation

def named (fileName : String) (evaluation : Evaluation) : Evaluation :=
  { evaluation with
    record := evaluation.record.named fileName
    violations := evaluation.violations.map fun violation => { violation with fileName } }

end Evaluation

namespace FileReport

/-- A report with another file name throughout. -/
def named (fileName : String) (report : FileReport) : FileReport where
  file := { report.file with fileName }
  functions := report.functions.map (Evaluation.named fileName)

end FileReport

theorem FunctionRecord.evaluate_named (fileName : String) (record : FunctionRecord) :
    (record.named fileName).evaluate = record.evaluate.named fileName := by
  have values : (record.named fileName).value = record.value := by
    funext metric
    cases metric <;> rfl
  have violated : (record.named fileName).violations =
      record.violations.map fun violation => { violation with fileName } := by
    simp only [violations, values, List.map_map]
    apply List.map_congr_left
    intro metric _
    simp only [Function.comp, violation, severity, values]
    rfl
  have rated : (record.named fileName).severity = record.severity := by
    funext metric
    rw [severity, values, severity]
  rw [evaluate, violated, rated]
  rfl

namespace Arena

variable (arena : Arena) (fileName other : String)

theorem outline_named (function : Node) :
    arena.outline function other = (arena.outline function fileName).map (FunctionRecord.named other) := by
  show _ = FunctionRecord.named other <$> arena.outline function fileName
  simp only [outline, map_bind, map_pure]
  rfl

theorem recordAlone_named (function : Node) :
    arena.recordAlone other function =
      (arena.recordAlone fileName function).map (FunctionRecord.named other) := by
  unfold recordAlone functionRecord
  rw [arena.outline_named fileName other function]
  cases arena.outline function fileName with
  | error fault => rfl
  | ok outline =>
      simp only [Except.map]
      cases arena.nesting function .empty <;> rfl

theorem records_named (functions : List Node) :
    functions.mapM (arena.recordAlone other) =
      (functions.mapM (arena.recordAlone fileName)).map (List.map (FunctionRecord.named other)) := by
  induction functions with
  | nil => rfl
  | cons function rest ih =>
      rw [List.mapM_cons, List.mapM_cons, ih, arena.recordAlone_named fileName other]
      cases arena.recordAlone fileName function with
      | error fault => rfl
      | ok record => cases rest.mapM (arena.recordAlone fileName) <;> rfl

variable {arena} (complete : arena.Complete)

include complete

theorem Complete.collect_named (collection : Collection) (collected : arena.collect fileName = .ok collection) :
    ∃ renamed, arena.collect other = .ok renamed ∧
      FileReport.ofCollection renamed = (FileReport.ofCollection collection).named other := by
  obtain ⟨records, first, alone⟩ := complete.collect_eq fileName
  obtain ⟨others, second, otherAlone⟩ := complete.collect_eq other
  obtain rfl := Except.ok.inj (first.symm.trans collected)
  refine ⟨_, second, ?_⟩
  rw [arena.records_named fileName other, alone] at otherAlone
  obtain rfl : records.map (FunctionRecord.named other) = others := Except.ok.inj otherAlone
  simp only [FileReport.ofCollection, FileReport.named, List.map_map]
  congr 1
  apply List.map_congr_left
  intro record _
  exact record.evaluate_named other

/-- There is one report of an arena, up to the name of the file. -/
theorem Complete.exists_report : ∃ report : FileReport, ∀ fileName, ∃ collection,
    arena.collect fileName = .ok collection ∧ .ofCollection collection = report.named fileName := by
  obtain ⟨_, _, _, collected, _⟩ := complete.collect_ok ""
  exact ⟨_, fun fileName => complete.collect_named "" fileName _ collected⟩

end Arena

end ScriptMetrics
