import Mathlib.Data.List.Induction
import ScriptMetrics.Proofs.Coloring
import Std.Data.String.ToInt

/-!
Reading function blocks back. The name that a block begins with may hold anything, also what looks like
the rest of a block, so a block is read from its end: each value comes after a blank and has none in it,
and the line comes after a number sign. Two blocks that are the same show the same function.
-/

namespace ScriptMetrics

-- One of the two marks is the last of both texts, so no mark is left for what is between them.
theorem append_mark_inj {mark : Char} {front other tail ending : List Char} (unmarked : mark ∉ tail)
    (plain : mark ∉ ending) (same : front ++ mark :: tail = other ++ mark :: ending) :
    front = other ∧ tail = ending := by
  rcases List.append_eq_append_iff.mp same with ⟨between, rfl, rest⟩ | ⟨between, rfl, rest⟩
  · cases between with
    | nil => simpa using rest
    | cons char between =>
        rw [List.cons_append, List.cons.injEq] at rest
        exact absurd (rest.2 ▸ List.mem_append_right between List.mem_cons_self) unmarked
  · cases between with
    | nil => simpa [eq_comm] using rest
    | cons char between =>
        rw [List.cons_append, List.cons.injEq] at rest
        exact absurd (rest.2 ▸ List.mem_append_right between List.mem_cons_self) plain

theorem append_label_inj {label : String} {mark : Char} (marked : label.toList.getLast? = some mark)
    {front other tail ending : String} (unmarked : mark ∉ tail.toList) (plain : mark ∉ ending.toList)
    (same : front ++ (label ++ tail) = other ++ (label ++ ending)) : front = other ∧ tail = ending := by
  obtain ⟨stem, spelled⟩ := List.getLast?_eq_some_iff.mp marked
  have chars : (front.toList ++ stem) ++ mark :: tail.toList = (other.toList ++ stem) ++ mark :: ending.toList := by
    simpa [spelled] using congrArg String.toList same
  obtain ⟨fronts, tails⟩ := append_mark_inj unmarked plain chars
  exact ⟨String.toList_inj.mp (List.append_cancel_right fronts), String.toList_inj.mp tails⟩

theorem toString_inj {value other : Int} (same : toString value = toString other) : value = other := by
  rwa [Int.toString_eq_repr, Int.toString_eq_repr, Int.repr_inj] at same

theorem paint_inj {color : Bool} {codes : List String} {text other : String}
    (same : paint color codes text = paint color codes other) : text = other := by
  unfold paint at same
  split at same
  · rwa [String.append_left_inj, String.append_right_inj] at same
  · exact same

theorem printHeading_inj {color : Bool} {name other : String} {line place : Int}
    (same : printHeading color name line = printHeading color other place) : name = other ∧ line = place := by
  have marked : "(): at line #".toList.getLast? = some '#' := by decide
  have unmarked (line : Int) : '#' ∉ (toString line).toList := not_mem_toString (by decide) (by decide) line
  rw [printHeading, printHeading, String.append_assoc, String.append_assoc] at same
  obtain ⟨names, lines⟩ := append_label_inj marked (unmarked line) (unmarked place) same
  exact ⟨paint_inj names, toString_inj lines⟩

theorem printValue_unspaced (color : Bool) (value : Int) (severity : Option Severity) :
    ' ' ∉ (printValue color value severity).toList := by
  have plain : ' ' ∉ (toString value).toList := not_mem_toString (by decide) (by decide) value
  cases severity with
  | none => exact plain
  | some severity =>
      cases color with
      | false => exact plain
      | true =>
          have code : ' ' ∉ severity.color.toList := by cases severity <;> decide
          show ' ' ∉ ("" ++ severity.color ++ toString value ++ Style.reset).toList
          simp only [String.toList_append, List.mem_append, not_or]
          exact ⟨⟨⟨by decide, code⟩, plain⟩, by decide⟩

theorem printValue_plain (value : Int) (severity : Option Severity) :
    printValue false value severity = toString value := by
  cases severity <;> rfl

-- The colours depend on the values, so they are erased before the numbers are compared.
theorem printValue_inj {color : Bool} {value other : Int} {severity rating : Option Severity}
    (same : printValue color value severity = printValue color other rating) : value = other := by
  apply toString_inj
  rw [← printValue_plain value severity, ← printValue_plain other rating]
  cases color with
  | false => exact same
  | true =>
      rw [← (printValue_colors value severity).uncolored_eq, ← (printValue_colors other rating).uncolored_eq, same]

namespace FunctionRecord

variable {color : Bool} {record other : FunctionRecord}

theorem cell_eq (color : Bool) (record : FunctionRecord) (metric : Metric) :
    record.evaluate.cell color metric = metric.lead ++ metric.label ++ ": " ++
      printValue color (record.value metric) (record.severity metric) := by
  simp only [Evaluation.cell, Evaluation.printMetric, evaluate, String.append_assoc]

theorem cell_inj {metric : Metric} {front before : String}
    (same : front ++ record.evaluate.cell color metric = before ++ other.evaluate.cell color metric) :
    front = before ∧ record.value metric = other.value metric := by
  have marked : (metric.lead ++ metric.label ++ ": ").toList.getLast? = some ' ' := by
    cases metric <;> decide
  rw [cell_eq, cell_eq] at same
  obtain ⟨fronts, values⟩ := append_label_inj marked (printValue_unspaced _ _ _) (printValue_unspaced _ _ _) same
  exact ⟨fronts, printValue_inj values⟩

theorem cells_inj {metrics : List Metric} {front before : String}
    (same : front ++ String.join (metrics.map (record.evaluate.cell color)) =
      before ++ String.join (metrics.map (other.evaluate.cell color))) :
    front = before ∧ ∀ metric ∈ metrics, record.value metric = other.value metric := by
  -- The last cell is the one that can be told from what stands before it.
  induction metrics using List.reverseRecOn with
  | nil => simpa using same
  | append_singleton metrics last ih =>
      simp only [List.map_append, List.map_singleton, String.join_append, String.join_cons, String.join_nil,
        String.append_empty, ← String.append_assoc] at same
      obtain ⟨earlier, value⟩ := cell_inj same
      obtain ⟨fronts, values⟩ := ih earlier
      refine ⟨fronts, ?_⟩
      intro metric member
      rcases List.mem_append.mp member with inside | final
      · exact values metric inside
      · rw [List.mem_singleton.mp final]
        exact value

theorem cell_congr {metric : Metric} (same : record.value metric = other.value metric) :
    record.evaluate.cell color metric = other.evaluate.cell color metric := by
  rw [cell_eq, cell_eq, severity, severity, same]

/-- The block of a function shows its name, its line and the values of its metrics, and no two choices of
these have the same block. -/
theorem print_eq_iff (color : Bool) (record other : FunctionRecord) :
    record.evaluate.print color = other.evaluate.print color ↔
      record.functionName = other.functionName ∧ record.startLine = other.startLine ∧
      ∀ metric, record.value metric = other.value metric := by
  rw [Evaluation.print_eq, Evaluation.print_eq, String.append_left_inj]
  constructor
  · intro same
    obtain ⟨headings, values⟩ := cells_inj same
    obtain ⟨names, lines⟩ := printHeading_inj headings
    exact ⟨names, lines, fun metric => values metric (by cases metric <;> decide)⟩
  · rintro ⟨names, lines, values⟩
    have cells : Metric.all.map (record.evaluate.cell color) = Metric.all.map (other.evaluate.cell color) :=
      List.map_congr_left fun metric _ => cell_congr (values metric)
    rw [cells]
    show printHeading color record.functionName record.startLine ++ _ =
      printHeading color other.functionName other.startLine ++ _
    rw [names, lines]

end FunctionRecord

end ScriptMetrics
