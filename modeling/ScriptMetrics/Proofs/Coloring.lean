import Mathlib.Data.List.Forall2
import ScriptMetrics.Proofs.Likeness
import ScriptMetrics.Proofs.Limits

/-!
Colours of the printed report. A code is an escape character, a bracket, digits and a letter; erasing
takes the codes out of a text. A printed report with its codes erased is the report printed without
colour, whatever the names in it are, as long as they bring no escape characters of their own.
-/

namespace ScriptMetrics

namespace Style

/-- What follows the digits and the letter that end a code. -/
def afterDigits? : List Char → Option (List Char)
  | [] => none
  | char :: rest =>
      if char = 'm' then some rest else if char.isDigit then afterDigits? rest else none

/-- What follows the code at the front of a text, if one stands there. -/
def afterCode? : List Char → Option (List Char)
  | '\x1b' :: '[' :: digit :: rest => if digit.isDigit then afterDigits? rest else none
  | _ => none

theorem length_afterDigits? {text after : List Char} (found : afterDigits? text = some after) :
    after.length < text.length := by
  induction text with
  | nil => cases found
  | cons char rest ih =>
      rw [afterDigits?] at found
      split at found
      · cases found
        exact Nat.lt_succ_self _
      · split at found
        · exact (ih found).trans (Nat.lt_succ_self _)
        · cases found

theorem length_afterCode? {text after : List Char} (found : afterCode? text = some after) :
    after.length < text.length := by
  unfold afterCode? at found
  split at found
  · split at found
    · have shorter := length_afterDigits? found
      simp only [List.length_cons]
      omega
    · cases found
  · cases found

/-- A text without its codes. -/
def erase (text : List Char) : List Char :=
  match text with
  | [] => []
  | char :: rest =>
      match _found : afterCode? (char :: rest) with
      | some after => erase after
      | none => char :: erase rest
termination_by text.length
decreasing_by
  · exact length_afterCode? _found
  · exact Nat.lt_succ_self _

def uncolored (text : String) : String :=
  String.ofList (erase text.toList)

theorem erase_of_code {text after : List Char} (found : afterCode? text = some after) :
    erase text = erase after := by
  cases text with
  | nil => cases found
  | cons char rest =>
      rw [erase.eq_def]
      split
      · next same => cases same
      · next same =>
          cases same
          split
          · next other located =>
              rw [found] at located
              cases located
              rfl
          · next absent =>
              rw [found] at absent
              cases absent

theorem erase_cons {char : Char} (plain : char ≠ '\x1b') (rest : List Char) :
    erase (char :: rest) = char :: erase rest := by
  have none : afterCode? (char :: rest) = none := by
    unfold afterCode?
    split
    · next same =>
        cases same
        exact absurd rfl plain
    · rfl
  rw [erase]
  split
  · next found =>
      rw [none] at found
      cases found
  · rfl

theorem erase_plain {text : List Char} (clean : '\x1b' ∉ text) (rest : List Char) :
    erase (text ++ rest) = text ++ erase rest := by
  induction text with
  | nil => rfl
  | cons char text ih =>
      rw [List.mem_cons, not_or] at clean
      rw [List.cons_append, erase_cons (Ne.symm clean.1), ih clean.2, List.cons_append]

/-- A code and nothing else. -/
def IsCode (code : String) : Prop :=
  afterCode? code.toList = some []

instance : DecidablePred IsCode := fun code =>
  inferInstanceAs (Decidable (afterCode? code.toList = some []))

theorem afterDigits?_append {text after : List Char} (found : afterDigits? text = some after) (rest : List Char) :
    afterDigits? (text ++ rest) = some (after ++ rest) := by
  induction text with
  | nil => cases found
  | cons char text ih =>
      rw [List.cons_append]
      unfold afterDigits? at found ⊢
      split at found
      · next last =>
          cases found
          rw [if_pos last]
      · next inner =>
          rw [if_neg inner]
          split at found
          · next isDigit => rw [if_pos isDigit, ih found]
          · cases found

theorem afterCode?_append {text after : List Char} (found : afterCode? text = some after) (rest : List Char) :
    afterCode? (text ++ rest) = some (after ++ rest) := by
  unfold afterCode? at found
  split at found
  · split at found
    · next isDigit =>
        simp only [List.cons_append, afterCode?, isDigit, if_true]
        exact afterDigits?_append found rest
    · cases found
  · cases found

theorem IsCode.erase_append {code : String} (isCode : IsCode code) (rest : List Char) :
    erase (code.toList ++ rest) = erase rest :=
  erase_of_code (afterCode?_append isCode rest)

-- Where the digits are missing there is no code.
example : uncolored "\x1b[31m4\x1b[0m\x1b[m" = "4\x1b[m" := by cbv

theorem erase_codes {codes : List String} (known : ∀ code ∈ codes, IsCode code) (rest : List Char) :
    erase ((String.join codes).toList ++ rest) = erase rest := by
  induction codes with
  | nil => rfl
  | cons code codes ih =>
      rw [List.forall_mem_cons] at known
      rw [String.join_cons, String.toList_append, List.append_assoc, known.1.erase_append, ih known.2]

/-- A text in colour and the same text without. Erasing leads from the one to the other whatever comes
after them, so it does for texts put together from such pairs. -/
structure Colors (colored plain : String) : Prop where
  clean : '\x1b' ∉ plain.toList
  erased : ∀ rest, erase (colored.toList ++ rest) = plain.toList ++ erase rest

namespace Colors

theorem self {text : String} (clean : '\x1b' ∉ text.toList) : Colors text text :=
  ⟨clean, erase_plain clean⟩

theorem uncolored_eq {colored plain : String} (colors : Colors colored plain) : uncolored colored = plain := by
  have erased := colors.erased []
  rw [erase, List.append_nil, List.append_nil] at erased
  rw [uncolored, erased, String.ofList_toList]

theorem append {colored plain more bare : String} (colors : Colors colored plain) (others : Colors more bare) :
    Colors (colored ++ more) (plain ++ bare) where
  clean := by
    rw [String.toList_append, List.mem_append, not_or]
    exact ⟨colors.clean, others.clean⟩
  erased rest := by
    rw [String.toList_append, String.toList_append, List.append_assoc, colors.erased, others.erased,
      List.append_assoc]

theorem join {colored plain : List String} (each : List.Forall₂ Colors colored plain) :
    Colors (String.join colored) (String.join plain) := by
  induction each with
  | nil => exact self (by decide)
  | cons first _ ih =>
      rw [String.join_cons, String.join_cons]
      exact first.append ih

theorem intercalate {colored plain : List String} (each : List.Forall₂ Colors colored plain) :
    Colors ("\n".intercalate colored) ("\n".intercalate plain) := by
  induction each with
  | nil => exact self (by decide)
  | cons first rest ih =>
      cases rest with
      | nil =>
          rw [String.intercalate_singleton, String.intercalate_singleton]
          exact first
      | cons second others =>
          rw [String.intercalate_cons_of_ne_nil (List.cons_ne_nil _ _),
            String.intercalate_cons_of_ne_nil (List.cons_ne_nil _ _)]
          exact (first.append (self (by decide))).append ih

theorem lines {colored plain : List String} (each : List.Forall₂ Colors colored plain) :
    Colors (String.join (colored.map (·.push '\n'))) (String.join (plain.map (·.push '\n'))) := by
  apply join
  rw [List.forall₂_map_left_iff, List.forall₂_map_right_iff]
  refine each.imp fun colored plain colors => ?_
  rw [String.push_eq_append, String.push_eq_append]
  exact colors.append (self (by decide))

theorem painted (codes : List String) (known : ∀ code ∈ codes, IsCode code) {text : String}
    (clean : '\x1b' ∉ text.toList) : Colors (paint true codes text) (paint false codes text) := by
  refine ⟨clean, fun rest => ?_⟩
  cases codes with
  | nil => exact erase_plain clean rest
  | cons code codes =>
      show erase ((String.join (code :: codes) ++ text ++ reset).toList ++ rest) = text.toList ++ erase rest
      rw [String.toList_append, String.toList_append, List.append_assoc, List.append_assoc, erase_codes known,
        erase_plain clean, IsCode.erase_append (by decide)]

end Colors

end Style

open Style (Colors)

theorem not_mem_toString {char : Char} (nonDigit : char.isDigit = false) (nonSign : char ≠ '-') (value : Int) :
    char ∉ (toString value).toList := by
  have inside (number : Nat) : char ∉ number.repr.toList := by
    intro member
    rw [Nat.toList_repr] at member
    rw [Nat.isDigit_of_mem_toDigits (by decide) (by decide) member] at nonDigit
    cases nonDigit
  rw [Int.toString_eq_repr, Int.repr_eq_if]
  split
  · exact inside _
  · rw [String.toList_append, List.mem_append, not_or]
    exact ⟨fun sign => nonSign (List.mem_singleton.mp sign), inside _⟩

theorem clean_toString (value : Int) : '\x1b' ∉ (toString value).toList :=
  not_mem_toString (by decide) (by decide) value

theorem Severity.isCode_color (severity : Severity) : Style.IsCode severity.color := by
  cases severity <;> decide

theorem printValue_colors (value : Int) (severity : Option Severity) :
    Colors (printValue true value severity) (printValue false value severity) := by
  cases severity with
  | none => exact .self (clean_toString value)
  | some severity =>
      refine .painted _ ?_ (clean_toString value)
      intro code member
      rw [List.mem_singleton.mp member]
      exact severity.isCode_color

theorem printHeading_colors {name : String} (clean : '\x1b' ∉ name.toList) (line : Int) :
    Colors (printHeading true name line) (printHeading false name line) :=
  ((Colors.painted _ (by decide) clean).append (.self (by decide))).append (.self (clean_toString line))

/-- What stands between a metric and what is printed before it. -/
def Metric.lead : Metric → String
  | .length | .halstead | .conditions => "\t"
  | _ => "\n"

namespace Evaluation

/-- A metric in its place in a block. -/
def cell (color : Bool) (evaluation : Evaluation) (metric : Metric) : String :=
  metric.lead ++ evaluation.printMetric color metric

theorem print_eq (color : Bool) (evaluation : Evaluation) :
    evaluation.print color = printHeading color evaluation.record.functionName evaluation.record.startLine ++
      String.join (Metric.all.map (evaluation.cell color)) ++ "\n" := by
  unfold print
  simp only [Metric.all, cell, Metric.lead, List.map_cons, List.map_nil, String.join_cons, String.join_nil,
    String.append_empty, String.append_assoc]

theorem cell_colors (evaluation : Evaluation) (metric : Metric) :
    Colors (evaluation.cell true metric) (evaluation.cell false metric) := by
  have lead : '\x1b' ∉ metric.lead.toList := by cases metric <;> decide
  have label : '\x1b' ∉ metric.label.toList := by cases metric <;> decide
  have value := printValue_colors (evaluation.record.value metric) (evaluation.severity metric)
  exact (Colors.self lead).append (((Colors.self label).append (.self (by decide))).append value)

theorem print_colors (evaluation : Evaluation) (clean : '\x1b' ∉ evaluation.record.functionName.toList) :
    Colors (evaluation.print true) (evaluation.print false) := by
  rw [print_eq, print_eq]
  refine ((printHeading_colors clean _).append (.join ?_)).append (.self (by decide))
  rw [List.forall₂_map_left_iff, List.forall₂_map_right_iff, List.forall₂_same]
  exact fun metric _ => evaluation.cell_colors metric

end Evaluation

/-- A counter of a file, painted as all of them are. -/
theorem counter_colors (title : String) (clean : '\x1b' ∉ title.toList) (count : Int) :
    let counter := fun color => paint color [Style.magenta, Style.underline] (title ++ toString count)
    Colors (counter true) (counter false) := by
  refine .painted _ (by decide) ?_
  rw [String.toList_append, List.mem_append, not_or]
  exact ⟨clean, clean_toString count⟩

theorem FileRecord.print_colors (record : FileRecord) (clean : '\x1b' ∉ record.fileName.toList) :
    Colors (record.print true) (record.print false) := by
  have feed : Colors "\n" "\n" := .self (by decide)
  have name := Colors.painted [Style.onMagenta] (by decide) clean
  have packages := counter_colors "Packages: " (by decide) record.imports
  have strings := counter_colors "Strings " (by decide) record.strings
  exact ((((name.append feed).append packages).append feed).append strings).append feed

theorem printNoFunctions_colors : Colors (printNoFunctions true) (printNoFunctions false) :=
  (Colors.painted _ (by decide) (by decide)).append (.self (by decide))

namespace Violation

/-- None of the names of a violation has an escape character. -/
def IsClean (violation : Violation) : Prop :=
  '\x1b' ∉ violation.functionName.toList ∧ '\x1b' ∉ violation.fileName.toList

theorem IsClean.print_colors {violation : Violation} (clean : violation.IsClean) {colored plain : String}
    (printed : violation.print true = .ok colored) (unpainted : violation.print false = .ok plain) :
    Colors colored plain := by
  unfold Violation.print at printed unpainted
  cases known : Metric.ofName? violation.metric with
  | none =>
      rw [known] at printed
      cases printed
  | some metric =>
      rw [known] at printed unpainted
      cases printed
      cases unpainted
      have located : Colors " in " " in " := .self (by decide)
      have file : Colors violation.fileName violation.fileName := .self clean.2
      have feed : Colors "\n" "\n" := .self (by decide)
      have heading := ((printHeading_colors clean.1 violation.startLine).append located).append file
      have label : Colors metric.label metric.label := .self (by cases metric <;> decide)
      have value := printValue_colors violation.value violation.severity
      exact ((((heading.append feed).append label).append (.self (by decide))).append value).append feed

end Violation

theorem printViolations_cons {color : Bool} {first : Violation} {rest : List Violation} {closing : String}
    (printed : printViolations color (first :: rest) = .ok closing) :
    ∃ blocks, (first :: rest).mapM (Violation.print color) = .ok blocks ∧
      closing = "\n".intercalate (paint color [Style.onRed, Style.bold] "VIOLATIONS" :: blocks) := by
  unfold printViolations at printed
  cases total : (first :: rest).mapM (Violation.print color) with
  | error unknown =>
      simp only [total] at printed
      cases printed
  | ok blocks =>
      simp only [total] at printed
      cases printed
      exact ⟨blocks, rfl, rfl⟩

theorem printViolations_colors {violations : List Violation} (clean : ∀ violation ∈ violations, violation.IsClean)
    {colored plain : String} (printed : printViolations true violations = .ok colored)
    (unpainted : printViolations false violations = .ok plain) : Colors colored plain := by
  cases violations with
  | nil =>
      cases printed
      cases unpainted
      exact .painted _ (by decide) (by decide)
  | cons first rest =>
      obtain ⟨blocks, painted, rfl⟩ := printViolations_cons printed
      obtain ⟨bare, plainly, rfl⟩ := printViolations_cons unpainted
      refine .intercalate (.cons (.painted _ (by decide) (by decide)) ?_)
      have paired := forall₂_join (forall₂_mem (forall₂_of_mapM painted)).flip (forall₂_of_mapM plainly).flip
      refine paired.imp ?_
      rintro block plain ⟨violation, ⟨member, _, colors⟩, uncolors⟩
      exact (clean violation member).print_colors colors uncolors

namespace FileReport

/-- No name in the report of a file has an escape character. -/
def IsClean (report : FileReport) : Prop :=
  '\x1b' ∉ report.file.fileName.toList ∧ ∀ evaluation ∈ report.functions,
    '\x1b' ∉ evaluation.record.functionName.toList ∧ '\x1b' ∉ evaluation.record.fileName.toList

theorem IsClean.blocks_colors {report : FileReport} (clean : report.IsClean) :
    List.Forall₂ Colors (report.blocks true) (report.blocks false) := by
  refine .cons (report.file.print_colors clean.1) ?_
  split
  · rw [List.forall₂_map_left_iff, List.forall₂_map_right_iff, List.forall₂_same]
    intro evaluation member
    exact evaluation.print_colors (clean.2 evaluation member).1
  · exact .cons printNoFunctions_colors .nil

theorem IsClean.violations {report : FileReport} (clean : report.IsClean) (rated : report.IsRated) :
    ∀ violation ∈ report.violations, violation.IsClean := by
  intro violation member
  obtain ⟨evaluation, listed, found⟩ := List.mem_flatMap.mp member
  have names := clean.2 evaluation listed
  rw [rated evaluation listed] at found
  obtain ⟨metric, _, _, _, rfl⟩ := FunctionRecord.mem_violations.mp found
  exact names

end FileReport

namespace Report

/-- Colour is decoration only. A report of rated functions can be printed with colour and without; where no
name brings an escape character, the one text with its codes erased is the other, which has none. -/
theorem print_uncolored (files : List FileReport) (rated : ∀ file ∈ files, file.IsRated)
    (clean : ∀ file ∈ files, file.IsClean) :
    ∃ colored plain, (ofFiles files).print true = .ok colored ∧ (ofFiles files).print false = .ok plain ∧
      Style.uncolored colored = plain ∧ '\x1b' ∉ plain.toList := by
  obtain ⟨closing, closes, painted⟩ := print_blocks rated true
  obtain ⟨bare, closesPlainly, unpainted⟩ := print_blocks rated false
  have cleanViolations : ∀ violation ∈ files.flatMap FileReport.violations, violation.IsClean := by
    intro violation member
    obtain ⟨file, listed, found⟩ := List.mem_flatMap.mp member
    exact (clean file listed).violations (rated file listed) violation found
  have blocks : List.Forall₂ Colors (files.flatMap (FileReport.blocks true))
      (files.flatMap (FileReport.blocks false)) := by
    refine List.rel_flatMap (forall₂_mem (List.forall₂_same.mpr fun file _ => Eq.refl file)) ?_
    rintro file _ ⟨member, _, rfl⟩
    exact (clean file member).blocks_colors
  have last := printViolations_colors cleanViolations closes closesPlainly
  have colors := Colors.lines (List.rel_append blocks (.cons last .nil))
  exact ⟨_, _, painted, unpainted, colors.uncolored_eq, colors.clean⟩

/-- Names made of what codes are made of. -/
def bracketed : FileReport where
  file := { fileName := "[31m.js", strings := -2 }
  functions := [FunctionRecord.evaluate
    { fileName := "[31m.js", functionName := "m\n[0m", length := 101, halstead := 4 }]

theorem bracketed_uncolored :
    bracketed.IsRated ∧ bracketed.IsClean ∧ ∃ colored plain, (ofFiles [bracketed]).print true = .ok colored ∧
      (ofFiles [bracketed]).print false = .ok plain ∧ Style.uncolored colored = plain ∧ '\x1b' ∉ plain.toList := by
  have rated : bracketed.IsRated := by
    intro evaluation member
    rw [List.mem_singleton.mp member]
    rfl
  have clean : bracketed.IsClean := by
    refine ⟨by decide, fun evaluation member => ?_⟩
    rw [List.mem_singleton.mp member]
    exact ⟨by decide, by decide⟩
  refine ⟨rated, clean, print_uncolored [bracketed] ?_ ?_⟩
  · exact List.forall_mem_singleton.mpr rated
  · exact List.forall_mem_singleton.mpr clean

end Report

end ScriptMetrics
