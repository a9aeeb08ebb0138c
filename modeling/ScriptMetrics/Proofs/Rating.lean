import ScriptMetrics.Proofs.Limits
import ScriptMetrics.Report.Ledger

/-!
Ratings. Of the bands of a metric the one with the greatest cutoff that a value reaches decides, and of
equal cutoffs the first listed: the order of the bands shows in nothing else, and where the severities
rise with the cutoffs they rise with the values. The limits lie on the highest cutoffs, so whatever goes
beyond one is of high severity.
-/

namespace ScriptMetrics

namespace Bands

/-- The band that decides a value. It is reached, and so is no band with a greater cutoff, and none
listed before it with the same. -/
def Decides (row : List Band) (value : Int) (band : Band) : Prop :=
  ∃ before after, row = before ++ band :: after ∧ band.cutoff ≤ value ∧
    (∀ other ∈ before, other.cutoff ≤ value → other.cutoff < band.cutoff) ∧
    ∀ other ∈ after, other.cutoff ≤ value → other.cutoff ≤ band.cutoff

/-- A greater cutoff never has a lower severity. -/
def Rising (row : List Band) : Prop :=
  ∀ low ∈ row, ∀ high ∈ row, low.cutoff < high.cutoff → low.severity.rank ≤ high.severity.rank

/-- The bands by falling cutoffs, those with the same cutoff as listed. -/
def falling (row : List Band) : List Band :=
  row.mergeSort fun a b => b.cutoff ≤ a.cutoff

/-- The first band by falling cutoffs that a value reaches. -/
def deciding? (row : List Band) (value : Int) : Option Band :=
  (falling row).find? fun band => band.cutoff ≤ value

theorem falls_trans (a b c : Band) (first : decide (b.cutoff ≤ a.cutoff) = true)
    (second : decide (c.cutoff ≤ b.cutoff) = true) : decide (c.cutoff ≤ a.cutoff) = true := by
  rw [decide_eq_true_eq] at *
  exact second.trans first

theorem falls_total (a b : Band) : (decide (b.cutoff ≤ a.cutoff) || decide (a.cutoff ≤ b.cutoff)) = true := by
  rw [Bool.or_eq_true, decide_eq_true_eq, decide_eq_true_eq]
  exact le_total b.cutoff a.cutoff

theorem falling_sorted (row : List Band) : (falling row).Pairwise fun a b => b.cutoff ≤ a.cutoff := by
  have sorted := List.pairwise_mergeSort falls_trans falls_total row
  simpa only [falling, decide_eq_true_eq] using sorted

-- A band that is listed first comes behind greater cutoffs only.
theorem falling_cons (first : Band) (row : List Band) :
    ∃ above below, falling (first :: row) = above ++ first :: below ∧ falling row = above ++ below ∧
      ∀ other ∈ above, first.cutoff < other.cutoff := by
  obtain ⟨above, below, sorted, rest, greater⟩ := List.mergeSort_cons falls_trans falls_total first row
  refine ⟨above, below, sorted, rest, ?_⟩
  intro other member
  simpa using greater other member

theorem deciding?_eq_none_iff (row : List Band) (value : Int) :
    deciding? row value = none ↔ ∀ band ∈ row, value < band.cutoff := by
  simp [deciding?, falling]

theorem deciding?_cons_first {first : Band} {row : List Band} {value : Int} (reached : first.cutoff ≤ value)
    (greatest : ∀ other ∈ row, other.cutoff ≤ value → other.cutoff ≤ first.cutoff) :
    deciding? (first :: row) value = some first := by
  obtain ⟨above, below, sorted, rest, greater⟩ := falling_cons first row
  have unreached : above.find? (fun band => band.cutoff ≤ value) = none := by
    simp only [List.find?_eq_none, decide_eq_true_eq]
    intro other member reaches
    have listed : other ∈ row := by
      have kept : other ∈ falling row := rest ▸ List.mem_append_left below member
      simpa [falling] using kept
    exact absurd (greatest other listed reaches) (Int.not_le.mpr (greater other member))
  simp [deciding?, sorted, List.find?_append, unreached, reached]

theorem deciding?_cons_other {first other : Band} {row : List Band} {value : Int}
    (found : deciding? row value = some other) (less : first.cutoff ≤ value → first.cutoff < other.cutoff) :
    deciding? (first :: row) value = some other := by
  obtain ⟨above, below, sorted, rest, _⟩ := falling_cons first row
  rw [deciding?, rest, List.find?_append] at found
  rw [deciding?, sorted, List.find?_append, List.find?_cons]
  cases ahead : above.find? (fun band => band.cutoff ≤ value) with
  | some band => simpa [ahead] using found
  | none =>
      rw [ahead, Option.none_or] at found
      -- What is found behind the first band has no greater cutoff, so the first is not reached.
      have ordered := falling_sorted (first :: row)
      rw [sorted, List.pairwise_append, List.pairwise_cons] at ordered
      have behind : other.cutoff ≤ first.cutoff := ordered.2.1.1 other (List.mem_of_find?_eq_some found)
      have unreached : ¬ first.cutoff ≤ value := fun reached => absurd (less reached) (Int.not_lt.mpr behind)
      simpa [unreached] using found

namespace Decides

variable {row : List Band} {value : Int} {band : Band}

theorem mem (decides : Decides row value band) : band ∈ row := by
  obtain ⟨before, after, rfl, _⟩ := decides
  exact List.mem_append_right before List.mem_cons_self

theorem reached (decides : Decides row value band) : band.cutoff ≤ value := by
  obtain ⟨_, _, _, reached, _⟩ := decides
  exact reached

theorem greatest (decides : Decides row value band) :
    ∀ other ∈ row, other.cutoff ≤ value → other.cutoff ≤ band.cutoff := by
  obtain ⟨before, after, rfl, _, less, atMost⟩ := decides
  intro other member reaches
  rcases List.mem_append.mp member with earlier | later
  · exact (less other earlier reaches).le
  · rcases List.mem_cons.mp later with rfl | behind
    · exact le_rfl
    · exact atMost other behind reaches

theorem first {first : Band} (reached : first.cutoff ≤ value)
    (greatest : ∀ other ∈ row, other.cutoff ≤ value → other.cutoff ≤ first.cutoff) :
    Decides (first :: row) value first :=
  ⟨[], row, rfl, reached, by simp, greatest⟩

theorem cons (decides : Decides row value band) {first : Band}
    (less : first.cutoff ≤ value → first.cutoff < band.cutoff) : Decides (first :: row) value band := by
  obtain ⟨before, after, rfl, reached, smaller, atMost⟩ := decides
  refine ⟨first :: before, after, rfl, reached, ?_, atMost⟩
  intro other member
  rcases List.mem_cons.mp member with rfl | earlier
  · exact less
  · exact smaller other earlier

theorem deciding?_eq (decides : Decides row value band) : deciding? row value = some band := by
  obtain ⟨before, after, rfl, reached, smaller, atMost⟩ := decides
  induction before with
  | nil => exact deciding?_cons_first reached atMost
  | cons first before ih =>
      have found := ih fun other member => smaller other (List.mem_cons_of_mem first member)
      exact deciding?_cons_other found (smaller first List.mem_cons_self)

theorem unique (decides : Decides row value band) {other : Band} (likewise : Decides row value other) :
    band = other := by
  rw [← Option.some.injEq, ← decides.deciding?_eq, likewise.deciding?_eq]

/-- A band that decides a value decides every smaller one that reaches it. -/
theorem smaller (decides : Decides row value band) {less : Int} (le : less ≤ value)
    (reached : band.cutoff ≤ less) : Decides row less band := by
  obtain ⟨before, after, listed, _, smaller, atMost⟩ := decides
  refine ⟨before, after, listed, reached, ?_, ?_⟩
  · intro other member reaches
    exact smaller other member (reaches.trans le)
  · intro other member reaches
    exact atMost other member (reaches.trans le)

theorem perm (decides : Decides row value band) {shuffled : List Band} (order : shuffled.Perm row)
    (distinct : (row.map Band.cutoff).Nodup) : Decides shuffled value band := by
  obtain ⟨before, after, rfl⟩ := List.append_of_mem (order.mem_iff.mpr decides.mem)
  have atMost : ∀ other ∈ before ++ band :: after, other.cutoff ≤ value → other.cutoff ≤ band.cutoff :=
    fun other member => decides.greatest other (order.mem_iff.mp member)
  refine ⟨before, after, rfl, decides.reached, ?_, ?_⟩
  · intro other member reaches
    have apart : other.cutoff ≠ band.cutoff := by
      have separate := (order.map Band.cutoff).nodup_iff.mpr distinct
      rw [List.map_append, List.map_cons, List.nodup_append] at separate
      exact separate.2.2 _ (List.mem_map_of_mem member) _ List.mem_cons_self
    exact lt_of_le_of_ne (atMost other (List.mem_append_left _ member) reaches) apart
  · intro other member
    exact atMost other (List.mem_append_right before (List.mem_cons_of_mem band member))

end Decides

theorem exists_decides (row : List Band) (value : Int) :
    (∃ band, Decides row value band) ∨ ∀ band ∈ row, value < band.cutoff := by
  induction row with
  | nil => exact .inr (by simp)
  | cons first row ih =>
      rcases ih with ⟨band, decides⟩ | unreached
      · left
        by_cases wins : first.cutoff ≤ value ∧ band.cutoff ≤ first.cutoff
        · refine ⟨first, .first wins.1 ?_⟩
          intro other member reaches
          exact (decides.greatest other member reaches).trans wins.2
        · refine ⟨band, decides.cons fun reaches => ?_⟩
          exact Int.not_le.mp fun least => wins ⟨reaches, least⟩
      · by_cases reaches : first.cutoff ≤ value
        · left
          refine ⟨first, .first reaches ?_⟩
          intro other member reached
          exact absurd reached (Int.not_le.mpr (unreached other member))
        · right
          intro band member
          rcases List.mem_cons.mp member with rfl | later
          · exact Int.not_le.mp reaches
          · exact unreached band later

theorem severity?_eq_none_iff (bands : Bands) (metric : String) (value : Int) :
    bands.severity? metric value = none ↔ ∀ entry ∈ bands, entry.1 ≠ metric := by
  rw [severity?, Option.map_eq_none_iff, List.lookup_eq_none_iff]
  simp only [bne_iff_ne]
  exact forall₂_congr fun entry _ => ne_comm

variable {bands : Bands} {metric : String} {row : List Band} (listed : bands.lookup metric = some row)

include listed

theorem severity?_of_row (value : Int) :
    bands.severity? metric value = some (((deciding? row value).map Band.severity).getD .low) := by
  rw [severity?, listed]
  rfl

theorem severity?_decided {value : Int} {band : Band} (decides : Decides row value band) :
    bands.severity? metric value = some band.severity := by
  rw [severity?_of_row listed, decides.deciding?_eq]
  rfl

theorem severity?_unreached {value : Int} (unreached : ∀ band ∈ row, value < band.cutoff) :
    bands.severity? metric value = some .low := by
  rw [severity?_of_row listed, (deciding?_eq_none_iff row value).mpr unreached]
  rfl

theorem severity?_perm {others : Bands} {shuffled : List Band} (relisted : others.lookup metric = some shuffled)
    (order : shuffled.Perm row) (distinct : (row.map Band.cutoff).Nodup) (value : Int) :
    others.severity? metric value = bands.severity? metric value := by
  rcases exists_decides row value with ⟨band, decides⟩ | unreached
  · rw [severity?_decided listed decides, severity?_decided relisted (decides.perm order distinct)]
  · rw [severity?_unreached listed unreached]
    exact severity?_unreached relisted fun band member => unreached band (order.mem_iff.mp member)

theorem severity?_mono (rising : Rising row) {value greater : Int} (le : value ≤ greater) :
    ∃ lower higher, bands.severity? metric value = some lower ∧ bands.severity? metric greater = some higher ∧
      lower.rank ≤ higher.rank := by
  rcases exists_decides row value with ⟨low, decides⟩ | unreached
  · have reached : low.cutoff ≤ greater := decides.reached.trans le
    rcases exists_decides row greater with ⟨high, decidesGreater⟩ | none
    · refine ⟨_, _, severity?_decided listed decides, severity?_decided listed decidesGreater, ?_⟩
      rcases (decidesGreater.greatest low decides.mem reached).lt_or_eq with less | same
      · exact rising low decides.mem high decidesGreater.mem less
      · have both := decidesGreater.smaller le (same ▸ decides.reached)
        rw [decides.unique both]
    · exact absurd reached (Int.not_le.mpr (none low decides.mem))
  · exact ⟨_, _, severity?_unreached listed unreached, severity?_of_row listed greater, Nat.zero_le _⟩

omit listed

theorem standard_rising : ∀ entry ∈ standard, Rising entry.2 := by
  unfold Rising
  decide

/-- The severity of a value is that of the band it reaches with the greatest cutoff, the first listed of
equal ones, and low where it reaches none. So bands with different cutoffs may be listed in any order, and
severities that rise with the cutoffs rise with the values. -/
theorem severity_highest (bands : Bands) (metric : String) (value : Int) :
    (bands.severity? metric value = none ↔ ∀ entry ∈ bands, entry.1 ≠ metric) ∧
    (∀ row, bands.lookup metric = some row →
      ((∃ band, Decides row value band) ∨ ∀ band ∈ row, value < band.cutoff) ∧
      (∀ band, Decides row value band → bands.severity? metric value = some band.severity) ∧
      ((∀ band ∈ row, value < band.cutoff) → bands.severity? metric value = some .low) ∧
      (∀ (others : Bands) shuffled, others.lookup metric = some shuffled → shuffled.Perm row →
        (row.map Band.cutoff).Nodup → others.severity? metric value = bands.severity? metric value) ∧
      (Rising row → ∀ greater, value ≤ greater → ∃ lower higher,
        bands.severity? metric value = some lower ∧ bands.severity? metric greater = some higher ∧
        lower.rank ≤ higher.rank)) ∧
    ∀ entry ∈ standard, Rising entry.2 := by
  refine ⟨severity?_eq_none_iff bands metric value, ?_, standard_rising⟩
  intro row listed
  refine ⟨exists_decides row value, ?_, severity?_unreached listed, ?_, ?_⟩
  · intro band decides
    exact severity?_decided listed decides
  · intro others shuffled relisted order distinct
    exact severity?_perm listed relisted order distinct value
  · intro rising greater le
    exact severity?_mono listed rising le

/-- Unsorted bands, one cutoff listed twice. -/
def mixed : Bands := [("depth", [⟨2, .medium⟩, ⟨8, .high⟩, ⟨8, .low⟩, ⟨-3, .low⟩])]

/-- The bands of lengths, listed from below. -/
def upward : Bands := [("length", [⟨30, .medium⟩, ⟨100, .high⟩])]

theorem mixed_highest :
    mixed.severity? "depth" 9 = some .high ∧ mixed.severity? "depth" (-4) = some .low ∧
    mixed.severity? "width" 9 = none ∧ upward.severity? "length" 99 = standard.severity? "length" 99 ∧
    ∃ lower higher, standard.severity? "length" 29 = some lower ∧
      standard.severity? "length" 101 = some higher ∧ lower.rank ≤ higher.rank := by
  obtain ⟨_, reached, _⟩ := severity_highest mixed "depth" 9
  obtain ⟨_, unreached, _⟩ := severity_highest mixed "depth" (-4)
  obtain ⟨absent, _⟩ := severity_highest mixed "width" 9
  obtain ⟨_, reordered, rising⟩ := severity_highest standard "length" 99
  obtain ⟨_, raised, _⟩ := severity_highest standard "length" 29
  refine ⟨(reached _ rfl).2.1 ⟨8, .high⟩ ?_, (unreached _ rfl).2.2.1 (by decide), absent.mpr (by decide), ?_, ?_⟩
  · exact ⟨[⟨2, .medium⟩], [⟨8, .low⟩, ⟨-3, .low⟩], rfl, by decide, by decide, by decide⟩
  · exact (reordered _ rfl).2.2.2.1 upward _ rfl (List.Perm.swap _ _ _) (by decide)
  · exact (raised _ rfl).2.2.2.2 (rising (twoStep .length 100 30) (by decide)) 101 (by decide)

end Bands

/-- The limit of a metric is the cutoff from which on it is of high severity. -/
theorem lookup_limited {metric : Metric} {limit : Int} (listed : (metric, limit) ∈ limits) :
    ∃ medium ≤ limit, Bands.standard.lookup metric.name = some [⟨limit, .high⟩, ⟨medium, .medium⟩] := by
  simp only [limits, List.mem_cons, Prod.mk.injEq, List.not_mem_nil, or_false] at listed
  rcases listed with ⟨rfl, rfl⟩ | ⟨rfl, rfl⟩ | ⟨rfl, rfl⟩
  · exact ⟨30, by decide, rfl⟩
  · exact ⟨3, by decide, rfl⟩
  · exact ⟨5, by decide, rfl⟩

theorem Metric.name_inj {metric other : Metric} (same : metric.name = other.name) : metric = other := by
  rw [← Option.some.injEq, ← metric.ofName?_name, same, other.ofName?_name]

namespace FunctionRecord

theorem severity_beyond {record : FunctionRecord} {metric : Metric} {limit : Int}
    (listed : (metric, limit) ∈ limits) (beyond : limit < record.value metric) :
    record.severity metric = some .high := by
  obtain ⟨medium, atMost, banded⟩ := lookup_limited listed
  refine Bands.severity?_decided banded (.first beyond.le ?_)
  intro other member _
  rw [List.mem_singleton.mp member]
  exact atMost

theorem name_mem_violations {record : FunctionRecord} {metric : Metric} :
    metric.name ∈ record.violations.map Violation.metric ↔
      ∃ limit, (metric, limit) ∈ limits ∧ limit < record.value metric := by
  rw [List.mem_map]
  constructor
  · rintro ⟨violation, member, named⟩
    obtain ⟨violated, limit, listed, beyond, rfl⟩ := mem_violations.mp member
    obtain rfl := Metric.name_inj named
    exact ⟨limit, listed, beyond⟩
  · rintro ⟨limit, listed, beyond⟩
    exact ⟨record.violation metric, mem_violations.mpr ⟨metric, limit, listed, beyond, rfl⟩, rfl⟩

theorem violations_sublist (record : FunctionRecord) :
    (record.violations.map Violation.metric).Sublist ((limits.map Prod.fst).map Metric.name) := by
  unfold violations
  rw [List.map_map]
  exact List.filter_sublist.map Metric.name

/-- The violations of a function name just the metrics that go beyond their limits, in the order of the
limits. Each has the data of its function, and the severity that is shown for its metric, which is high. -/
theorem evaluate_violations (record : FunctionRecord) :
    let evaluation := record.evaluate
    let named := evaluation.violations.map Violation.metric
    named.Sublist ["length", "max_nesting_depth", "max_message_chains"] ∧
    (∀ metric : Metric, metric.name ∈ named ↔ ∃ limit,
      (metric, limit) ∈ [(Metric.length, (100 : Int)), (.nesting, 5), (.chains, 10)] ∧ limit < record.value metric) ∧
    (∀ violation ∈ evaluation.violations, ∃ metric : Metric, violation.metric = metric.name ∧
      violation.functionName = record.functionName ∧ violation.fileName = record.fileName ∧
      violation.startLine = record.startLine ∧ violation.value = record.value metric ∧
      violation.severity = evaluation.severity metric ∧ violation.severity = some .high) ∧
    ∀ metric : Metric, evaluation.severity metric ≠ some .high → metric.name ∉ named := by
  refine ⟨?_, ?_, ?_, ?_⟩
  · exact record.violations_sublist
  · intro metric
    exact name_mem_violations
  · intro violation member
    obtain ⟨metric, limit, listed, beyond, rfl⟩ := mem_violations.mp member
    have high := severity_beyond listed beyond
    refine ⟨metric, rfl, rfl, rfl, rfl, rfl, ?_, ?_⟩
    · exact congrArg (fun severity => some (severity.getD .low)) high |>.trans high.symm
    · exact congrArg (fun severity => some (severity.getD .low)) high
  · intro metric lower named
    obtain ⟨limit, listed, beyond⟩ := name_mem_violations.mp named
    exact lower (severity_beyond listed beyond)

/-- Beyond two limits, and on the third. -/
def sprawling : FunctionRecord where
  fileName := "wide.js"
  functionName := "sprawl"
  startLine := 7
  length := 101
  nesting := 5
  chains := 11

theorem sprawling_violations :
    let named := sprawling.evaluate.violations.map Violation.metric
    "max_message_chains" ∈ named ∧ "max_nesting_depth" ∉ named ∧ "halstead" ∉ named ∧
    sprawling.violation .length ∈ sprawling.evaluate.violations ∧
    (sprawling.violation .length).severity = some .high := by
  obtain ⟨_, beyond, high, below⟩ := evaluate_violations sprawling
  have long : sprawling.violation .length ∈ sprawling.evaluate.violations :=
    mem_violations.mpr ⟨.length, 100, by simp [limits], by decide, rfl⟩
  refine ⟨(beyond .chains).mpr ⟨10, by decide, by decide⟩, ?_, below .halstead ?_, long, ?_⟩
  · intro named
    obtain ⟨limit, listed, less⟩ := (beyond .nesting).mp named
    obtain rfl : limit = 5 := by simpa using listed
    exact absurd less (by decide)
  · have plain : Bands.standard.severity? "halstead" 0 = some .low := Bands.severity?_unreached rfl (by decide)
    show Bands.standard.severity? "halstead" 0 ≠ some .high
    rw [plain]
    decide
  · obtain ⟨_, _, _, _, _, _, _, severe⟩ := high _ long
    exact severe

end FunctionRecord

/-- The sheet that holds a violation. -/
def Violation.sheet (violation : Violation) : Sheet where
  kind := .violation
  cells := [
    ("function_name", .atom (.text violation.functionName)), ("file_name", .atom (.text violation.fileName)),
    ("start_line", .atom (.number violation.startLine)), ("metric_name", .atom (.text violation.metric)),
    ("metric_value", .atom (.number violation.value)),
    ("severity", .atom (violation.severity.elim .null .level))]

namespace FunctionRecord

variable {record : FunctionRecord} {lists : Lists} {metric : Metric}

/-- The sheet that holds a function's record. -/
def sheet (record : FunctionRecord) : Sheet where
  kind := .function
  cells := [
    ("file_name", .atom (.text record.fileName)), ("function_name", .atom (.text record.functionName)),
    ("start_line", .atom (.number record.startLine)), ("parameter_count", .atom (.number record.parameters)),
    ("length", .atom (.number record.length)), ("cyclomatic_complexity", .atom (.number record.cyclomatic)),
    ("halstead", .atom (.number record.halstead)), ("max_nesting_depth", .atom (.number record.nesting)),
    ("max_conditions", .atom (.number record.conditions)),
    ("max_message_chains", .atom (.number record.chains))]
  closed := record.frozen

theorem get_sheet : record.sheet.get metric.name = .ok (.atom (.number (record.value metric))) := by
  cases metric <;> rfl

theorem metrics_sheet :
    record.sheet.metrics = .ok (Metric.all.map fun metric => (metric, .atom (.number (record.value metric)))) := by
  refine mapM_eq_map fun metric _ => ?_
  rw [get_sheet]
  rfl

theorem rate_sheet : Sheet.rate metric (.atom (.number (record.value metric))) = .ok (record.severity metric) := by
  unfold Sheet.rate severity Bands.severity?
  cases Bands.standard.lookup metric.name <;> rfl

theorem violation?_sheet :
    record.sheet.violation? lists metric =
      .ok (if exceedsLimit metric.name (record.value metric) then some (record.violation metric).sheet else none) := by
  unfold Sheet.violation?
  rw [get_sheet]
  show (if exceedsLimit metric.name (record.value metric) then _ else _) = _
  split <;> rfl

theorem rates_sheet :
    (Metric.all.map fun metric => (metric, Cell.atom (.number (record.value metric)))).mapM
      (fun (metric, value) => return (metric, ← Sheet.rate metric (lists.read value))) =
        Except.ok (Metric.all.map fun metric => (metric, record.severity metric)) := by
  rw [List.mapM_map]
  refine mapM_eq_map fun metric _ => ?_
  show (Sheet.rate metric (.atom (.number (record.value metric))) >>= _) = _
  rw [rate_sheet]
  rfl

/-- A record that is spelled out on a sheet is rated as it is without. -/
theorem evaluate_sheet (record : FunctionRecord) (lists : Lists) :
    record.sheet.evaluate lists = .ok {
      sheet := record.sheet
      severities := Metric.all.map fun metric => (metric, record.severity metric)
      violations := record.violations.map Violation.sheet } := by
  have listed : (limits.map Prod.fst).mapM (record.sheet.violation? lists) = _ :=
    mapM_eq_map fun metric _ => violation?_sheet
  refine bind_eq_ok.mpr ⟨_, metrics_sheet, bind_eq_ok.mpr ⟨_, rates_sheet, bind_eq_ok.mpr ⟨_, listed, ?_⟩⟩⟩
  rw [reduceOption_ite, violations, List.map_map]
  rfl

end FunctionRecord

end ScriptMetrics
