import ScriptMetrics.Metrics.Record

/-!
Severities and the bands that assign them. A metric has a list of bands; the band with the
greatest cutoff that a value reaches decides.
-/

namespace ScriptMetrics

inductive Severity where
  | low
  | medium
  | high
deriving DecidableEq, Repr

namespace Severity

def name : Severity → String
  | low => "low"
  | medium => "medium"
  | high => "high"

def ofName? (name : String) : Option Severity :=
  [low, medium, high].find? (·.name == name)

def rank : Severity → Nat
  | low => 0
  | medium => 1
  | high => 2

end Severity

/-- Values from the cutoff on have this severity, unless a greater cutoff is reached too. -/
structure Band where
  cutoff : Int
  severity : Severity
deriving DecidableEq, Repr

abbrev Bands := List (String × List Band)

namespace Bands

/-- The severity of a value. Of equal cutoffs the first listed counts, a value below all cutoffs is
low, and a metric without bands has no severity. -/
def severity? (bands : Bands) (metric : String) (value : Int) : Option Severity :=
  (bands.lookup metric).map fun row =>
    let falling := row.mergeSort fun a b => b.cutoff ≤ a.cutoff
    ((falling.find? fun band => band.cutoff ≤ value).map Band.severity).getD .low

/-- High from one cutoff on and medium from a smaller one. -/
def twoStep (metric : Metric) (high medium : Int) : String × List Band :=
  (metric.name, [⟨high, .high⟩, ⟨medium, .medium⟩])

def standard : Bands := [
  twoStep .cyclomatic 10 4,
  twoStep .halstead 10 3,
  twoStep .parameters 10 3,
  twoStep .length 100 30,
  twoStep .nesting 5 3,
  twoStep .chains 10 5]

end Bands

end ScriptMetrics
