import ScriptMetrics.Analysis.Workbench
import ScriptMetrics.Script.Statement

/-!
The grammar of scripts. The rules refer to each other through the goals they pursue; here they are
tied together. Every goal within a goal takes something or is a different one, so a bound on the
number of goals within each other that grows with the length of the script is never reached.

A script that does not read to its end gets a tree without parts and is marked as having errors.
-/

namespace ScriptMetrics.Script

def rule (rules : Rules) : Goal → Reading Cst
  | .statement => statement rules
  | .sequence => sequence rules
  | .assignment => assignment rules
  | .unary => unary rules
  | .pattern => binding rules

/-- Pursues a goal with at most so many goals within each other. -/
def pursue : Nat → Rules
  | 0 => fun _ => failure
  | depth + 1 => rule (pursue depth)

def depth (cursor : Cursor) : Nat :=
  8 * cursor.left + 8

def program : Reading Cst := do
  let start ← get
  let statements ← many (pursue (depth start) .statement)
  let stop ← mark
  if stop.rest.isEmpty then
    return tree "program" start stop statements
  else
    failure

def parse (text : String) : Parsed :=
  let start := Cursor.ofText text
  match program start with
  | some (found, _) => { tree := found }
  | none => { tree := tree "program" start start [], hasErrors := true }

/-- The grammar of scripts, which does not care what came before. -/
def grammar : Grammar := fun _ text => parse text

end ScriptMetrics.Script
