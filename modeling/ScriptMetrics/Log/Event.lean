import ScriptMetrics.Log.Value
import ScriptMetrics.Text.Capitals

/-!
Log events and their form as log lines.
-/

namespace ScriptMetrics

inductive Level where
  | debug
  | info
  | warning
  | error
  | critical
deriving DecidableEq, Repr

namespace Level

/-- Events are let through from the configured rank on. -/
def rank : Level → Nat
  | debug => 10
  | info => 20
  | warning => 30
  | error => 40
  | critical => 50

def name : Level → String
  | debug => "debug"
  | info => "info"
  | warning => "warning"
  | error => "error"
  | critical => "critical"

def ofName? (name : String) : Option Level :=
  [debug, info, warning, error, critical].find? (·.name == name)

def settings : List (String × Level) :=
  [("DEBUG", debug), ("INFO", info), ("WARNING", warning), ("ERROR", error)]

def setting (level : Level) : String :=
  Text.capitals level.name

/-- The level a configuration names, in whatever case. -/
def ofSetting? (name : String) : Option Level :=
  settings.lookup (Text.capitals name)

end Level

structure Event where
  component : String
  level : Level
  name : String
  fields : List (String × Value) := []

namespace Event

/-- The members of a log line. The event's own fields may replace the component, but not what
comes after them. -/
def members (event : Event) (timestamp : String) : List (String × Value) :=
  let start : List (String × Value) := [("component", .text event.component)]
  let filled := event.fields.foldl (fun members (name, value) => setMember members name value) start
  let named := setMember filled "event" (.text event.name)
  setMember (setMember named "level" (.text event.level.name)) "timestamp" (.text timestamp)

def line (event : Event) (timestamp : String) : String :=
  (Value.object (event.members timestamp)).json

end Event

end ScriptMetrics
