/-
Output: a program emits records, each a text with a severity. `Console` says how records look on
a terminal.
-/
import TreeScript.Text.Blank
import TreeScript.Text.Quoted

namespace TreeScript

inductive Severity where
  | info | warn | error
deriving DecidableEq

namespace Severity

def name : Severity → String
  | .info => "info"
  | .warn => "warn"
  | .error => "error"

def ofName? (name : String) : Option Severity :=
  [info, warn, error].find? (·.name == Text.lower name)

/-- What is said of a name that no severity has. -/
def unknownMessage (name : String) : String := s!"Unknown severity: {Text.quoted name}"

end Severity

/-- One emitted text. -/
structure Record where
  severity : Severity
  text : String
deriving DecidableEq

def Record.line (r : Record) : String := s!"[{r.severity.name}] {r.text}"

/-- The records of one severity, in order. -/
def Record.withSeverity (severity : Severity) (records : List Record) : List Record :=
  records.filter (·.severity == severity)

/-! ## The console -/

namespace Console

def reset : String := "\x1b[0m"
def bold : String := "\x1b[1m"
def red : String := "\x1b[31m"
def yellow : String := "\x1b[33m"

/-- What is written to the standard output, or to the standard error output. -/
inductive Chunk where
  | out (text : String)
  | err (text : String)
deriving DecidableEq

def style : Severity → String
  | .info => ""
  | .warn => yellow
  | .error => bold ++ red

/-- A record as a line: information goes to the output, the rest in colors to the error output. -/
def chunk (color : Bool) (r : Record) : Chunk :=
  let style := if color then style r.severity else ""
  let line := (if style.isEmpty then r.text else style ++ r.text ++ reset) ++ "\n"
  match r.severity with
  | .info => .out line
  | _ => .err line

def stdout (chunks : List Chunk) : String :=
  String.join (chunks.filterMap fun | .out s => some s | .err _ => none)

def stderr (chunks : List Chunk) : String :=
  String.join (chunks.filterMap fun | .err s => some s | .out _ => none)

end Console

end TreeScript
