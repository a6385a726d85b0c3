/-
Built-in objects: a registry of methods that programs can call. Each method emits one record; the
methods of the console write their arguments with a fixed severity.
-/
import TreeScript.Output
import TreeScript.Value

namespace TreeScript.Builtin

/-- What a method emits. -/
inductive Action where
  /-- The rendered arguments, with blanks between them. -/
  | write (severity : Severity)
  /-- A fixed text. -/
  | announce (severity : Severity) (text : String)
deriving DecidableEq

/-- The record that an action emits for some arguments. -/
def Action.record (args : List Value) : Action → Record
  | write severity => ⟨severity, " ".intercalate (args.map Value.render)⟩
  | announce severity text => ⟨severity, text⟩

structure Method where
  object : String
  name : String
  action : Action
  description : String
deriving DecidableEq

/-- Methods by object and name, in the order of their registration. -/
structure Registry where
  methods : List Method

namespace Registry

def standard : Registry :=
  ⟨[⟨"console", "log", .write .info, "Print to standard output"⟩,
    ⟨"console", "info", .write .info, "Alias for console.log"⟩,
    ⟨"console", "warn", .write .warn, "Print a warning"⟩,
    ⟨"console", "error", .write .error, "Print an error"⟩]⟩

def hasObject (r : Registry) (object : String) : Bool := r.methods.any (·.object == object)

def method? (r : Registry) (object name : String) : Option Method :=
  r.methods.find? fun m => m.object == object && m.name == name

/-- Adds a method, in place of the one of the same object and name. -/
def register (r : Registry) (m : Method) : Registry :=
  ⟨r.methods.filter (fun old => !(old.object == m.object && old.name == m.name)) ++ [m]⟩

end Registry

end TreeScript.Builtin
