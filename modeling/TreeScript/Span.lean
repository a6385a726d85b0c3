/-
Places in the text that a program was written in: a location has a line and a column, counted
from 1, and a span reaches from one location to another. A place has a text unless one of its
numbers has too many digits to be written.
-/
import TreeScript.Text.Decimal

namespace TreeScript

/-- A line and a column, how many characters come before, and the file. -/
structure Location where
  line : Int
  column : Int
  offset : Int
  filename : Option String
deriving DecidableEq

namespace Location

def position (l : Location) : Option String := do
  return (← Text.ofInt? l.line) ++ ":" ++ (← Text.ofInt? l.column)

/-- What the name of a file, if there is one and it is not empty, puts before a position. -/
def fileMark (l : Location) : String :=
  match l.filename with
  | some f => if f.isEmpty then "" else f ++ ":"
  | none => ""

def text (l : Location) : Option String := l.position.map (l.fileMark ++ ·)

end Location

/-- A stretch of text from `start` to `stop`. -/
structure Span where
  start : Location
  stop : Location
deriving DecidableEq

namespace Span

/-- The span of one position. -/
def point (line column : Int) (filename : Option String) : Span :=
  ⟨⟨line, column, 0, filename⟩, ⟨line, column, 0, filename⟩⟩

/-- The span of nodes without a position. -/
def none : Span := point 0 0 Option.none

def text (s : Span) : Option String := do
  return s.start.fileMark ++ (← s.start.position) ++ "-" ++ (← s.stop.position)

end Span

end TreeScript
