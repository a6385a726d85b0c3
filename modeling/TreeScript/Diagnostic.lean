/-
Diagnostics: messages about a program with a code, a place and hints. A collector gathers them
and says when enough errors have come.
-/
import TreeScript.Span

namespace TreeScript

structure Diagnostic where
  code : String
  message : String
  isError : Bool
  span : Option Span
  hints : List String
deriving DecidableEq

namespace Diagnostic

/-- The word for an error or a warning. -/
def severityName (isError : Bool) : String := if isError then "error" else "warning"

/-- Whether a word means an error; `none` if it means no warning either. -/
def isErrorOfName? : String → Option Bool
  | "error" => some true
  | "warning" => some false
  | _ => none

/-- The first line: the place, unless it has no line number, and then severity, code and message. There is none
if the place has no text. -/
def header (d : Diagnostic) : Option String :=
  let text := s!"{severityName d.isError}[{d.code}]: {d.message}"
  match d.span with
  | some span => if 0 < span.start.line then span.start.text.map fun place => s!"{place}: {text}" else some text
  | none => some text

/-- The header and a line for each hint. -/
def format (d : Diagnostic) : Option String :=
  d.header.map fun header => "\n".intercalate (header :: d.hints.map ("    = hint: " ++ ·))

end Diagnostic

/-- Diagnostics in the order they came, the limit on errors, and how many errors there are. -/
structure Collector where
  diagnostics : Array Diagnostic
  maxErrors : Int
  errorCount : Nat

namespace Collector

/-- The limit unless another one is asked for. -/
def defaultLimit : Int := 20

def empty (maxErrors : Int) : Collector := ⟨#[], maxErrors, 0⟩

def add (c : Collector) (d : Diagnostic) : Collector :=
  { c with
    diagnostics := c.diagnostics.push d
    errorCount := if d.isError then c.errorCount + 1 else c.errorCount }

def warningCount (c : Collector) : Nat := (c.diagnostics.toList.filter (!·.isError)).length

def hasErrors (c : Collector) : Bool := 0 < c.errorCount

def hasWarnings (c : Collector) : Bool := 0 < c.warningCount

def isFull (c : Collector) : Bool := c.maxErrors ≤ c.errorCount

end Collector

end TreeScript
