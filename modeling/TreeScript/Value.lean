/-
What programs compute with: integers of any size, texts and truth values.
-/
import TreeScript.Integer.Basic
import TreeScript.Text.Quoted

namespace TreeScript

/-- A value of one of three kinds. -/
inductive Value where
  | integer (value : Integer)
  | text (value : String)
  | boolean (value : Bool)
deriving DecidableEq

namespace Value

inductive Kind where
  | integer | text | boolean
deriving DecidableEq

def Kind.name : Kind → String
  | .integer => "integer"
  | .text => "text"
  | .boolean => "boolean"

instance : ToString Kind := ⟨Kind.name⟩

def kind : Value → Kind
  | .integer _ => .integer
  | .text _ => .text
  | .boolean _ => .boolean

/-- How a value is printed: digits, the text itself, or true and false. -/
def render : Value → String
  | .integer n => n.toDecimal
  | .text s => s
  | .boolean b => if b then "true" else "false"

/-- A value with its kind, for messages. -/
def describe (v : Value) : String := s!"Value({Text.quoted v.render}, {v.kind})"

end Value

end TreeScript
