/-
Why a document could not be decoded: its bytes are no text, the text breaks the rules of the
format, or a scalar has a value that its type does not admit. A few faults are not foreseen: whoever
meets one of them ends there and then, without a report. One is no fault of the document at all: a
text in it has half of a surrogate pair, which no text holds here, so that the document cannot be
followed further.
-/

namespace TreeScript

inductive Undecodable where
  | notText
  | notJson
  | notYaml
  | value (message : String)
  | emptyNumber
  | notTruthValue (text : String)
  | notTimestamp
  | nestedTimestamp
  | hugeCode
  | hugePlace
  | endless
  | halfPair
deriving DecidableEq

namespace Undecodable

def message : Undecodable → String
  | notText => "the bytes are not UTF-8 text"
  | notJson => "the text is not JSON"
  | notYaml => "the text is not YAML"
  | value message => message
  | emptyNumber => "a number has no digits"
  | notTruthValue text => s!"no truth value is called '{text}'"
  | notTimestamp => "a timestamp names no day"
  | nestedTimestamp => "a mapping is no timestamp"
  | hugeCode => "the code of a character is out of range"
  | hugePlace => "a number has too many places"
  | endless => "a text is contained in itself"
  | halfPair => "a text has half of a surrogate pair"

/-- Whether it is not known what becomes of the document. Its texts may be used like any others, but to write one
with half of a surrogate pair to the standard output fails. -/
def isUntold : Undecodable → Bool
  | halfPair => true
  | _ => false

/-- Whether the fault is reported by whoever asked for the document. -/
def isReported : Undecodable → Bool
  | notText => true
  | notJson => true
  | notYaml => true
  | value _ => true
  | _ => false

end Undecodable

end TreeScript
