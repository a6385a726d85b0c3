/-
Doubles as numerals: digits with a point and an exponent, or a word for infinity or for NaN.
-/
import TreeScript.Double.Arithmetic
import TreeScript.Text.Numeral

namespace TreeScript.Double

/-- The exponent at the end of a numeral; nothing stands for zero. -/
def exponent? : List Char → Option Int
  | [] => some 0
  | e :: rest =>
    let (negative, digits) := Text.splitSign rest
    if e.toLower == 'e' then (Text.nat? 10 digits).map fun n => if negative then -(n : Int) else n else none

/-- The digits after a point, if there is one, and what follows them. -/
def splitFraction : List Char → List Char × List Char
  | '.' :: rest => (rest.takeWhile Char.isDigit, rest.dropWhile Char.isDigit)
  | cs => ([], cs)

/-- The double that a numeral without sign writes. -/
def unsigned? (cs : List Char) : Option Double :=
  let word := Text.lower (String.ofList cs)
  if word == "inf" || word == "infinity" then some (.infinite false)
  else if word == "nan" then some .nan
  else
    let whole := cs.takeWhile Char.isDigit
    let (places, rest) := splitFraction (cs.dropWhile Char.isDigit)
    if whole.isEmpty && places.isEmpty then none
    else (exponent? rest).map fun e => ofDecimal false (Text.natOfDigits 10 (whole ++ places)) (e - places.length)

/-- The double nearest to the number that a text writes, with white space around it. -/
def parse? (s : String) : Option Double :=
  let (negative, digits) := Text.splitSign (Text.numeral s)
  (unsigned? digits).map fun d => if negative then d.negate else d

end TreeScript.Double
