/-
Numerals: whole numbers written in digits of some base. Decimal digits of any script will do, and
white space may stand around the numeral.
-/
import TreeScript.Text.Blank
import TreeScript.Text.Digit

namespace TreeScript.Text

/-- The value of a digit; the letters of either case go on from ten. -/
def digitValue (c : Char) : Nat :=
  if c.isDigit then c.toNat - '0'.toNat
  else if 'a' ≤ c ∧ c ≤ 'z' then c.toNat - 'a'.toNat + 10
  else c.toNat - 'A'.toNat + 10

def isDigitOf (base : Nat) (c : Char) : Bool := c.isAlphanum && digitValue c < base

/-- The number that digits write, highest first. -/
def natOfDigits (base : Nat) (digits : List Char) : Nat :=
  digits.foldl (fun n c => base * n + digitValue c) 0

/-- The number that at least one digit and nothing else writes. -/
def nat? (base : Nat) (cs : List Char) : Option Nat :=
  if !cs.isEmpty && cs.all (isDigitOf base) then some (natOfDigits base cs) else none

/-- Whether a minus sign stands in front, and what follows the sign, if there is one. -/
def splitSign : List Char → Bool × List Char
  | '-' :: rest => (true, rest)
  | '+' :: rest => (false, rest)
  | cs => (false, cs)

/-- The letter that announces a base after a zero. -/
def baseLetter? : Nat → Option Char
  | 2 => some 'b'
  | 8 => some 'o'
  | 16 => some 'x'
  | _ => none

/-- Drops the zero and the letter that announce a base. -/
def dropBase (base : Nat) : List Char → List Char
  | '0' :: letter :: rest => if some letter.toLower == baseLetter? base then rest else '0' :: letter :: rest
  | cs => cs

def isSpace (c : Char) : Bool := c == ' ' || (9 ≤ c.toNat && c.toNat ≤ 13)

/-- A character of a numeral in ASCII: a digit of any script becomes the plain one, and a blank beyond ASCII
becomes a space. -/
def plainCharacter (c : Char) : Char :=
  if c.toNat < 0x7f then c
  else if isBlank c then ' '
  else ((decimalDigit? c).map Nat.digitChar).getD c

/-- The characters of a numeral without the white space at both ends. -/
def numeral (s : String) : List Char :=
  let cs := (s.toList.map plainCharacter).dropWhile isSpace
  (cs.reverse.dropWhile isSpace).reverse

/-- The integer that a text writes in a base, with white space around it, a sign, and the mark of the base,
all of which may be missing. -/
def int? (base : Nat) (s : String) : Option Int :=
  let (negative, digits) := splitSign (numeral s)
  (nat? base (dropBase base digits)).map fun n => if negative then -(n : Int) else n

end TreeScript.Text
