/-
Signed integers of any size: a sign and a magnitude of limbs. The canonical form has no zero limb
on top and writes zero with the sign 0, so that two canonical integers are equal exactly when
they are the same structure. `toInt` is the integer that is meant.
-/
import TreeScript.Integer.Magnitude
import TreeScript.Text.Decimal

namespace TreeScript

/-- A sign (-1, 0 or 1) and the limbs of the absolute value, least significant first. -/
structure Integer where
  sign : Int
  limbs : Magnitude
deriving DecidableEq, Inhabited

namespace Integer

/-- The integer that the sign and the limbs stand for. -/
def toInt (a : Integer) : Int := a.sign * a.limbs.value

/-- The one form in which the engine keeps each integer. -/
structure Canonical (a : Integer) : Prop where
  limbs : Magnitude.Limbs a.limbs
  stripped : Magnitude.strip a.limbs = a.limbs
  sign : a.sign = 0 ∨ a.sign = 1 ∨ a.sign = -1
  zero : a.sign = 0 ↔ a.limbs = [0]

def zero : Integer := ⟨0, [0]⟩

def one : Integer := ⟨1, [1]⟩

def isZero (a : Integer) : Bool := a.sign == 0

def isNegative (a : Integer) : Bool := a.sign < 0

/-! ## Building from parts -/

/-- What is wrong with a sign and limbs that form no integer. -/
inductive ShapeFault where
  | sign (sign : Int)
  | noLimb
  | zeroLimbs
  | leadingZero
deriving DecidableEq

/-- What is said of a fault. A sign that cannot be written is not told of, but that it cannot be. -/
def ShapeFault.message : ShapeFault → String
  | .sign s =>
    match Text.ofInt? s with
    | some text => s!"invalid sign {text}"
    | none => Text.unwritableMessage
  | .noLimb => "magnitude must have at least one limb"
  | .zeroLimbs => "zero must be represented as a single zero limb"
  | .leadingZero => "magnitude has a leading zero limb"

/-- Checks that sign and limbs fit together. -/
def ofParts (sign : Int) (limbs : Magnitude) : Except ShapeFault Integer :=
  if sign ≠ -1 ∧ sign ≠ 0 ∧ sign ≠ 1 then .error (.sign sign)
  else if limbs = [] then .error .noLimb
  else if sign = 0 then (if limbs = [0] then .ok ⟨sign, limbs⟩ else .error .zeroLimbs)
  else if limbs.getLast? = some 0 then .error .leadingZero
  else .ok ⟨sign, limbs⟩

/-- The integer of a sign other than 0 and limbs that may have zeros on top. -/
def normalize (sign : Int) (limbs : Magnitude) : Integer :=
  let limbs := Magnitude.strip limbs
  if limbs = [0] then zero else ⟨sign, limbs⟩

/-! ## Decimal text -/

/-- Why an operation on integers has no result. -/
inductive Fault where
  | malformedLiteral (text : String)
  | divisionByZero
deriving DecidableEq

def digitValue (c : Char) : Int := (c.toNat : Int) - '0'.toNat

/-- Groups digits, least significant first, into limbs; `place` digits of `limb` are there already. -/
def limbsOfDigits (place : Nat) (limb : Int) : List Char → Magnitude
  | [] => [limb]
  | c :: cs =>
    if place = Magnitude.baseDigits then limb :: limbsOfDigits 1 (digitValue c) cs
    else limbsOfDigits (place + 1) (limb + digitValue c * 10 ^ place) cs

/-- Whether the characters are decimal digits, at least one. -/
def isDigits (cs : List Char) : Bool := !cs.isEmpty && cs.all Char.isDigit

/-- Reads an optional minus sign and at least one digit from 0 to 9, and nothing else. -/
def parse (text : String) : Except Fault Integer :=
  let (sign, digits) : Int × List Char :=
    match text.toList with
    | '-' :: ds => (-1, ds)
    | ds => (1, ds)
  if isDigits digits then .ok (normalize sign (limbsOfDigits 0 0 digits.reverse))
  else .error (.malformedLiteral text)

/-- Decimal text of one limb below the top: zeros fill it up to nine places. -/
def limbText (limb : Int) : String :=
  let digits := toString limb.natAbs
  let sign := if limb < 0 then "-" else ""
  sign ++ "".pushn '0' (Magnitude.baseDigits - sign.length - digits.length) ++ digits

/-- The canonical decimal text, with a minus sign for negative values. -/
def toDecimal (a : Integer) : String :=
  let text :=
    match a.limbs.reverse with
    | [] => ""
    | top :: rest => toString top ++ String.join (rest.map limbText)
  if a.sign < 0 then "-" ++ text else text

instance : ToString Integer := ⟨toDecimal⟩

def describe (a : Integer) : String := s!"BigInt({a.toDecimal})"

/-! ## Order -/

def compareMagnitude (a b : Integer) : Ordering := Magnitude.compare a.limbs b.limbs

/-- Compares values: signs first, and magnitudes the other way round for negative ones. -/
def compare (a b : Integer) : Ordering :=
  if a.sign ≠ b.sign then (if a.sign < b.sign then .lt else .gt)
  else if a.sign = 0 then .eq
  else if a.sign < 0 then (compareMagnitude a b).swap
  else compareMagnitude a b

instance : Ord Integer := ⟨compare⟩

/-! ## Arithmetic -/

def negate (a : Integer) : Integer :=
  if a.sign = 0 then a else ⟨-a.sign, a.limbs⟩

/-- The exact sum. Unlike signs take the smaller magnitude from the larger one. -/
def add (a b : Integer) : Integer :=
  if a.sign = 0 then b
  else if b.sign = 0 then a
  else if a.sign = b.sign then normalize a.sign (Magnitude.add a.limbs b.limbs)
  else
    match compareMagnitude a b with
    | .eq => zero
    | .gt => normalize a.sign (Magnitude.sub a.limbs b.limbs)
    | .lt => normalize b.sign (Magnitude.sub b.limbs a.limbs)

def subtract (a b : Integer) : Integer := add a (negate b)

def multiply (a b : Integer) : Integer :=
  if a.sign = 0 ∨ b.sign = 0 then zero
  else normalize (a.sign * b.sign) (Magnitude.mul a.limbs b.limbs)

/-- The quotient, cut off toward zero. -/
def divide (a b : Integer) : Except Fault Integer :=
  if b.sign = 0 then .error .divisionByZero
  else if a.sign = 0 then .ok zero
  else .ok (normalize (a.sign * b.sign) (Magnitude.divMod a.limbs b.limbs).1)

/-- The remainder, with the sign of the dividend. -/
def remainder (a b : Integer) : Except Fault Integer :=
  if b.sign = 0 then .error .divisionByZero
  else if a.sign = 0 then .ok zero
  else .ok (normalize a.sign (Magnitude.divMod a.limbs b.limbs).2)

instance : Neg Integer := ⟨negate⟩
instance : Add Integer := ⟨add⟩
instance : Sub Integer := ⟨subtract⟩
instance : Mul Integer := ⟨multiply⟩

end Integer

end TreeScript
