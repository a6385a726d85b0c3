/-
Binary floating-point numbers of 53 bits: a natural number below 2^53 times a power of two, from
2^-1074 on. `nearest` rounds a ratio to the nearest of them, ties to the even mantissa.
-/

namespace TreeScript

/-- A number `mantissa · 2^exponent` with its sign, or one of the values that stand for none. -/
inductive Double where
  | finite (negative : Bool) (mantissa : Nat) (exponent : Int)
  | infinite (negative : Bool)
  | nan
deriving DecidableEq

namespace Double

def minExponent : Int := -1074

def maxExponent : Int := 971

/-- `num / den` rounded to the nearest natural number, ties to the even one. -/
def roundHalfEven (num den : Nat) : Nat :=
  let q := num / den
  let twice := 2 * (num % den)
  if twice < den then q
  else if den < twice then q + 1
  else if q % 2 = 0 then q else q + 1

/-- `num / den` scaled by `2^-q`, as a ratio. -/
def scale (num den : Nat) (q : Int) : Nat × Nat :=
  if 0 ≤ q then (num, den * Nat.pow 2 q.toNat) else (num * Nat.pow 2 (-q).toNat, den)

/-- The exponent for which the mantissa of `num / den` has 53 bits, or the least exponent. -/
def exponentFor (num den : Nat) : Int :=
  let guess : Int := (num.log2 : Int) - den.log2 - 52
  let (n, d) := scale num den guess
  -- The guess is right or one too large.
  max minExponent (if n / d < Nat.pow 2 52 then guess - 1 else guess)

/-- The double nearest to `num / den`; a ratio past the largest double becomes infinite. -/
def nearest (negative : Bool) (num den : Nat) : Double :=
  if num = 0 then .finite negative 0 minExponent
  else
    let q := exponentFor num den
    let (n, d) := scale num den q
    let m := roundHalfEven n d
    let (m, q) := if m = Nat.pow 2 53 then (Nat.pow 2 52, q + 1) else (m, q)
    if maxExponent < q then .infinite negative else .finite negative m q

/-- The double nearest to `digits · 10^exponent`. -/
def ofDecimal (negative : Bool) (digits : Nat) (exponent : Int) : Double :=
  -- Beyond these limits the result is known, however long the digits are.
  let magnitude : Int := (Nat.toDigits 10 digits).length + exponent
  if digits = 0 ∨ magnitude < -400 then .finite negative 0 minExponent
  else if 400 < magnitude then .infinite negative
  else if 0 ≤ exponent then nearest negative (digits * Nat.pow 10 exponent.toNat) 1
  else nearest negative digits (Nat.pow 10 (-exponent).toNat)

/-- The integer that the double is, if it is one. -/
def toInt? : Double → Option Int
  | .finite negative m q =>
    let magnitude : Option Nat :=
      if 0 ≤ q then some (m * Nat.pow 2 q.toNat)
      else if m % Nat.pow 2 (-q).toNat = 0 then some (m / Nat.pow 2 (-q).toNat)
      else none
    magnitude.map fun n => if negative then -(n : Int) else n
  | _ => none

def isZero : Double → Bool
  | .finite _ m _ => m == 0
  | _ => false

/-- Whether two doubles are one number: zero has two forms. -/
def same (a b : Double) : Bool := (a.isZero && b.isZero) || a == b

end Double

end TreeScript
