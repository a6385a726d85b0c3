/-
How doubles are written: from the shortest digits, positionally for ordinary sizes and with an
exponent for the others.
-/
import TreeScript.Double.Shortest

namespace TreeScript.Double

/-- The decisions about the text of doubles. -/
structure Layout where
  /-- The least exponent of the first digit that is written positionally. -/
  positionalFrom : Int
  /-- The least exponent above it that is not. -/
  positionalBelow : Int
  /-- What follows a whole number in positional notation. -/
  wholeMark : String
  /-- What stands before the exponent, and the least count of its digits. -/
  exponentMark : String
  exponentDigits : Nat
  infinity : String
  nan : String

/-- Numbers from 0.0001 up to 10^16 are positional and keep a fraction; other exponents have a sign and
at least two digits. -/
def documentLayout : Layout :=
  ⟨-4, 16, ".0", "e", 2, "inf", "nan"⟩

def significant (n : Nat) : List Char :=
  ((Nat.toDigits 10 n).reverse.dropWhile (· == '0')).reverse

/-- Digits whose first one has the decimal exponent `e`, as `f` says. -/
def Layout.render (f : Layout) (digits : List Char) (e : Int) : String :=
  if f.positionalFrom ≤ e ∧ e < f.positionalBelow then
    if e < 0 then "0." ++ String.ofList (List.replicate (-e - 1).toNat '0' ++ digits)
    else
      let whole := e.toNat + 1
      let zeros := List.replicate (whole - digits.length) '0'
      let fraction := digits.drop whole
      String.ofList (digits.take whole ++ zeros) ++
        (if fraction.isEmpty then f.wholeMark else "." ++ String.ofList fraction)
  else
    let size := Nat.toDigits 10 e.natAbs
    let fraction := digits.drop 1
    String.ofList (digits.take 1) ++ (if fraction.isEmpty then "" else "." ++ String.ofList fraction) ++
      f.exponentMark ++ (if e < 0 then "-" else "+") ++
      String.ofList (List.replicate (f.exponentDigits - size.length) '0' ++ size)

def Layout.text (f : Layout) : Double → String
  | .nan => f.nan
  | .infinite negative => (if negative then "-" else "") ++ f.infinity
  | .finite negative m q =>
    let sign := if negative then "-" else ""
    if m = 0 then sign ++ "0" ++ f.wholeMark
    else
      let d := shortest m q
      let digits := Nat.toDigits 10 d.digits
      sign ++ f.render (significant d.digits) (d.exponent + digits.length - 1)

instance : ToString Double := ⟨documentLayout.text⟩

end TreeScript.Double
