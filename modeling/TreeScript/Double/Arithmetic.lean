/-
Sums and products of doubles: the exact result, rounded once.
-/
import TreeScript.Double.Basic

namespace TreeScript.Double

def ratio (negative : Bool) (m : Nat) (q : Int) : Int × Nat :=
  let m : Int := if negative then -(m : Int) else m
  if 0 ≤ q then (m * Nat.pow 2 q.toNat, 1) else (m, Nat.pow 2 (-q).toNat)

def ofRatio (num : Int) (den : Nat) : Double := nearest (num < 0) num.natAbs den

def ofNat (n : Nat) : Double := nearest false n 1

def negate : Double → Double
  | .finite negative m q => .finite (!negative) m q
  | .infinite negative => .infinite (!negative)
  | .nan => .nan

/-- The sum; two zeros are negative together only. -/
def add : Double → Double → Double
  | .finite a m q, .finite b n r =>
    if m = 0 ∧ n = 0 then .finite (a && b) 0 minExponent
    else
      let (x, d) := ratio a m q
      let (y, e) := ratio b n r
      ofRatio (x * e + y * d) (d * e)
  | .infinite a, .infinite b => if a = b then .infinite a else .nan
  | .infinite a, .finite .. => .infinite a
  | .finite .., .infinite b => .infinite b
  | _, _ => .nan

/-- The product; zero times infinity is no number. -/
def mul : Double → Double → Double
  | .finite a m q, .finite b n r =>
    let (x, d) := ratio false m q
    let (y, e) := ratio false n r
    nearest (a != b) (x * y).natAbs (d * e)
  | .infinite a, .infinite b => .infinite (a != b)
  | .infinite a, .finite b m _ => if m = 0 then .nan else .infinite (a != b)
  | .finite a m _, .infinite b => if m = 0 then .nan else .infinite (a != b)
  | _, _ => .nan

end TreeScript.Double
