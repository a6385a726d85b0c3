/-
Shortest decimals: the fewest digits that round back to a given double, and of those the ones
nearest to it. Each count of digits is tried in turn with the value's two neighbours on that
decimal grid, in exact arithmetic.
-/
import TreeScript.Double.Basic

namespace TreeScript.Double

/-- A positive decimal `digits · 10^exponent`. -/
structure Decimal where
  digits : Nat
  exponent : Int
deriving DecidableEq

/-- Compares `a · 10^p` with `b · 2^q`. -/
def compareDecimal (a : Nat) (p : Int) (b : Nat) (q : Int) : Ordering :=
  compare (a * Nat.pow 10 p.toNat * Nat.pow 2 (-q).toNat) (b * Nat.pow 2 q.toNat * Nat.pow 10 (-p).toNat)

/-- The reals that round to `m · 2^q` lie between these two numbers, counted in `2^(q-2)`. -/
def roundingBounds (m : Nat) (q : Int) : Nat × Nat :=
  (if m = Nat.pow 2 52 ∧ minExponent < q then 4 * m - 1 else 4 * m - 2, 4 * m + 2)

/-- Whether `d · 10^p` rounds to `m · 2^q`; the bounds themselves do when `m` is even. -/
def roundsTo (m : Nat) (q : Int) (d : Nat) (p : Int) : Bool :=
  let (lo, hi) := roundingBounds m q
  let below := compareDecimal d p lo (q - 2)
  let above := compareDecimal d p hi (q - 2)
  (below == .gt || (below == .eq && m % 2 == 0)) && (above == .lt || (above == .eq && m % 2 == 0))

/-- The decimal exponent of the first digit of `m · 2^q`, counted up from a bound below it. -/
def leadingExponent (m : Nat) (q : Int) : Int :=
  let guess : Int := ((m.log2 : Int) + q) * 30103 / 100000 - 1
  if compareDecimal 1 (guess + 2) m q != .gt then guess + 2
  else if compareDecimal 1 (guess + 1) m q != .gt then guess + 1
  else guess

/-- `m · 2^q` divided by `10^p`, rounded down. -/
def floorDecimal (m : Nat) (q p : Int) : Nat :=
  m * Nat.pow 2 q.toNat * Nat.pow 10 (-p).toNat / (Nat.pow 10 p.toNat * Nat.pow 2 (-q).toNat)

/-- The neighbour on the grid of `10^p` that rounds to the value: the nearer one if both do, the even
one of two equally near. -/
def onGrid (m : Nat) (q p : Int) : Option Decimal :=
  let d := floorDecimal m q p
  match roundsTo m q d p, roundsTo m q (d + 1) p with
  | false, false => none
  | true, false => some ⟨d, p⟩
  | false, true => some ⟨d + 1, p⟩
  | true, true =>
    -- The middle of the two neighbours is (2 d + 1) / 2.
    match compareDecimal (2 * d + 1) p m (q + 1) with
    | .gt => some ⟨d, p⟩
    | .lt => some ⟨d + 1, p⟩
    | .eq => some ⟨if d % 2 = 0 then d else d + 1, p⟩

/-- The shortest decimal of a positive `m · 2^q`: seventeen digits always suffice. -/
def shortest (m : Nat) (q : Int) : Decimal :=
  let top := leadingExponent m q
  ((List.range 17).findSome? fun (n : Nat) => onGrid m q (top - n)).getD ⟨floorDecimal m q (top - 16), top - 16⟩

end TreeScript.Double
