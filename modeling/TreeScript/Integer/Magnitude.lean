/-
Magnitudes: lists of limbs to base 10^9, least significant limb first. The operations work limb
by limb with a carry or a borrow, as on paper, and `value` is the number that a list of limbs
stands for. A limb is an `Int`, so that a difference before its borrow is one too; the lists the
engine builds hold limbs from zero to base minus one (`Limbs`).
-/

namespace TreeScript

/-- Limbs to base 10^9, least significant first. -/
abbrev Magnitude := List Int

namespace Magnitude

def baseDigits : Nat := 9

def base : Int := 1000000000

/-- The number that the limbs stand for. -/
def value : Magnitude → Int
  | [] => 0
  | x :: a => x + base * value a

/-- Every limb is a digit to the base. -/
def Limbs (a : Magnitude) : Prop := ∀ x ∈ a, 0 ≤ x ∧ x < base

/-! ## Leading zeros -/

/-- Drops every zero limb from the top. -/
def trim : Magnitude → Magnitude
  | [] => []
  | x :: a =>
    match trim a with
    | [] => if x = 0 then [] else [x]
    | y :: t => x :: y :: t

/-- Drops zero limbs from the top, but keeps one limb. -/
def strip (a : Magnitude) : Magnitude :=
  match trim a with
  | [] => [0]
  | y :: t => y :: t

/-! ## Comparison -/

/-- Compares lists of one length, the most significant limb first. -/
def compareLimbs : Magnitude → Magnitude → Ordering
  | x :: a, y :: b => (compareLimbs a b).then (Ord.compare x y)
  | _, _ => .eq

/-- Compares the counts of limbs first and then the limbs, which is right on stripped lists. -/
def compare (a b : Magnitude) : Ordering :=
  (Ord.compare a.length b.length).then (compareLimbs a b)

/-! ## Sum and difference -/

/-- Adds the shorter list to the longer one, which is `a`, and a carry. -/
def addCarry : Int → Magnitude → Magnitude → Magnitude
  | carry, [], _ => if carry = 0 then [] else [carry]
  | carry, x :: a, b =>
    let total := x + b.headD 0 + carry
    if base ≤ total then (total - base) :: addCarry 1 a b.tail
    else total :: addCarry 0 a b.tail

/-- The sum, which may have one limb more than the longer summand. -/
def add (a b : Magnitude) : Magnitude :=
  if a.length < b.length then addCarry 0 b a else addCarry 0 a b

/-- Takes `b`, which is no longer than `a`, and a borrow from `a`. -/
def subBorrow : Int → Magnitude → Magnitude → Magnitude
  | _, [], _ => []
  | borrow, x :: a, b =>
    let diff := x - b.headD 0 - borrow
    if diff < 0 then (diff + base) :: subBorrow 1 a b.tail
    else diff :: subBorrow 0 a b.tail

/-- The difference of a magnitude and one that is not greater, stripped. -/
def sub (a b : Magnitude) : Magnitude := strip (subBorrow 0 a b)

/-! ## Product -/

/-- Adds a carry into the cells of a result. A carry past the last cell would open a new one. -/
def addCarryInto : Int → Magnitude → Magnitude
  | carry, [] => if carry = 0 then [] else [carry]
  | carry, r :: cells =>
    if carry = 0 then r :: cells
    else ((r + carry) % base) :: addCarryInto ((r + carry) / base) cells

/-- Adds `x` times a magnitude, and a carry, into the cells of a result. -/
def addProductInto (x : Int) : Int → Magnitude → Magnitude → Magnitude
  | carry, [], cells => addCarryInto carry cells
  | carry, y :: b, cells =>
    let cur := cells.headD 0 + x * y + carry
    (cur % base) :: addProductInto x (cur / base) b cells.tail

/-- Adds the product of two magnitudes into the cells of a result, one limb of `a` after another. -/
def mulInto : Magnitude → Magnitude → Magnitude → Magnitude
  | [], _, cells => cells
  | x :: a, b, cells =>
    match if x = 0 then cells else addProductInto x 0 b cells with
    | [] => mulInto a b []
    | r :: rest => r :: mulInto a b rest

/-- The product by convolution of limbs, in as many cells as both factors have limbs, stripped. -/
def mul (a b : Magnitude) : Magnitude :=
  strip (mulInto a b (List.replicate (a.length + b.length) 0))

/-- Multiplies by one limb and adds a carry. -/
def mulCarry (m : Int) : Int → Magnitude → Magnitude
  | carry, [] => if carry = 0 then [] else [carry]
  | carry, x :: a => ((x * m + carry) % base) :: mulCarry m ((x * m + carry) / base) a

def mulSmall (a : Magnitude) (m : Int) : Magnitude :=
  if m = 0 then [0] else mulCarry m 0 a

/-! ## Quotient and remainder -/

/-- Divides by one limb from the top: the quotient's limbs and the last remainder. -/
def divSmall (d : Int) : Magnitude → Magnitude × Int
  | [] => ([], 0)
  | x :: a =>
    let (q, rem) := divSmall d a
    let cur := rem * base + x
    (cur / d :: q, cur % d)

/-- The largest `q` from `lo` to `hi` with `b * q ≤ rem`, if `lo` is one such, found by halving. -/
def searchDigit (b rem : Magnitude) (lo hi : Int) : Int :=
  if lo < hi then
    let mid := (lo + hi + 1) / 2
    if compare (mulSmall b mid) rem = .gt then searchDigit b rem lo (mid - 1)
    else searchDigit b rem mid hi
  else lo
termination_by (hi - lo).toNat

/-- The largest digit `q` with `b * q ≤ rem`, for `b ≤ rem`. -/
def quotientDigit (b rem : Magnitude) : Int := searchDigit b rem 1 (base - 1)

/-- Long division from the top: the quotient's limbs and the last remainder. -/
def divLong (b : Magnitude) : Magnitude → Magnitude × Magnitude
  | [] => ([], [0])
  | x :: a =>
    let (q, rem) := divLong b a
    let rem := strip (x :: rem)
    if compare rem b = .lt then (0 :: q, rem)
    else
      let digit := quotientDigit b rem
      (digit :: q, sub rem (mulSmall b digit))

/-- Quotient and remainder of two magnitudes, for a divisor other than zero. -/
def divMod (a b : Magnitude) : Magnitude × Magnitude :=
  if compare a b = .lt then ([0], a)
  else
    match b with
    | [d] =>
      let (q, rem) := divSmall d a
      (strip q, [rem])
    | _ =>
      let (q, rem) := divLong b a
      (strip q, rem)

end Magnitude

end TreeScript
