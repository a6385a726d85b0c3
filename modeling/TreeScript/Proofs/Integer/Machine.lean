/-
The limb loops on integers of bounded size. Every intermediate result is handed to a machine, which keeps it, cuts it
off or stops; lengths and indices count limbs and are no such results. Besides, a run stops where the loops rely on
something that is not so: a difference of a lesser and a greater magnitude, a borrow that is left, a divisor zero, a
search that does not end. On limbs that are digits none of this happens to a machine that keeps what lies between
`-base` and `base * base`, and each loop gives what it gives on integers of any size.
-/
import TreeScript.Proofs.Integer.LongDivision

namespace TreeScript

/-- Why a run on integers of bounded size stops. -/
inductive Stop where
  | range (x : Int)
  | index (k : Nat)
  | order
  | borrow
  | divisor
  | rounds
deriving DecidableEq

/-- What becomes of an intermediate result. -/
abbrev Machine := Int → Except Stop Int

namespace Machine

open Magnitude

/-- The bounds of all intermediate results. -/
def Fits (x : Int) : Prop := -base ≤ x ∧ x < base * base

instance (x : Int) : Decidable (Fits x) := inferInstanceAs (Decidable (_ ∧ _))

/-- Integers of any size, none of which may leave the bounds. -/
def guarded : Machine := fun x => if Fits x then .ok x else .error (.range x)

/-- Signed words of 64 bits. What does not fit into one wraps around. -/
def wrapping : Machine := fun x => .ok (Int64.ofInt x).toInt

/-- The machine keeps what is in the bounds. -/
def Exact (m : Machine) : Prop := ∀ x, Fits x → m x = .ok x

theorem exact_guarded : guarded.Exact := by
  intro x hx
  exact if_pos hx

theorem exact_wrapping : wrapping.Exact := by
  intro x ⟨hlow, hhigh⟩
  unfold base at hlow hhigh
  unfold wrapping
  rw [Int64.toInt_ofInt_of_le (by omega) (by omega)]

theorem ok_bind {α β : Type} (a : α) (f : α → Except Stop β) : (Except.ok a >>= f) = f a := rfl

theorem Exact.bind {m : Machine} (hm : m.Exact) {α : Type} {x : Int} {f : Int → Except Stop α} (hx : Fits x) :
    (m x >>= f) = f x := by
  rw [hm x hx]
  rfl

/-! ## Bounds -/

theorem fits_of_lt {x : Int} (hlow : -base ≤ x) (hhigh : x < 3 * base) : Fits x := by
  unfold base at hlow hhigh
  unfold Fits base
  omega

theorem fits_of_digit {x : Int} (hx : 0 ≤ x ∧ x < base) : Fits x := by
  unfold base at hx
  unfold Fits base
  omega

theorem fits_of_nonneg {x : Int} (hlow : 0 ≤ x) (hhigh : x < base * base) : Fits x := by
  unfold base at hhigh
  unfold Fits base
  omega

end Machine

namespace Magnitude

open Machine

/-! ## The loops -/

/-- Sum of two lists and a carry, the second list no longer than the first. -/
def addCarryOn (m : Machine) : Int → Magnitude → Magnitude → Except Stop Magnitude
  | carry, [], _ => .ok (if carry = 0 then [] else [carry])
  | carry, x :: a, b => do
    let sum ← m (x + b.headD 0)
    let total ← m (sum + carry)
    if base ≤ total then
      let limb ← m (total - base)
      let rest ← addCarryOn m 1 a b.tail
      return limb :: rest
    else
      let rest ← addCarryOn m 0 a b.tail
      return total :: rest

def addOn (m : Machine) (a b : Magnitude) : Except Stop Magnitude :=
  if a.length < b.length then addCarryOn m 0 b a else addCarryOn m 0 a b

/-- Difference of two lists and a borrow, of which none may be left. -/
def subBorrowOn (m : Machine) : Int → Magnitude → Magnitude → Except Stop Magnitude
  | borrow, [], _ => if borrow = 0 then .ok [] else .error .borrow
  | borrow, x :: a, b => do
    let difference ← m (x - b.headD 0)
    let diff ← m (difference - borrow)
    if diff < 0 then
      let limb ← m (diff + base)
      let rest ← subBorrowOn m 1 a b.tail
      return limb :: rest
    else
      let rest ← subBorrowOn m 0 a b.tail
      return diff :: rest

/-- The difference, which is only taken of a magnitude and one that is not greater. -/
def subOn (m : Machine) (a b : Magnitude) : Except Stop Magnitude :=
  if value a < value b then .error .order
  else do
    let limbs ← subBorrowOn m 0 a b
    return strip limbs

/-- A digit and what is carried on. -/
def splitOn (m : Machine) (cur : Int) : Except Stop (Int × Int) := do
  let digit ← m (cur % base)
  let carry ← m (cur / base)
  return (digit, carry)

def mulCarryOn (m : Machine) (d : Int) : Int → Magnitude → Except Stop Magnitude
  | carry, [] => .ok (if carry = 0 then [] else [carry])
  | carry, x :: a => do
    let product ← m (x * d)
    let cur ← m (product + carry)
    let (limb, next) ← splitOn m cur
    let rest ← mulCarryOn m d next a
    return limb :: rest

def mulSmallOn (m : Machine) (a : Magnitude) (d : Int) : Except Stop Magnitude :=
  if d = 0 then .ok [0] else mulCarryOn m d 0 a

/-- Division by one limb, which must not be zero. -/
def divSmallOn (m : Machine) (d : Int) : Magnitude → Except Stop (Magnitude × Int)
  | [] => .ok ([], 0)
  | x :: a => do
    let (q, rem) ← divSmallOn m d a
    let shifted ← m (rem * base)
    let cur ← m (shifted + x)
    if d = 0 then .error .divisor
    else
      let limb ← m (cur / d)
      let next ← m (cur % d)
      return (limb :: q, next)

/-- The search for a digit in as many rounds as are left. -/
def searchOn (m : Machine) (b rem : Magnitude) : Nat → Bounds → Except Stop Int
  | 0, s => if s.lo < s.hi then .error .rounds else .ok s.lo
  | rounds + 1, s =>
    if s.lo < s.hi then do
      let sum ← m (s.lo + s.hi)
      let next ← m (sum + 1)
      let mid ← m (next / 2)
      let product ← mulSmallOn m b mid
      if compare product rem = .gt then
        let hi ← m (mid - 1)
        searchOn m b rem rounds ⟨s.lo, hi⟩
      else searchOn m b rem rounds ⟨mid, s.hi⟩
    else .ok s.lo

/-- Division by more limbs than one, with thirty rounds for each digit. -/
def divLongOn (m : Machine) (b : Magnitude) : Magnitude → Except Stop (Magnitude × Magnitude)
  | [] => .ok ([], [0])
  | x :: a => do
    let (q, rem) ← divLongOn m b a
    let rem := strip (x :: rem)
    if compare rem b = .lt then return (0 :: q, rem)
    else
      let digit ← searchOn m b rem 30 Bounds.digits
      let product ← mulSmallOn m b digit
      let rest ← subOn m rem product
      return (digit :: q, rest)

def divModOn (m : Machine) (a b : Magnitude) : Except Stop (Magnitude × Magnitude) :=
  if compare a b = .lt then .ok ([0], a)
  else
    match b with
    | [d] => do
      let (q, rem) ← divSmallOn m d a
      return (strip q, [rem])
    | _ => do
      let (q, rem) ← divLongOn m b a
      return (strip q, rem)

/-! ## Each loop is exact -/

section Exact

variable {m : Machine} (hm : m.Exact)

include hm

theorem addCarryOn_eq {c : Int} {a b : Magnitude} (ha : Limbs a) (hb : Limbs b) (h0 : 0 ≤ c) (h1 : c ≤ 1) :
    addCarryOn m c a b = .ok (addCarry c a b) := by
  induction a generalizing c b with
  | nil => rfl
  | cons x a ih =>
    obtain ⟨hx, ha⟩ := (limbs_cons x a).1 ha
    have hy := hb.headD
    have hbase : 1 < base := by decide
    rw [addCarryOn, hm.bind (fits_of_lt (by omega) (by omega)), hm.bind (fits_of_lt (by omega) (by omega)), addCarry]
    split
    · rw [hm.bind (fits_of_lt (by omega) (by omega)), ih ha hb.tail (by decide) le_rfl]
      rfl
    · rw [ih ha hb.tail le_rfl (by decide)]
      rfl

theorem addOn_eq {a b : Magnitude} (ha : Limbs a) (hb : Limbs b) : addOn m a b = .ok (add a b) := by
  unfold addOn add
  split
  · exact addCarryOn_eq hm hb ha le_rfl (by decide)
  · exact addCarryOn_eq hm ha hb le_rfl (by decide)

/-- No borrow is left if what is taken away is not greater. -/
theorem subBorrowOn_eq {c : Int} {a b : Magnitude} (ha : Limbs a) (hb : Limbs b) (h0 : 0 ≤ c) (h1 : c ≤ 1)
    (hlen : b.length ≤ a.length) (hle : value b + c ≤ value a) : subBorrowOn m c a b = .ok (subBorrow c a b) := by
  induction a generalizing c b with
  | nil =>
    rw [List.eq_nil_of_length_eq_zero (Nat.le_zero.1 hlen)] at hle
    simp only [value_nil] at hle
    exact if_pos (by omega)
  | cons x a ih =>
    obtain ⟨hx, ha⟩ := (limbs_cons x a).1 ha
    have hy := hb.headD
    have ht : b.tail.length ≤ a.length := by
      rw [List.length_tail]
      rw [List.length_cons] at hlen
      omega
    have hv := value_headD b
    rw [value_cons] at hle
    rw [subBorrowOn, hm.bind (fits_of_lt (by omega) (by omega)), hm.bind (fits_of_lt (by omega) (by omega)), subBorrow]
    -- A limb that is too small takes one from the limb above, which is worth the base.
    unfold base at hle hv hx hy
    split
    · rw [hm.bind (fits_of_lt (by unfold base; omega) (by unfold base; omega)),
        ih ha hb.tail (by decide) le_rfl ht (by omega)]
      rfl
    · rw [ih ha hb.tail le_rfl (by decide) ht (by omega)]
      rfl

theorem subOn_eq {a b : Magnitude} (ha : Limbs a) (hb : Limbs b) (hlen : b.length ≤ a.length)
    (hle : value b ≤ value a) : subOn m a b = .ok (sub a b) := by
  unfold subOn sub
  rw [if_neg (not_lt.mpr hle), subBorrowOn_eq hm ha hb le_rfl (by decide) hlen (by omega)]
  rfl

theorem splitOn_eq {cur : Int} (h0 : 0 ≤ cur) (h1 : cur < base * base) :
    splitOn m cur = .ok (cur % base, cur / base) := by
  unfold splitOn
  rw [hm.bind (fits_of_digit (emod_digit cur)), hm.bind (fits_of_digit (ediv_digit h0 h1))]
  rfl

theorem mulCarryOn_eq {d c : Int} {a : Magnitude} (ha : Limbs a) (hd : 0 ≤ d ∧ d < base) (hc : 0 ≤ c ∧ c < base) :
    mulCarryOn m d c a = .ok (mulCarry d c a) := by
  induction a generalizing c with
  | nil => rfl
  | cons x a ih =>
    obtain ⟨hx, ha⟩ := (limbs_cons x a).1 ha
    have hzero : 0 ≤ (0 : Int) ∧ 0 < base := ⟨le_rfl, base_pos⟩
    obtain ⟨p0, p1⟩ := digit_product_bounds hzero hx hd hzero
    obtain ⟨h0, h1⟩ := digit_product_bounds hzero hx hd hc
    rw [zero_add, add_zero] at p0 p1
    rw [zero_add] at h0 h1
    rw [mulCarryOn, hm.bind (fits_of_nonneg p0 p1), hm.bind (fits_of_nonneg h0 h1), splitOn_eq hm h0 h1, ok_bind]
    simp only
    rw [ih ha (ediv_digit h0 h1)]
    rfl

theorem mulSmallOn_eq {a : Magnitude} {d : Int} (ha : Limbs a) (hd : 0 ≤ d ∧ d < base) :
    mulSmallOn m a d = .ok (mulSmall a d) := by
  unfold mulSmallOn mulSmall
  split
  · rfl
  · exact mulCarryOn_eq hm ha hd ⟨le_rfl, base_pos⟩

theorem divSmallOn_eq {d : Int} {a : Magnitude} (ha : Limbs a) (h0 : 0 < d) (h1 : d < base) :
    divSmallOn m d a = .ok (divSmall d a) := by
  induction a with
  | nil => rfl
  | cons x a ih =>
    obtain ⟨hx, ha⟩ := (limbs_cons x a).1 ha
    have hrem := divSmall_bounds h0 a
    obtain ⟨hcur, hlt⟩ := bringDown_bounds hrem hx
    have hshifted : 0 ≤ (divSmall d a).2 * base := mul_nonneg hrem.1 base_pos.le
    have hmax : base * d < base * base := mul_lt_mul_of_pos_left h1 base_pos
    have hlimb : 0 ≤ ((divSmall d a).2 * base + x) / d ∧ ((divSmall d a).2 * base + x) / d < base :=
      ⟨Int.ediv_nonneg hcur h0.le, Int.ediv_lt_of_lt_mul h0 hlt⟩
    have hnext : 0 ≤ ((divSmall d a).2 * base + x) % d ∧ ((divSmall d a).2 * base + x) % d < base :=
      ⟨Int.emod_nonneg _ h0.ne', (Int.emod_lt_of_pos _ h0).trans h1⟩
    rw [divSmallOn, ih ha, ok_bind]
    simp only
    rw [hm.bind (fits_of_nonneg hshifted (by omega)), hm.bind (fits_of_nonneg hcur (by omega)), if_neg h0.ne',
      hm.bind (fits_of_digit hlimb), hm.bind (fits_of_digit hnext)]
    rfl

/-- Thirty rounds are enough for all digits, because each round leaves at most half of the interval. -/
theorem searchOn_eq {b rem : Magnitude} (hb : Limbs b) {n : Nat} {s : Bounds} (hpos : 1 ≤ s.lo) (hle : s.lo ≤ s.hi)
    (hdigit : s.hi < base) (hwidth : s.hi - s.lo < 2 ^ n) :
    searchOn m b rem n s = .ok (searchDigit b rem s.lo s.hi) := by
  induction n generalizing s with
  | zero =>
    rw [pow_zero] at hwidth
    rw [searchOn, if_neg (by omega), searchDigit_single (by omega)]
  | succ n ih =>
    rw [searchOn]
    by_cases hopen : s.lo < s.hi
    · obtain ⟨hlo, hhi⟩ := Bounds.mid_bounds hopen
      have hhalf := narrow_halves b rem s
      rw [pow_succ] at hwidth
      rw [if_pos hopen, hm.bind (fits_of_lt (by omega) (by omega)), hm.bind (fits_of_lt (by omega) (by omega))]
      change (m s.mid >>= _) = _
      rw [hm.bind (fits_of_digit (by omega)), mulSmallOn_eq hm hb (by omega), ok_bind, searchDigit_narrow hopen]
      split
      · rename_i hgt
        rw [narrow_of_gt hgt] at hhalf ⊢
        simp only at hhalf
        rw [hm.bind (fits_of_digit (by omega))]
        apply ih
        all_goals simp only; omega
      · rename_i hgt
        rw [narrow_of_not_gt hgt] at hhalf ⊢
        simp only at hhalf
        apply ih
        all_goals simp only; omega
    · rw [if_neg hopen, searchDigit_single (by omega)]

/-- The product with the digit is not greater than the remainder, so the difference of the step can be taken. -/
theorem divLongOn_eq {a b : Magnitude} (ha : Limbs a) (hb : Limbs b) (sb : Stripped b) (hpos : 0 < value b) :
    divLongOn m b a = .ok (divLong b a) := by
  induction a with
  | nil => rfl
  | cons x a ih =>
    obtain ⟨hx, ha⟩ := (limbs_cons x a).1 ha
    have hstep := longStep hx ha hb sb hpos
    rw [divLongOn, ih ha, ok_bind, divLong_step]
    simp only
    -- Both bring the limb down and compare what that gives with the divisor.
    change (if compare (broughtDown b x a) b = .lt then _ else _) = _
    split
    · rfl
    · rename_i hge
      rw [compare_eq hstep.limbs hb hstep.stripped sb, compare_lt_iff_lt, not_lt] at hge
      obtain ⟨hone, hdigit, hfits, -⟩ := quotientDigit_spec hb sb hpos hstep.limbs hstep.stripped hge hstep.lt
      obtain ⟨hproduct, hlen, hle⟩ := mulSmall_fits hb sb hpos hstep.limbs hstep.stripped hone hdigit hfits
      rw [searchOn_eq hm hb le_rfl (by decide) (by decide) (by decide), ok_bind]
      change (mulSmallOn m b (quotientDigit b (broughtDown b x a)) >>= _) = _
      rw [mulSmallOn_eq hm hb ⟨by omega, hdigit⟩, ok_bind]
      change (subOn m (broughtDown b x a) _ >>= _) = _
      rw [subOn_eq hm hstep.limbs hproduct hlen hle]
      rfl

theorem divModOn_eq {a b : Magnitude} (ha : Limbs a) (hb : Limbs b) (sb : Stripped b) (hpos : 0 < value b) :
    divModOn m a b = .ok (divMod a b) := by
  unfold divModOn divMod
  by_cases hless : compare a b = .lt
  · rw [if_pos hless, if_pos hless]
  · rw [if_neg hless, if_neg hless]
    rcases b with _ | ⟨d, _ | ⟨y, b⟩⟩
    · exact absurd rfl sb.ne_nil
    · have hd : 0 < d := by simpa using hpos
      simp only
      rw [divSmallOn_eq hm ha hd ((limbs_cons d []).1 hb).1.2]
      rfl
    · simp only
      rw [divLongOn_eq hm ha hb sb hpos]
      rfl

end Exact

-- Limbs that are no digits leave the bounds.
example : mulSmallOn .guarded [1000000002] 999999999 = .error (.range 1000000000999999998) := rfl

end Magnitude

end TreeScript
