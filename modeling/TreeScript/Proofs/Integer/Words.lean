/-
Arithmetic of integers with limbs in machine words. Each operation calls the limb loops of a machine where it calls the
loops on integers of any size. For canonical operands of any length no intermediate result of a loop leaves the bounds,
no cell outside of the product is touched, only a magnitude that is not greater is taken away, and no borrow is left and
no divisor zero, so signed words of 64 bits that wrap around give the same results.
-/
import TreeScript.Proofs.Integer.Arithmetic
import TreeScript.Proofs.Integer.Cells

namespace TreeScript.Integer

open Magnitude

/-! ## The operations -/

def addOn (m : Machine) (a b : Integer) : Except Stop Integer :=
  if a.sign = 0 then .ok b
  else if b.sign = 0 then .ok a
  else if a.sign = b.sign then do
    let limbs ← Magnitude.addOn m a.limbs b.limbs
    return normalize a.sign limbs
  else
    match compareMagnitude a b with
    | .eq => .ok zero
    | .gt => do
      let limbs ← Magnitude.subOn m a.limbs b.limbs
      return normalize a.sign limbs
    | .lt => do
      let limbs ← Magnitude.subOn m b.limbs a.limbs
      return normalize b.sign limbs

def subtractOn (m : Machine) (a b : Integer) : Except Stop Integer := addOn m a (negate b)

def multiplyOn (m : Machine) (a b : Integer) : Except Stop Integer :=
  if a.sign = 0 ∨ b.sign = 0 then .ok zero
  else do
    let limbs ← Magnitude.mulOn m a.limbs b.limbs
    return normalize (a.sign * b.sign) limbs

def divideOn (m : Machine) (a b : Integer) : Except Stop (Except Fault Integer) :=
  if b.sign = 0 then .ok (.error .divisionByZero)
  else if a.sign = 0 then .ok (.ok zero)
  else do
    let (quotient, _) ← Magnitude.divModOn m a.limbs b.limbs
    return .ok (normalize (a.sign * b.sign) quotient)

def remainderOn (m : Machine) (a b : Integer) : Except Stop (Except Fault Integer) :=
  if b.sign = 0 then .ok (.error .divisionByZero)
  else if a.sign = 0 then .ok (.ok zero)
  else do
    let (_, rem) ← Magnitude.divModOn m a.limbs b.limbs
    return .ok (normalize a.sign rem)

/-! ## Each operation is exact -/

section Exact

variable {m : Machine} (hm : m.Exact) {a b : Integer} (ha : a.Canonical) (hb : b.Canonical)

include hm ha hb

/-- A greater magnitude has at least as many limbs, and nothing is left to borrow. -/
theorem subOn_eq_of_le (hle : b.limbs.value ≤ a.limbs.value) :
    Magnitude.subOn m a.limbs b.limbs = .ok (Magnitude.sub a.limbs b.limbs) :=
  subOn_eq hm ha.limbs hb.limbs (length_le_of_value_le hb.limbs ha.limbs hb.stripped ha.stripped hle) hle

theorem addOn_eq : addOn m a b = .ok (a.add b) := by
  unfold addOn add
  by_cases sa : a.sign = 0
  · rw [if_pos sa, if_pos sa]
  · rw [if_neg sa, if_neg sa]
    by_cases sb : b.sign = 0
    · rw [if_pos sb, if_pos sb]
    · rw [if_neg sb, if_neg sb]
      by_cases hs : a.sign = b.sign
      · rw [if_pos hs, if_pos hs, Magnitude.addOn_eq hm ha.limbs hb.limbs]
        rfl
      · rw [if_neg hs, if_neg hs]
        have hcompare := compareMagnitude_eq ha hb
        cases hc : compareMagnitude a b with
        | eq => rfl
        | gt =>
          rw [hcompare, compare_gt_iff_gt] at hc
          simp only
          rw [subOn_eq_of_le hm ha hb hc.le]
          rfl
        | lt =>
          rw [hcompare, compare_lt_iff_lt] at hc
          simp only
          rw [subOn_eq_of_le hm hb ha hc.le]
          rfl

theorem subtractOn_eq : subtractOn m a b = .ok (a.subtract b) :=
  addOn_eq hm ha (negate_represents hb).canonical

theorem multiplyOn_eq : multiplyOn m a b = .ok (a.multiply b) := by
  unfold multiplyOn multiply
  split
  · rfl
  · rw [mulOn_eq hm ha.limbs hb.limbs]
    rfl

theorem divModOn_limbs (sb : b.sign ≠ 0) :
    Magnitude.divModOn m a.limbs b.limbs = .ok (Magnitude.divMod a.limbs b.limbs) :=
  divModOn_eq hm ha.limbs hb.limbs hb.stripped (hb.value_pos sb)

theorem divideOn_eq : divideOn m a b = .ok (a.divide b) := by
  unfold divideOn divide
  by_cases sb : b.sign = 0
  · rw [if_pos sb, if_pos sb]
  · rw [if_neg sb, if_neg sb, divModOn_limbs hm ha hb sb]
    split
    · rfl
    · rfl

theorem remainderOn_eq : remainderOn m a b = .ok (a.remainder b) := by
  unfold remainderOn remainder
  by_cases sb : b.sign = 0
  · rw [if_pos sb, if_pos sb]
  · rw [if_neg sb, if_neg sb, divModOn_limbs hm ha hb sb]
    split
    · rfl
    · rfl

end Exact

/-- On canonical operands of any length the five operations never stop, neither with integers that must stay in the
bounds nor with signed words of 64 bits, and they give what they give on integers of any size. -/
theorem arithmetic_fits_words {a b : Integer} (ha : a.Canonical) (hb : b.Canonical) :
    ∀ m ∈ [Machine.guarded, Machine.wrapping],
      addOn m a b = .ok (a.add b) ∧ subtractOn m a b = .ok (a.subtract b) ∧
      multiplyOn m a b = .ok (a.multiply b) ∧ divideOn m a b = .ok (a.divide b) ∧
      remainderOn m a b = .ok (a.remainder b) := by
  intro m hmem
  have hm : m.Exact := by
    rcases List.mem_pair.mp hmem with rfl | rfl
    · exact Machine.exact_guarded
    · exact Machine.exact_wrapping
  exact ⟨addOn_eq hm ha hb, subtractOn_eq hm ha hb, multiplyOn_eq hm ha hb, divideOn_eq hm ha hb,
    remainderOn_eq hm ha hb⟩

/-- Limbs as great as they can be, in a product, a difference and a quotient. -/
theorem arithmetic_fits_words_nines :
    ∃ a b : Integer, a.Canonical ∧ b.Canonical ∧ a.toInt = 999999999999999999 ∧ b.toInt = -999999999999999999 ∧
      multiplyOn .wrapping a b = .ok (a.multiply b) ∧ (a.multiply b).toInt = -999999999999999998000000000000000001 ∧
      subtractOn .guarded a b = .ok (a.subtract b) ∧ divideOn .guarded a b = .ok (a.divide b) := by
  have ha : (⟨1, [999999999, 999999999]⟩ : Integer).Canonical := by decide
  have hb : (⟨-1, [999999999, 999999999]⟩ : Integer).Canonical := by decide
  obtain ⟨-, hsubtract, -, hdivide, -⟩ := arithmetic_fits_words ha hb .guarded (by simp)
  obtain ⟨-, -, hmultiply, -, -⟩ := arithmetic_fits_words ha hb .wrapping (by simp)
  exact ⟨_, _, ha, hb, rfl, rfl, hmultiply, (multiply_represents ha hb).toInt.trans (by decide), hsubtract, hdivide⟩

end TreeScript.Integer
