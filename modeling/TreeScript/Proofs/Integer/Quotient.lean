/-
Division of magnitudes. The search by halving finds the largest digit that fits, a step of the long
division keeps the remainder stripped and below the divisor, and so the whole division gives the
quotient and the remainder of the values, whichever of its three ways it takes.
-/
import TreeScript.Proofs.Integer.Magnitude

namespace TreeScript.Magnitude

/-! ## Products with one limb -/

theorem value_mulCarry (m c : Int) (a : Magnitude) : value (mulCarry m c a) = value a * m + c := by
  induction a generalizing c with
  | nil =>
    unfold mulCarry
    by_cases hc : c = 0
    · simp [hc]
    · simp [hc]
  | cons x a ih =>
    have := Int.emod_add_mul_ediv (x * m + c) base
    rw [mulCarry, value_cons, ih, value_cons]
    linarith

theorem Limbs.mulCarry {m c : Int} {a : Magnitude} (h : Limbs a) (hm : 0 ≤ m ∧ m < base) (hc : 0 ≤ c ∧ c < base) :
    Limbs (mulCarry m c a) := by
  induction a generalizing c with
  | nil =>
    unfold Magnitude.mulCarry
    split
    · simp
    · simpa using hc
  | cons x a ih =>
    obtain ⟨hx, ha⟩ := (limbs_cons x a).1 h
    obtain ⟨h0, h1⟩ := digit_product_bounds ⟨le_rfl, base_pos⟩ hx hm hc
    rw [zero_add] at h0 h1
    unfold Magnitude.mulCarry
    rw [limbs_cons]
    constructor
    · exact emod_digit _
    · exact ih ha (ediv_digit h0 h1)

/-- A trimmed list times a limb other than zero is trimmed: the top limb is a carry, or the last cell
is no smaller than the top limb that it comes from. -/
theorem trim_mulCarry {m c : Int} {a : Magnitude} (h : Limbs a) (ht : trim a = a) (hm : 1 ≤ m) (hc : 0 ≤ c) :
    trim (mulCarry m c a) = mulCarry m c a := by
  induction a generalizing c with
  | nil =>
    unfold mulCarry
    by_cases h0 : c = 0
    · simp [h0]
    · rw [if_neg h0, trim_singleton h0]
  | cons x a ih =>
    obtain ⟨hx, ha⟩ := (limbs_cons x a).1 h
    have hcur : 0 ≤ x * m + c := add_nonneg (mul_nonneg hx.1 (by omega)) hc
    have hnext := Int.ediv_nonneg hcur base_pos.le
    rw [mulCarry, trim_cons]
    rcases trim_cons_eq_self ht with ⟨rfl, hx0⟩ | ⟨hne, hy⟩
    · have hxm : x ≤ x * m := le_mul_of_one_le_right hx.1 hm
      have hdiv := Int.emod_add_mul_ediv (x * m + c) base
      rw [mulCarry]
      by_cases hq : (x * m + c) / base = 0
      · -- Without a carry the cell holds the whole product.
        rw [hq] at hdiv
        rw [if_pos hq, trim_nil, if_pos rfl, if_neg (by omega)]
      · rw [if_neg hq, trim_singleton hq, if_neg (List.cons_ne_nil _ _)]
    · obtain ⟨y, b, rfl⟩ := List.exists_cons_of_ne_nil hne
      rw [ih ha hy hnext, mulCarry, if_neg (List.cons_ne_nil _ _)]

theorem value_mulSmall (a : Magnitude) (m : Int) : value (mulSmall a m) = value a * m := by
  unfold mulSmall
  by_cases h : m = 0
  · simp [h]
  · rw [if_neg h, value_mulCarry, add_zero]

theorem Limbs.mulSmall {a : Magnitude} {m : Int} (h : Limbs a) (hm : 0 ≤ m ∧ m < base) : Limbs (mulSmall a m) := by
  unfold Magnitude.mulSmall
  split
  · decide
  · exact h.mulCarry hm ⟨le_rfl, base_pos⟩

theorem stripped_mulSmall {a : Magnitude} {m : Int} (h : Limbs a) (hs : Stripped a) (ha : 0 < value a) (hm : 1 ≤ m) :
    Stripped (mulSmall a m) := by
  unfold mulSmall
  rw [if_neg (by omega)]
  rcases hs.trim with rfl | ht
  · simp at ha
  · apply stripped_of_trim (trim_mulCarry h ht hm le_rfl)
    obtain ⟨x, b, rfl⟩ := List.exists_cons_of_ne_nil hs.ne_nil
    simp [mulCarry]

/-! ## The digit of a quotient -/

section Digit

variable {b rem : Magnitude} (hb : Limbs b) (sb : Stripped b) (hpos : 0 < value b) (hr : Limbs rem)
  (sr : Stripped rem)

include hb sb hpos hr sr

/-- The test of the search compares values, because both of its lists are stripped. -/
theorem compare_mulSmall_gt {m : Int} (h1 : 1 ≤ m) (h2 : m < base) :
    compare (mulSmall b m) rem = .gt ↔ value rem < value b * m := by
  rw [compare_eq (hb.mulSmall ⟨by omega, h2⟩) hr (stripped_mulSmall hb sb hpos h1) sr, value_mulSmall]
  exact compare_gt_iff_gt

/-- A product that is not greater than the remainder can be taken from it. -/
theorem mulSmall_fits {m : Int} (h1 : 1 ≤ m) (h2 : m < base) (hle : value b * m ≤ value rem) :
    Limbs (mulSmall b m) ∧ (mulSmall b m).length ≤ rem.length ∧ value (mulSmall b m) ≤ value rem := by
  have hlimbs := hb.mulSmall (m := m) ⟨by omega, h2⟩
  have hvalue : value (mulSmall b m) ≤ value rem := by rwa [value_mulSmall]
  exact ⟨hlimbs, length_le_of_value_le hlimbs hr (stripped_mulSmall hb sb hpos h1) sr hvalue, hvalue⟩

theorem searchDigit_spec {lo hi : Int} (h1 : 1 ≤ lo) (hle : lo ≤ hi) (hhi : hi < base)
    (hlo : value b * lo ≤ value rem) (hup : value rem < value b * (hi + 1)) :
    lo ≤ searchDigit b rem lo hi ∧ searchDigit b rem lo hi ≤ hi ∧ value b * searchDigit b rem lo hi ≤ value rem ∧
      value rem < value b * (searchDigit b rem lo hi + 1) := by
  fun_induction searchDigit b rem lo hi with
  | case1 lo hi hlt mid hgt ih =>
    have hmid : lo < mid ∧ mid ≤ hi := by omega
    rw [compare_mulSmall_gt hb sb hpos hr sr (by omega) (by omega)] at hgt
    obtain ⟨i1, i2, i3, i4⟩ := ih h1 (by omega) (by omega) hlo (by rwa [sub_add_cancel])
    exact ⟨i1, by omega, i3, i4⟩
  | case2 lo hi hlt mid hgt ih =>
    have hmid : lo < mid ∧ mid ≤ hi := by omega
    rw [compare_mulSmall_gt hb sb hpos hr sr (by omega) (by omega), not_lt] at hgt
    obtain ⟨i1, i2, i3, i4⟩ := ih (by omega) hmid.2 hhi hgt hup
    exact ⟨by omega, i2, i3, i4⟩
  | case3 lo hi hlt =>
    obtain rfl : lo = hi := by omega
    exact ⟨le_rfl, le_rfl, hlo, hup⟩

/-- The digit is the quotient of the values, if that is a digit other than zero. -/
theorem quotientDigit_spec (hle : value b ≤ value rem) (hlt : value rem < value b * base) :
    1 ≤ quotientDigit b rem ∧ quotientDigit b rem < base ∧ value b * quotientDigit b rem ≤ value rem ∧
      value rem < value b * (quotientDigit b rem + 1) := by
  have hlo : value b * 1 ≤ value rem := by rwa [mul_one]
  have hup : value rem < value b * (base - 1 + 1) := by rwa [sub_add_cancel]
  obtain ⟨h1, h2, h3, h4⟩ := searchDigit_spec hb sb hpos hr sr le_rfl (by decide) (by decide) hlo hup
  unfold quotientDigit
  exact ⟨h1, by omega, h3, h4⟩

end Digit

/-! ## Quotient and remainder -/

/-- The limbs `q` and `r` are the quotient and the remainder of `a` and `b`. -/
structure Quotient (a b q r : Magnitude) : Prop where
  value : value a = value q * value b + value r
  quotient : Limbs q
  remainder : Limbs r
  stripped : Stripped r
  lt : Magnitude.value r < Magnitude.value b

theorem value_divSmall (d : Int) (a : Magnitude) : value a = value (divSmall d a).1 * d + (divSmall d a).2 := by
  induction a with
  | nil => simp [divSmall]
  | cons x a ih =>
    have := Int.emod_add_mul_ediv ((divSmall d a).2 * base + x) d
    rw [divSmall, value_cons, value_cons, ih]
    linarith

theorem divSmall_bounds {d : Int} (hd : 0 < d) (a : Magnitude) : 0 ≤ (divSmall d a).2 ∧ (divSmall d a).2 < d := by
  cases a with
  | nil => exact ⟨le_rfl, hd⟩
  | cons x a => exact ⟨Int.emod_nonneg _ hd.ne', Int.emod_lt_of_pos _ hd⟩

/-- The next limb comes down to a remainder of one limb. -/
theorem bringDown_bounds {d rem x : Int} (hrem : 0 ≤ rem ∧ rem < d) (hx : 0 ≤ x ∧ x < base) :
    0 ≤ rem * base + x ∧ rem * base + x < base * d := by
  constructor
  · exact add_nonneg (mul_nonneg hrem.1 base_pos.le) hx.1
  · have := mul_le_mul_of_nonneg_right (Int.add_one_le_of_lt hrem.2) base_pos.le
    rw [add_mul, one_mul, mul_comm d] at this
    omega

theorem Limbs.divSmall {d : Int} {a : Magnitude} (hd : 0 < d) (h : Limbs a) : Limbs (divSmall d a).1 := by
  induction a with
  | nil => exact limbs_nil
  | cons x a ih =>
    obtain ⟨hx, ha⟩ := (limbs_cons x a).1 h
    obtain ⟨hcur, hlt⟩ := bringDown_bounds (divSmall_bounds hd a) hx
    rw [Magnitude.divSmall, limbs_cons]
    constructor
    · exact ⟨Int.ediv_nonneg hcur hd.le, Int.ediv_lt_of_lt_mul hd hlt⟩
    · exact ih ha

/-- The next limb comes down: the remainder stays below the divisor times the base. -/
theorem value_bringDown_lt {b r : Magnitude} {x : Int} (hx : x < base) (hlt : value r < value b) :
    value (strip (x :: r)) < value b * base := by
  have : base * (value r + 1) ≤ base * value b := mul_le_mul_of_nonneg_left hlt base_pos.le
  rw [value_strip, value_cons, mul_comm (value b)]
  rw [mul_add, mul_one] at this
  omega

theorem divLong_cons (b : Magnitude) (x : Int) (a : Magnitude) :
    divLong b (x :: a) =
      if compare (strip (x :: (divLong b a).2)) b = .lt then (0 :: (divLong b a).1, strip (x :: (divLong b a).2))
      else (quotientDigit b (strip (x :: (divLong b a).2)) :: (divLong b a).1,
        sub (strip (x :: (divLong b a).2))
          (mulSmall b (quotientDigit b (strip (x :: (divLong b a).2))))) := rfl

theorem divLong_spec {a b : Magnitude} (ha : Limbs a) (hb : Limbs b) (sb : Stripped b) (hpos : 0 < value b) :
    Quotient a b (divLong b a).1 (divLong b a).2 := by
  induction a with
  | nil =>
    have h0 : Limbs [0] := by decide
    exact ⟨by simp [divLong], limbs_nil, h0, rfl, by simpa [divLong] using hpos⟩
  | cons x a ih =>
    obtain ⟨hx, ha⟩ := (limbs_cons x a).1 ha
    obtain ⟨hv, hq, hr, -, hlt⟩ := ih ha
    rw [divLong_cons]
    generalize (divLong b a).1 = q at hv hq
    generalize (divLong b a).2 = r at hv hr hlt
    have hr' : Limbs (strip (x :: r)) := ((limbs_cons x r).2 ⟨hx, hr⟩).strip
    have sr' := stripped_strip (x :: r)
    have hv' : value (strip (x :: r)) = x + base * value r := by rw [value_strip, value_cons]
    have hup := value_bringDown_lt hx.2 hlt
    generalize strip (x :: r) = rem at hr' sr' hv' hup
    by_cases hc : compare rem b = .lt
    · rw [if_pos hc]
      rw [compare_eq hr' hb sr' sb, compare_lt_iff_lt] at hc
      refine ⟨?_, (limbs_cons 0 q).2 ⟨⟨le_rfl, base_pos⟩, hq⟩, hr', sr', hc⟩
      rw [value_cons, value_cons, hv, hv']
      ring
    · rw [if_neg hc]
      rw [compare_eq hr' hb sr' sb, compare_lt_iff_lt, not_lt] at hc
      obtain ⟨d1, d2, d3, d4⟩ := quotientDigit_spec hb sb hpos hr' sr' hc hup
      generalize quotientDigit b rem = d at d1 d2 d3 d4
      obtain ⟨hbd, hlen, hle⟩ := mulSmall_fits hb sb hpos hr' sr' d1 d2 d3
      have hsub : value (sub rem (mulSmall b d)) = value rem - value b * d := by
        rw [value_sub hr' hbd hlen hle, value_mulSmall]
      refine ⟨?_, (limbs_cons d q).2 ⟨⟨by omega, d2⟩, hq⟩, hr'.sub hbd, stripped_sub _ _, ?_⟩
      · rw [value_cons, value_cons, hsub, hv, hv']
        ring
      · rw [hsub]
        rw [mul_add, mul_one] at d4
        omega

/-- Division of stripped magnitudes by one other than zero. -/
theorem divMod_spec {a b : Magnitude} (ha : Limbs a) (hb : Limbs b) (sa : Stripped a) (sb : Stripped b)
    (hpos : 0 < value b) : Quotient a b (divMod a b).1 (divMod a b).2 := by
  unfold divMod
  by_cases hc : compare a b = .lt
  · rw [if_pos hc]
    rw [compare_eq ha hb sa sb, compare_lt_iff_lt] at hc
    have h0 : Limbs [0] := by decide
    exact ⟨by simp, h0, ha, sa, hc⟩
  · rw [if_neg hc]
    split
    · rename_i d
      have hd : 0 < d := by simpa using hpos
      have hdb := ((limbs_cons d []).1 hb).1.2
      obtain ⟨h0, h1⟩ := divSmall_bounds hd a
      refine ⟨?_, (ha.divSmall hd).strip, (limbs_cons _ _).2 ⟨⟨h0, by omega⟩, limbs_nil⟩, ?_, by simpa using h1⟩
      · rw [value_strip]
        simpa using value_divSmall d a
      · unfold Stripped
        rw [strip_eq, trim_cons, trim_nil, if_pos rfl]
        split <;> simp_all
    · obtain ⟨hv, hq, hr, sr, hlt⟩ := divLong_spec ha hb sb hpos
      exact ⟨by rw [value_strip]; exact hv, hq.strip, hr, sr, hlt⟩

end TreeScript.Magnitude
