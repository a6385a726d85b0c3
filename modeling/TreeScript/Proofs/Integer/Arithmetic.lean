/-
Arithmetic on canonical integers is exact: each operation gives the canonical integer of the sum,
the difference, the product, the quotient cut off toward zero, or the remainder with the sign of the
dividend. The check of sign and limbs lets every integer pass that an operation builds.
-/
import TreeScript.Integer.Basic
import TreeScript.Proofs.Integer.Quotient

namespace TreeScript.Integer

open Magnitude

/-! ## The canonical form -/

instance (a : Integer) : Decidable a.Canonical :=
  decidable_of_iff
    (Limbs a.limbs ∧ strip a.limbs = a.limbs ∧ (a.sign = 0 ∨ a.sign = 1 ∨ a.sign = -1) ∧
      (a.sign = 0 ↔ a.limbs = [0]))
    ⟨fun ⟨l, s, g, z⟩ => ⟨l, s, g, z⟩, fun h => ⟨h.limbs, h.stripped, h.sign, h.zero⟩⟩

theorem Canonical.value_pos {a : Integer} (h : a.Canonical) (hs : a.sign ≠ 0) : 0 < a.limbs.value := by
  have h0 : a.limbs.value ≠ 0 := by
    intro h0
    apply hs
    rw [h.zero, Stripped.eq_zero_iff h.stripped h.limbs]
    exact h0
  have := value_nonneg h.limbs
  omega

theorem Canonical.sign_eq {a : Integer} (h : a.Canonical) : a.sign = a.toInt.sign := by
  unfold toInt
  rcases h.sign with hs | hs | hs
  · simp [hs]
  · have := h.value_pos (by omega)
    rw [hs, one_mul, Int.sign_eq_one_of_pos this]
  · have := h.value_pos (by omega)
    rw [hs, Int.sign_eq_neg_one_of_neg (by omega)]

theorem Canonical.sign_eq_zero {a : Integer} (h : a.Canonical) : a.sign = 0 ↔ a.toInt = 0 := by
  rw [h.sign_eq, Int.sign_eq_zero_iff_zero]

/-- A canonical integer passes the check of its parts. -/
theorem Canonical.ofParts {a : Integer} (h : a.Canonical) : ofParts a.sign a.limbs = .ok a := by
  have hne : a.limbs ≠ [] := Stripped.ne_nil h.stripped
  unfold Integer.ofParts
  rw [if_neg (by have := h.sign; omega), if_neg hne]
  by_cases hs : a.sign = 0
  · rw [if_pos hs, if_pos (h.zero.1 hs)]
  · rw [if_neg hs]
    rcases Stripped.trim h.stripped with h0 | ht
    · exact absurd (h.zero.2 h0) hs
    · rw [if_neg (getLast?_ne_zero ht)]

/-- The canonical integer of a value. -/
structure Represents (a : Integer) (n : Int) : Prop where
  canonical : a.Canonical
  toInt : a.toInt = n

theorem zero_represents : zero.Represents 0 := ⟨by decide, rfl⟩

theorem normalize_represents {sign : Int} {limbs : Magnitude} (h : Limbs limbs) (hs : sign = 1 ∨ sign = -1) :
    (normalize sign limbs).Represents (sign * limbs.value) := by
  have hv := value_strip limbs
  unfold normalize
  simp only
  by_cases h0 : strip limbs = [0]
  · rw [if_pos h0]
    rw [h0] at hv
    rw [← hv]
    simpa using zero_represents
  · rw [if_neg h0]
    refine ⟨⟨h.strip, stripped_strip _, .inr hs, ?_⟩, ?_⟩
    · constructor
      · intro h1
        simp only at h1; omega
      · intro h1
        exact absurd h1 h0
    · rw [← hv]; rfl

/-- The limbs of a number. -/
def limbsOf (n : Nat) : Magnitude :=
  if n < 1000000000 then [(n : Int)] else ((n % 1000000000 : Nat) : Int) :: limbsOf (n / 1000000000)

theorem limbsOf_spec (n : Nat) : Limbs (limbsOf n) ∧ value (limbsOf n) = n := by
  induction n using limbsOf.induct with
  | case1 n h =>
    rw [limbsOf, if_pos h, limbs_cons, value_cons, value_nil]
    exact ⟨⟨by unfold base; omega, limbs_nil⟩, by ring⟩
  | case2 n h ih =>
    rw [limbsOf, if_neg h, limbs_cons, value_cons, ih.2]
    exact ⟨⟨by unfold base; omega, ih.1⟩, by unfold base; omega⟩

/-- The canonical integer of a value, made of limbs and not of digits. -/
def ofInt (n : Int) : Integer := normalize (if n < 0 then -1 else 1) (limbsOf n.natAbs)

theorem ofInt_represents (n : Int) : (ofInt n).Represents n := by
  obtain ⟨hlimbs, hvalue⟩ := limbsOf_spec n.natAbs
  unfold ofInt
  split
  · have h := normalize_represents hlimbs (.inr rfl)
    rwa [hvalue, show -1 * (n.natAbs : Int) = n by omega] at h
  · have h := normalize_represents hlimbs (.inl rfl)
    rwa [hvalue, show 1 * (n.natAbs : Int) = n by omega] at h

/-! ## Sum, difference and product -/

theorem negate_represents {a : Integer} (ha : a.Canonical) : a.negate.Represents (-a.toInt) := by
  unfold negate
  by_cases hs : a.sign = 0
  · have := ha.sign_eq_zero.1 hs
    rw [if_pos hs]
    exact ⟨ha, by omega⟩
  · rw [if_neg hs]
    refine ⟨⟨ha.limbs, ha.stripped, ?_, ?_⟩, ?_⟩
    · have := ha.sign
      simp only; omega
    · have := ha.zero
      simp only [neg_eq_zero]; exact this
    · unfold Integer.toInt
      simp only; ring

/-- Of two canonical integers the magnitudes compare as the absolute values do. -/
theorem compareMagnitude_eq {a b : Integer} (ha : a.Canonical) (hb : b.Canonical) :
    compareMagnitude a b = Ord.compare a.limbs.value b.limbs.value :=
  compare_eq ha.limbs hb.limbs ha.stripped hb.stripped

/-- Taking the smaller magnitude from the larger one leaves the sign of the larger. -/
theorem normalize_sub_represents {a b : Integer} (ha : a.Canonical) (hb : b.Canonical) (hs : a.sign ≠ 0)
    (hle : b.limbs.value ≤ a.limbs.value) :
    (normalize a.sign (Magnitude.sub a.limbs b.limbs)).Represents (a.sign * (a.limbs.value - b.limbs.value)) := by
  have hlen := length_le_of_value_le hb.limbs ha.limbs hb.stripped ha.stripped hle
  rw [← value_sub ha.limbs hb.limbs hlen hle]
  exact normalize_represents (ha.limbs.sub hb.limbs) (ha.sign.resolve_left hs)

theorem add_represents {a b : Integer} (ha : a.Canonical) (hb : b.Canonical) :
    (a.add b).Represents (a.toInt + b.toInt) := by
  unfold add
  by_cases sa : a.sign = 0
  · rw [if_pos sa]
    exact ⟨hb, by rw [ha.sign_eq_zero.1 sa, zero_add]⟩
  · rw [if_neg sa]
    by_cases sb : b.sign = 0
    · rw [if_pos sb]
      exact ⟨ha, by rw [hb.sign_eq_zero.1 sb, add_zero]⟩
    · rw [if_neg sb]
      by_cases hs : a.sign = b.sign
      · have := normalize_represents (ha.limbs.add hb.limbs) (ha.sign.resolve_left sa)
        rw [value_add, mul_add] at this
        unfold toInt
        rw [if_pos hs]
        rwa [← hs]
      · rw [if_neg hs]
        -- The signs are opposite, so the sum has the sign of the greater magnitude.
        have hopp : b.sign = -a.sign := by have := ha.sign; have := hb.sign; omega
        have hsum : a.toInt + b.toInt = a.sign * (a.limbs.value - b.limbs.value) := by
          unfold toInt; rw [hopp]; ring
        rw [compareMagnitude_eq ha hb, hsum]
        split
        · rename_i hc
          rw [compare_eq_iff_eq.1 hc, sub_self, mul_zero]
          exact zero_represents
        · rename_i hc
          exact normalize_sub_represents ha hb sa (compare_gt_iff_gt.1 hc).le
        · rename_i hc
          have := normalize_sub_represents hb ha sb (compare_lt_iff_lt.1 hc).le
          rwa [show a.sign * (a.limbs.value - b.limbs.value) = b.sign * (b.limbs.value - a.limbs.value) by
            rw [hopp]; ring]

theorem subtract_represents {a b : Integer} (ha : a.Canonical) (hb : b.Canonical) :
    (a.subtract b).Represents (a.toInt - b.toInt) := by
  have hn := negate_represents hb
  have := add_represents ha hn.canonical
  rwa [hn.toInt, ← sub_eq_add_neg] at this

theorem sign_mul_cases {a b : Integer} (ha : a.Canonical) (hb : b.Canonical) (sa : a.sign ≠ 0) (sb : b.sign ≠ 0) :
    a.sign * b.sign = 1 ∨ a.sign * b.sign = -1 := by
  rcases ha.sign.resolve_left sa with h | h <;> rcases hb.sign.resolve_left sb with h' | h' <;> simp [h, h']

theorem multiply_represents {a b : Integer} (ha : a.Canonical) (hb : b.Canonical) :
    (a.multiply b).Represents (a.toInt * b.toInt) := by
  unfold multiply
  by_cases hs : a.sign = 0 ∨ b.sign = 0
  · rw [if_pos hs]
    rcases hs with hs | hs
    · rw [ha.sign_eq_zero.1 hs, zero_mul]; exact zero_represents
    · rw [hb.sign_eq_zero.1 hs, mul_zero]; exact zero_represents
  · rw [if_neg hs]
    rw [not_or] at hs
    have := normalize_represents (ha.limbs.mul hb.limbs) (sign_mul_cases ha hb hs.1 hs.2)
    rw [value_mul] at this
    rwa [show a.toInt * b.toInt = a.sign * b.sign * (a.limbs.value * b.limbs.value) by unfold toInt; ring]

/-- Negation, sum, difference and product of canonical integers are canonical and exact, and every integer
that is built on the way passes the check of its parts. -/
theorem ring_operations_exact {a b : Integer} (ha : a.Canonical) (hb : b.Canonical) :
    ((a.add b).Canonical ∧ (a.add b).toInt = a.toInt + b.toInt) ∧
    ((a.subtract b).Canonical ∧ (a.subtract b).toInt = a.toInt - b.toInt) ∧
    ((a.multiply b).Canonical ∧ (a.multiply b).toInt = a.toInt * b.toInt) ∧
    (a.negate.Canonical ∧ a.negate.toInt = -a.toInt) ∧
    ∀ r ∈ [a.negate, b.negate, a.add b, a.subtract b, a.multiply b], Integer.ofParts r.sign r.limbs = .ok r := by
  have h1 := add_represents ha hb
  have h2 := subtract_represents ha hb
  have h3 := multiply_represents ha hb
  have h4 := negate_represents ha
  refine ⟨⟨h1.canonical, h1.toInt⟩, ⟨h2.canonical, h2.toInt⟩, ⟨h3.canonical, h3.toInt⟩,
    ⟨h4.canonical, h4.toInt⟩, ?_⟩
  intro r hr
  simp only [List.mem_cons, List.not_mem_nil, or_false] at hr
  rcases hr with rfl | rfl | rfl | rfl | rfl
  · exact h4.canonical.ofParts
  · exact (negate_represents hb).canonical.ofParts
  · exact h1.canonical.ofParts
  · exact h2.canonical.ofParts
  · exact h3.canonical.ofParts

/-- A sum that carries into a new limb and a product of unlike signs. -/
theorem ring_operations_exact_nines :
    ∃ a b : Integer, a.Canonical ∧ b.Canonical ∧ a.toInt = 999999999999999999 ∧ b.toInt = -1 ∧
      (a.subtract b).Canonical ∧ (a.subtract b).toInt = 1000000000000000000 ∧
      (a.subtract b).limbs = [0, 0, 1] ∧ (a.multiply b).toInt = -999999999999999999 := by
  have ha : (⟨1, [999999999, 999999999]⟩ : Integer).Canonical := by decide
  have hb : (⟨-1, [1]⟩ : Integer).Canonical := by decide
  obtain ⟨-, ⟨hc, hs⟩, ⟨-, hm⟩, -⟩ := ring_operations_exact ha hb
  exact ⟨_, _, ha, hb, rfl, rfl, hc, hs.trans (by decide), by decide, hm.trans (by decide)⟩

/-! ## Quotient and remainder -/

/-- Quotient and remainder of magnitudes, with the product of the signs and the sign of the dividend, are
what division cut off toward zero gives. -/
theorem tdiv_tmod_eq {a b : Integer} {q r : Magnitude} (ha : a.Canonical) (hb : b.Canonical) (sa : a.sign ≠ 0)
    (sb : b.sign ≠ 0) (h : Quotient a.limbs b.limbs q r) :
    a.toInt.tdiv b.toInt = a.sign * b.sign * q.value ∧ a.toInt.tmod b.toInt = a.sign * r.value := by
  have hpos := hb.value_pos sb
  have hr := value_nonneg h.remainder
  have hb2 : b.sign * b.sign = 1 := by rcases hb.sign.resolve_left sb with h | h <;> simp [h]
  have hne : b.toInt ≠ 0 := by
    rwa [ne_eq, ← hb.sign_eq_zero]
  have habs : (b.toInt.natAbs : Int) = b.limbs.value := by
    unfold toInt
    rcases hb.sign.resolve_left sb with h | h <;> rw [h] <;> omega
  have hsum : a.sign * r.value + b.toInt * (a.sign * b.sign * q.value) = a.toInt := by
    unfold toInt
    calc a.sign * r.value + b.sign * b.limbs.value * (a.sign * b.sign * q.value)
        = a.sign * (b.sign * b.sign * (q.value * b.limbs.value) + r.value) := by ring
      _ = a.sign * a.limbs.value := by rw [hb2, one_mul, ← h.value]
  have hlt := h.lt
  rcases ha.sign.resolve_left sa with hs | hs
  · refine (Int.tdiv_tmod_unique ?_ hne).2 ⟨hsum, ?_, ?_⟩
    · have := value_nonneg ha.limbs
      unfold toInt; rw [hs]; omega
    · rw [hs]; omega
    · rw [hs, habs]; omega
  · refine (Int.tdiv_tmod_unique' ?_ hne).2 ⟨hsum, ?_, ?_⟩
    · have := value_nonneg ha.limbs
      unfold toInt; rw [hs]; omega
    · rw [hs, habs]; omega
    · rw [hs]; omega

theorem divide_represents {a b : Integer} (ha : a.Canonical) (hb : b.Canonical) (h : b.toInt ≠ 0) :
    ∃ q, a.divide b = .ok q ∧ q.Represents (a.toInt.tdiv b.toInt) := by
  have sb : b.sign ≠ 0 := by
    rwa [ne_eq, hb.sign_eq_zero]
  unfold divide
  rw [if_neg sb]
  by_cases sa : a.sign = 0
  · rw [if_pos sa, ha.sign_eq_zero.1 sa, Int.zero_tdiv]
    exact ⟨_, rfl, zero_represents⟩
  · rw [if_neg sa]
    have hq := divMod_spec ha.limbs hb.limbs ha.stripped hb.stripped (hb.value_pos sb)
    rw [(tdiv_tmod_eq ha hb sa sb hq).1]
    exact ⟨_, rfl, normalize_represents hq.quotient (sign_mul_cases ha hb sa sb)⟩

theorem remainder_represents {a b : Integer} (ha : a.Canonical) (hb : b.Canonical) (h : b.toInt ≠ 0) :
    ∃ r, a.remainder b = .ok r ∧ r.Represents (a.toInt.tmod b.toInt) := by
  have sb : b.sign ≠ 0 := by
    rwa [ne_eq, hb.sign_eq_zero]
  unfold remainder
  rw [if_neg sb]
  by_cases sa : a.sign = 0
  · rw [if_pos sa, ha.sign_eq_zero.1 sa, Int.zero_tmod]
    exact ⟨_, rfl, zero_represents⟩
  · rw [if_neg sa]
    have hq := divMod_spec ha.limbs hb.limbs ha.stripped hb.stripped (hb.value_pos sb)
    rw [(tdiv_tmod_eq ha hb sa sb hq).2]
    exact ⟨_, rfl, normalize_represents hq.remainder (ha.sign.resolve_left sa)⟩

theorem divide_by_zero {a b : Integer} (hb : b.Canonical) (h : b.toInt = 0) :
    a.divide b = .error .divisionByZero := by
  unfold divide
  rw [if_pos (hb.sign_eq_zero.2 h)]

theorem remainder_by_zero {a b : Integer} (hb : b.Canonical) (h : b.toInt = 0) :
    a.remainder b = .error .divisionByZero := by
  unfold remainder
  rw [if_pos (hb.sign_eq_zero.2 h)]

/-- Division fails exactly for the divisor zero; otherwise quotient and remainder are canonical, give the
dividend back, and the remainder is smaller than the divisor and has the sign of the dividend. -/
theorem divide_remainder_exact {a b : Integer} (ha : a.Canonical) (hb : b.Canonical) :
    (b.toInt ≠ 0 → ∃ q r, a.divide b = .ok q ∧ a.remainder b = .ok r ∧ q.Canonical ∧ r.Canonical ∧
      q.toInt * b.toInt + r.toInt = a.toInt ∧ |r.toInt| < |b.toInt| ∧ (r.toInt = 0 ∨ r.sign = a.sign) ∧
      q.toInt = a.toInt.tdiv b.toInt ∧ r.toInt = a.toInt.tmod b.toInt) ∧
    (a.divide b = .error .divisionByZero ↔ b.toInt = 0) ∧
    (a.remainder b = .error .divisionByZero ↔ b.toInt = 0) := by
  refine ⟨?_, ?_, ?_⟩
  · intro h
    obtain ⟨q, hq, cq, vq⟩ := divide_represents ha hb h
    obtain ⟨r, hr, cr, vr⟩ := remainder_represents ha hb h
    refine ⟨q, r, hq, hr, cq, cr, ?_, ?_, ?_, vq, vr⟩
    · rw [vq, vr, Int.tdiv_mul_add_tmod]
    · rw [vr, Int.abs_eq_natAbs, Int.abs_eq_natAbs, Int.natAbs_tmod]
      exact_mod_cast Nat.mod_lt _ (Int.natAbs_pos.2 h)
    · rw [cr.sign_eq, ha.sign_eq, vr, Int.sign_tmod]
      by_cases hd : b.toInt ∣ a.toInt
      · left; exact Int.tmod_eq_zero_of_dvd hd
      · right; rw [if_neg hd]
  · constructor
    · intro he
      by_contra h
      obtain ⟨q, hq, -⟩ := divide_represents ha hb h
      rw [hq] at he; cases he
    · intro h
      unfold divide
      rw [if_pos (hb.sign_eq_zero.2 h)]
  · constructor
    · intro he
      by_contra h
      obtain ⟨r, hr, -⟩ := remainder_represents ha hb h
      rw [hr] at he; cases he
    · intro h
      unfold remainder
      rw [if_pos (hb.sign_eq_zero.2 h)]

/-- A negative dividend and a divisor of two limbs: `-(10^9 + 7) * (10^9 - 7) = 49 - 10^18`. -/
theorem divide_remainder_exact_two_limbs :
    ∃ a b q r : Integer, a.Canonical ∧ b.Canonical ∧ a.toInt = -1000000000000000000 ∧ b.toInt = 1000000007 ∧
      a.divide b = .ok q ∧ a.remainder b = .ok r ∧ q.toInt = -999999993 ∧ r.toInt = -49 := by
  have ha : (⟨-1, [0, 0, 1]⟩ : Integer).Canonical := by decide
  have hb : (⟨1, [7, 1]⟩ : Integer).Canonical := by decide
  obtain ⟨q, r, hq, hr, -, -, -, -, -, vq, vr⟩ := (divide_remainder_exact ha hb).1 (by decide)
  exact ⟨_, _, q, r, ha, hb, rfl, rfl, hq, hr, vq.trans (by decide), vr.trans (by decide)⟩

end TreeScript.Integer
