/-
The order of canonical integers. Two of them are compared by sign, by the count of limbs and by the limbs from the top
on, and they are equal if they have the same sign and the same limbs. Both decide what holds of the integers that are
meant, and keys that are integers are found by their values.
-/
import TreeScript.Proofs.Integer.Decimal

namespace TreeScript.Integer

open Magnitude

variable {a b : Integer}

/-! ## Comparing -/

/-- The limbs of a canonical integer are those of its absolute value. -/
theorem Canonical.abs_toInt (h : a.Canonical) : |a.toInt| = a.limbs.value := by
  have hvalue := value_nonneg h.limbs
  unfold toInt
  rcases h.sign with hs | hs | hs
  · have hzero := h.sign_eq_zero.mp hs
    unfold toInt at hzero
    have hlimbs := (Stripped.eq_zero_iff h.stripped h.limbs).mp (h.zero.mp hs)
    rw [hzero, hlimbs, abs_zero]
  · rw [hs, one_mul, abs_of_nonneg hvalue]
  · rw [hs, neg_one_mul, abs_neg, abs_of_nonneg hvalue]

/-- Magnitudes compare as the absolute values do. -/
theorem compareMagnitude_eq_abs (ha : a.Canonical) (hb : b.Canonical) :
    a.compareMagnitude b = Ord.compare |a.toInt| |b.toInt| := by
  rw [compareMagnitude_eq ha hb, ha.abs_toInt, hb.abs_toInt]

/-- The one with the lesser sign is the lesser one. -/
theorem Canonical.lt_of_sign_lt (ha : a.Canonical) (hb : b.Canonical) (h : a.sign < b.sign) : a.toInt < b.toInt := by
  have hvalue := value_nonneg hb.limbs
  unfold toInt
  rcases ha.sign with hsa | hsa | hsa
  · have hsb : b.sign = 1 := by
      have := hb.sign
      omega
    have hpos := hb.value_pos (by omega)
    rw [hsa, hsb]
    omega
  · -- No sign is greater than that of a positive number.
    have := hb.sign
    omega
  · have hpos := ha.value_pos (by omega)
    rcases hb.sign with hsb | hsb | hsb
    · rw [hsa, hsb]
      omega
    · rw [hsa, hsb]
      omega
    · omega

/-- Negative numbers are in the opposite order. -/
theorem swap_compare (m n : Int) : (Ord.compare m n).swap = Ord.compare (-m) (-n) := by
  rcases lt_trichotomy m n with h | h | h
  · rw [compare_lt_iff_lt.mpr h, compare_gt_iff_gt.mpr (neg_lt_neg h)]
    rfl
  · rw [h, compare_eq_iff_eq.mpr rfl, compare_eq_iff_eq.mpr rfl]
    rfl
  · rw [compare_gt_iff_gt.mpr h, compare_lt_iff_lt.mpr (neg_lt_neg h)]
    rfl

/-- Canonical integers compare as the integers that they stand for. -/
theorem compare_eq_compare_toInt (ha : a.Canonical) (hb : b.Canonical) :
    a.compare b = Ord.compare a.toInt b.toInt := by
  unfold compare
  by_cases hs : a.sign = b.sign
  · rw [if_neg (not_not.mpr hs), compareMagnitude_eq ha hb]
    -- Of two integers with one sign the magnitudes decide.
    unfold toInt
    rw [← hs]
    rcases ha.sign with h | h | h
    · rw [h, if_pos rfl, zero_mul, zero_mul]
      rfl
    · rw [h, if_neg one_ne_zero, if_neg (by decide), one_mul, one_mul]
    · rw [h, if_neg (by decide), if_pos (by decide), neg_one_mul, neg_one_mul, swap_compare]
  · rw [if_pos hs]
    rcases lt_or_gt_of_ne hs with hlt | hgt
    · rw [if_pos hlt, compare_lt_iff_lt.mpr (ha.lt_of_sign_lt hb hlt)]
    · rw [if_neg (not_lt.mpr hgt.le), compare_gt_iff_gt.mpr (hb.lt_of_sign_lt ha hgt)]

/-- What the ordering operators make of a comparison holds of the integers that are meant. -/
theorem compare_operators (ha : a.Canonical) (hb : b.Canonical) :
    (a.compare b == .lt) = decide (a.toInt < b.toInt) ∧ (a.compare b != .gt) = decide (a.toInt ≤ b.toInt) ∧
      (a.compare b == .gt) = decide (a.toInt > b.toInt) ∧ (a.compare b != .lt) = decide (a.toInt ≥ b.toInt) := by
  rw [compare_eq_compare_toInt ha hb]
  rcases lt_trichotomy a.toInt b.toInt with h | h | h
  · rw [compare_lt_iff_lt.mpr h]
    simp [h, h.le, h.not_gt]
  · rw [compare_eq_iff_eq.mpr h, h]
    simp
  · rw [compare_gt_iff_gt.mpr h]
    simp [h, h.le, h.not_gt]

/-! ## Equality -/

/-- Each integer has one canonical form. -/
theorem eq_iff_toInt_eq (ha : a.Canonical) (hb : b.Canonical) : a = b ↔ a.toInt = b.toInt := by
  constructor
  · rintro rfl
    rfl
  · intro h
    exact Represents.unique ⟨ha, h⟩ ⟨hb, rfl⟩

theorem beq_eq_decide (ha : a.Canonical) (hb : b.Canonical) : (a == b) = decide (a.toInt = b.toInt) := by
  rw [Bool.beq_eq_decide_eq, decide_eq_decide]
  exact eq_iff_toInt_eq ha hb

/-- What is entered under integers is found by their values. -/
theorem lookup_eq_lookup_toInt {α : Type} {entries : List (Integer × α)}
    (hentries : ∀ entry ∈ entries, entry.1.Canonical) (hb : b.Canonical) :
    entries.lookup b = (entries.map fun entry => (entry.1.toInt, entry.2)).lookup b.toInt := by
  induction entries with
  | nil => rfl
  | cons entry rest ih =>
    obtain ⟨hentry, hrest⟩ := List.forall_mem_cons.mp hentries
    rw [List.map_cons, List.lookup_cons, List.lookup_cons, ih hrest, beq_eq_decide hb hentry]
    rfl

end TreeScript.Integer
