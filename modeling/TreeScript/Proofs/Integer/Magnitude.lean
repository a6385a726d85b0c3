/-
What the operations on magnitudes mean for their values: sum, difference and product are exact and
keep every limb a digit to the base, and on stripped lists the comparison of lengths and then of
limbs is the comparison of values. Where no limb can spoil it, an equation is stated for all lists,
also for those that hold no digits.
-/
import Mathlib.Tactic
import TreeScript.Integer.Magnitude

namespace TreeScript.Magnitude

/-! ## Limbs and values -/

theorem base_pos : 0 < base := by decide

@[simp] theorem value_nil : value [] = 0 := rfl

@[simp] theorem value_cons (x : Int) (a : Magnitude) : value (x :: a) = x + base * value a := rfl

/-- The lowest limb and the rest, also of a list that has none. -/
theorem value_headD (a : Magnitude) : value a = a.headD 0 + base * value a.tail := by
  cases a <;> simp

instance (a : Magnitude) : Decidable (Limbs a) := inferInstanceAs (Decidable (∀ x ∈ a, 0 ≤ x ∧ x < base))

@[simp] theorem limbs_nil : Limbs [] := by simp [Limbs]

@[simp] theorem limbs_cons (x : Int) (a : Magnitude) : Limbs (x :: a) ↔ (0 ≤ x ∧ x < base) ∧ Limbs a := by
  simp [Limbs]

theorem Limbs.headD {a : Magnitude} (h : Limbs a) : 0 ≤ a.headD 0 ∧ a.headD 0 < base := by
  cases a with
  | nil => exact ⟨le_rfl, base_pos⟩
  | cons x a =>
    rw [limbs_cons] at h
    exact h.1

theorem Limbs.tail {a : Magnitude} (h : Limbs a) : Limbs a.tail := by
  cases a with
  | nil => exact h
  | cons x a =>
    rw [limbs_cons] at h
    exact h.2

theorem limbs_replicate_zero (n : Nat) : Limbs (List.replicate n 0) := by
  intro x hx
  rw [List.eq_of_mem_replicate hx]
  exact ⟨le_rfl, base_pos⟩

theorem value_replicate_zero (n : Nat) : value (List.replicate n 0) = 0 := by
  induction n with
  | zero => rfl
  | succ n ih => rw [List.replicate_succ, value_cons, ih]; rfl

theorem value_nonneg {a : Magnitude} (h : Limbs a) : 0 ≤ value a := by
  induction a with
  | nil => exact le_rfl
  | cons x a ih =>
    obtain ⟨⟨h0, -⟩, ha⟩ := (limbs_cons x a).1 h
    have := mul_nonneg base_pos.le (ih ha)
    rw [value_cons]; omega

theorem value_lt_pow {a : Magnitude} (h : Limbs a) : value a < base ^ a.length := by
  induction a with
  | nil => decide
  | cons x a ih =>
    obtain ⟨⟨-, h1⟩, ha⟩ := (limbs_cons x a).1 h
    have : base * (value a + 1) ≤ base * base ^ a.length := mul_le_mul_of_nonneg_left (ih ha) base_pos.le
    rw [value_cons, List.length_cons, pow_succ', mul_add, mul_one] at *
    omega

/-! ## Leading zeros -/

@[simp] theorem trim_nil : trim [] = [] := rfl

theorem trim_cons (x : Int) (a : Magnitude) :
    trim (x :: a) = if trim a = [] then (if x = 0 then [] else [x]) else x :: trim a := by
  rw [trim]
  cases trim a <;> simp

theorem trim_singleton {x : Int} (h : x ≠ 0) : trim [x] = [x] := by
  rw [trim_cons, trim_nil, if_pos rfl, if_neg h]

theorem value_trim (a : Magnitude) : value (trim a) = value a := by
  induction a with
  | nil => rfl
  | cons x a ih =>
    rw [trim_cons, value_cons, ← ih]
    by_cases h : trim a = []
    · rw [if_pos h, h]
      by_cases hx : x = 0
      · simp [hx]
      · simp [hx]
    · rw [if_neg h, value_cons]

theorem Limbs.trim {a : Magnitude} (h : Limbs a) : Limbs (trim a) := by
  induction a with
  | nil => exact h
  | cons x a ih =>
    obtain ⟨hx, ha⟩ := (limbs_cons x a).1 h
    rw [trim_cons]
    split
    · split
      · simp
      · simpa using hx
    · rw [limbs_cons]
      exact ⟨hx, ih ha⟩

theorem trim_trim (a : Magnitude) : trim (trim a) = trim a := by
  induction a with
  | nil => rfl
  | cons x a ih =>
    rw [trim_cons]
    by_cases h : trim a = []
    · rw [if_pos h]
      by_cases hx : x = 0
      · rw [if_pos hx, trim_nil]
      · rw [if_neg hx, trim_singleton hx]
    · rw [if_neg h, trim_cons, ih, if_neg h]

/-- A list is trimmed if the limbs above the lowest are, and a single limb is not zero. -/
theorem trim_cons_eq_self {x : Int} {a : Magnitude} (h : trim (x :: a) = x :: a) :
    (a = [] ∧ x ≠ 0) ∨ (a ≠ [] ∧ trim a = a) := by
  rw [trim_cons] at h
  by_cases hne : trim a = []
  · rw [if_pos hne] at h
    by_cases hx : x = 0
    · simp [hx] at h
    · left
      simp [hx] at h
      exact ⟨h, hx⟩
  · right
    rw [if_neg hne] at h
    have ht : trim a = a := (List.cons.inj h).2
    rw [ht] at hne
    exact ⟨hne, ht⟩

/-- A trimmed list is at least the place value of its top limb. -/
theorem pow_le_value {x : Int} {a : Magnitude} (h : Limbs (x :: a)) (ht : trim (x :: a) = x :: a) :
    base ^ a.length ≤ value (x :: a) := by
  induction a generalizing x with
  | nil =>
    obtain ⟨⟨h0, -⟩, -⟩ := (limbs_cons x []).1 h
    rcases trim_cons_eq_self ht with ⟨-, hx⟩ | ⟨hne, -⟩
    · simp; omega
    · exact absurd rfl hne
  | cons y a ih =>
    obtain ⟨⟨h0, -⟩, ha⟩ := (limbs_cons x _).1 h
    rcases trim_cons_eq_self ht with ⟨h, -⟩ | ⟨-, hy⟩
    · cases h
    · have : base * base ^ a.length ≤ base * value (y :: a) := mul_le_mul_of_nonneg_left (ih ha hy) base_pos.le
      rw [value_cons x, List.length_cons, pow_succ']
      omega

theorem getLast?_ne_zero {a : Magnitude} (h : trim a = a) : a.getLast? ≠ some 0 := by
  induction a with
  | nil => simp
  | cons x a ih =>
    rcases trim_cons_eq_self h with ⟨rfl, hx⟩ | ⟨hne, ht⟩
    · simpa using hx
    · rw [List.getLast?_cons_of_ne_nil hne]
      exact ih ht

/-- The form of limbs without zeros on top, in which zero is one limb. -/
def Stripped (a : Magnitude) : Prop := strip a = a

instance (a : Magnitude) : Decidable (Stripped a) := inferInstanceAs (Decidable (strip a = a))

theorem strip_eq (a : Magnitude) : strip a = if trim a = [] then [0] else trim a := by
  unfold strip
  cases trim a <;> simp

theorem value_strip (a : Magnitude) : value (strip a) = value a := by
  rw [strip_eq, ← value_trim a]
  by_cases h : trim a = []
  · simp [h]
  · rw [if_neg h]

theorem Limbs.strip {a : Magnitude} (h : Limbs a) : Limbs (strip a) := by
  rw [strip_eq]
  split
  · decide
  · exact h.trim

theorem stripped_strip (a : Magnitude) : Stripped (strip a) := by
  unfold Stripped
  rw [strip_eq a]
  by_cases h : trim a = []
  · rw [if_pos h]; decide
  · rw [if_neg h, strip_eq, trim_trim, if_neg h]

theorem stripped_of_trim {a : Magnitude} (h : trim a = a) (hne : a ≠ []) : Stripped a := by
  unfold Stripped
  rw [strip_eq, h, if_neg hne]

theorem Stripped.ne_nil {a : Magnitude} (h : Stripped a) : a ≠ [] := by
  rintro rfl; cases h

/-- A stripped list is zero or trimmed. -/
theorem Stripped.trim {a : Magnitude} (h : Stripped a) : a = [0] ∨ trim a = a := by
  unfold Stripped at h
  rw [strip_eq] at h
  split at h
  · left; exact h.symm
  · right; exact h

theorem Stripped.eq_zero_iff {a : Magnitude} (hs : Stripped a) (ha : Limbs a) : a = [0] ↔ value a = 0 := by
  constructor
  · rintro rfl; rfl
  · intro hv
    rcases hs.trim with h | h
    · exact h
    · obtain ⟨x, b, rfl⟩ := List.exists_cons_of_ne_nil hs.ne_nil
      have := pow_le_value ha h
      have : 0 < base ^ b.length := pow_pos base_pos _
      omega

/-! ## Comparison -/

/-- Of two stripped lists the longer one is greater. -/
theorem value_lt_of_length_lt {a b : Magnitude} (ha : Limbs a) (hb : Limbs b) (sa : Stripped a) (sb : Stripped b)
    (h : a.length < b.length) : value a < value b := by
  have hpos : 0 < a.length := List.length_pos_of_ne_nil sa.ne_nil
  rcases sb.trim with rfl | ht
  · rw [List.length_singleton] at h; omega
  · obtain ⟨y, b, rfl⟩ := List.exists_cons_of_ne_nil sb.ne_nil
    rw [List.length_cons] at h
    calc value a < base ^ a.length := value_lt_pow ha
      _ ≤ base ^ b.length := pow_le_pow_right₀ (by decide) (by omega)
      _ ≤ value (y :: b) := pow_le_value hb ht

theorem length_le_of_value_le {a b : Magnitude} (ha : Limbs a) (hb : Limbs b) (sa : Stripped a) (sb : Stripped b)
    (h : value a ≤ value b) : a.length ≤ b.length := by
  by_contra hlt
  have := value_lt_of_length_lt hb ha sb sa (by omega)
  omega

/-- Lists of one length and one value are the same. -/
theorem eq_of_length_eq {a b : Magnitude} (ha : Limbs a) (hb : Limbs b) (hlen : a.length = b.length)
    (h : value a = value b) : a = b := by
  induction a generalizing b with
  | nil => exact (List.eq_nil_of_length_eq_zero hlen.symm).symm
  | cons x a ih =>
    obtain ⟨y, b, rfl⟩ := List.exists_cons_of_length_eq_add_one hlen.symm
    obtain ⟨⟨hx0, hx1⟩, ha⟩ := (limbs_cons x a).1 ha
    obtain ⟨⟨hy0, hy1⟩, hb⟩ := (limbs_cons y b).1 hb
    rw [value_cons, value_cons] at h
    unfold base at hx1 hy1 h
    obtain ⟨hxy, hv⟩ : x = y ∧ value a = value b := by omega
    rw [hxy, ih ha hb (by simpa using hlen) hv]

/-- A value has one stripped list. -/
theorem eq_of_value_eq {a b : Magnitude} (ha : Limbs a) (hb : Limbs b) (sa : Stripped a) (sb : Stripped b)
    (h : value a = value b) : a = b := by
  have hab := length_le_of_value_le ha hb sa sb h.le
  have hba := length_le_of_value_le hb ha sb sa h.ge
  exact eq_of_length_eq ha hb (by omega) h

theorem compareLimbs_eq {a b : Magnitude} (ha : Limbs a) (hb : Limbs b) (h : a.length = b.length) :
    compareLimbs a b = Ord.compare (value a) (value b) := by
  induction a generalizing b with
  | nil =>
    rw [List.eq_nil_of_length_eq_zero h.symm]
    rfl
  | cons x a ih =>
    obtain ⟨y, b, rfl⟩ := List.exists_cons_of_length_eq_add_one h.symm
    obtain ⟨⟨hx0, hx1⟩, ha⟩ := (limbs_cons x a).1 ha
    obtain ⟨⟨hy0, hy1⟩, hb⟩ := (limbs_cons y b).1 hb
    rw [compareLimbs, ih ha hb (by simpa using h), value_cons, value_cons]
    unfold base at *
    rcases lt_trichotomy (value a) (value b) with hlt | heq | hgt
    · rw [compare_lt_iff_lt.2 hlt, Ordering.lt_then]
      exact (compare_lt_iff_lt.2 (by omega)).symm
    · rw [heq, compare_eq_iff_eq.2 rfl, Ordering.eq_then]
      rcases lt_trichotomy x y with h | rfl | h
      · rw [compare_lt_iff_lt.2 h, compare_lt_iff_lt.2 (by omega)]
      · rw [compare_eq_iff_eq.2 rfl, compare_eq_iff_eq.2 rfl]
      · rw [compare_gt_iff_gt.2 h, compare_gt_iff_gt.2 (by omega)]
    · rw [compare_gt_iff_gt.2 hgt, Ordering.gt_then]
      exact (compare_gt_iff_gt.2 (by omega)).symm

/-- Comparing stripped lists is comparing values. -/
theorem compare_eq {a b : Magnitude} (ha : Limbs a) (hb : Limbs b) (sa : Stripped a) (sb : Stripped b) :
    compare a b = Ord.compare (value a) (value b) := by
  unfold compare
  rcases lt_trichotomy a.length b.length with h | h | h
  · rw [compare_lt_iff_lt.2 h, Ordering.lt_then]
    exact (compare_lt_iff_lt.2 (value_lt_of_length_lt ha hb sa sb h)).symm
  · rw [compare_eq_iff_eq.2 h, Ordering.eq_then, compareLimbs_eq ha hb h]
  · rw [compare_gt_iff_gt.2 h, Ordering.gt_then]
    exact (compare_gt_iff_gt.2 (value_lt_of_length_lt hb ha sb sa h)).symm

/-! ## Sum and difference -/

theorem value_addCarry (c : Int) (a b : Magnitude) (h : b.length ≤ a.length) :
    value (addCarry c a b) = value a + value b + c := by
  induction a generalizing c b with
  | nil =>
    rw [List.eq_nil_of_length_eq_zero (Nat.le_zero.1 h)]
    unfold addCarry
    split
    · rename_i hc; simp [hc]
    · simp
  | cons x a ih =>
    have ht : b.tail.length ≤ a.length := by rw [List.length_tail]; simp at h; omega
    have hb := value_headD b
    rw [addCarry, value_cons]
    split
    · rw [value_cons, ih 1 _ ht, hb]; ring
    · rw [value_cons, ih 0 _ ht, hb]; ring

theorem Limbs.addCarry {c : Int} {a b : Magnitude} (ha : Limbs a) (hb : Limbs b) (h0 : 0 ≤ c) (h1 : c ≤ 1) :
    Limbs (addCarry c a b) := by
  induction a generalizing c b with
  | nil =>
    unfold Magnitude.addCarry
    split
    · simp
    · simp only [limbs_cons, limbs_nil, and_true]
      constructor
      · exact h0
      · unfold base; omega
  | cons x a ih =>
    obtain ⟨hx, ha⟩ := (limbs_cons x a).1 ha
    have hy := hb.headD
    rw [Magnitude.addCarry]
    -- Two digits and a carry are less than twice the base, so one subtraction leaves a digit.
    split
    · rw [limbs_cons]
      constructor
      · omega
      · exact ih ha hb.tail (by decide) le_rfl
    · rw [limbs_cons]
      constructor
      · omega
      · exact ih ha hb.tail le_rfl (by decide)

theorem value_add (a b : Magnitude) : value (add a b) = value a + value b := by
  unfold add
  split
  · rw [value_addCarry 0 b a (by omega)]; ring
  · rw [value_addCarry 0 a b (by omega)]; ring

theorem Limbs.add {a b : Magnitude} (ha : Limbs a) (hb : Limbs b) : Limbs (add a b) := by
  unfold Magnitude.add
  split
  · exact hb.addCarry ha le_rfl (by decide)
  · exact ha.addCarry hb le_rfl (by decide)

/-- Taking away what is not greater ends without a borrow. -/
theorem value_subBorrow {c : Int} {a b : Magnitude} (ha : Limbs a) (hb : Limbs b) (h0 : 0 ≤ c) (h1 : c ≤ 1)
    (hlen : b.length ≤ a.length) (hle : value b + c ≤ value a) :
    value (subBorrow c a b) = value a - value b - c := by
  induction a generalizing c b with
  | nil =>
    rw [List.eq_nil_of_length_eq_zero (Nat.le_zero.1 hlen)] at hle ⊢
    simp only [subBorrow, value_nil] at hle ⊢
    omega
  | cons x a ih =>
    obtain ⟨hx, ha⟩ := (limbs_cons x a).1 ha
    have hy := hb.headD
    have ht : b.tail.length ≤ a.length := by rw [List.length_tail]; simp at hlen; omega
    have hv := value_headD b
    rw [subBorrow, value_cons]
    rw [value_cons] at hle
    unfold base at *
    split
    · rw [value_cons, ih ha hb.tail (by decide) le_rfl ht (by omega)]
      unfold base; omega
    · rw [value_cons, ih ha hb.tail le_rfl (by decide) ht (by omega)]
      unfold base; omega

theorem Limbs.subBorrow {c : Int} {a b : Magnitude} (ha : Limbs a) (hb : Limbs b) (h0 : 0 ≤ c) (h1 : c ≤ 1) :
    Limbs (subBorrow c a b) := by
  induction a generalizing c b with
  | nil => exact limbs_nil
  | cons x a ih =>
    obtain ⟨hx, ha⟩ := (limbs_cons x a).1 ha
    have hy := hb.headD
    rw [Magnitude.subBorrow]
    split
    · rw [limbs_cons]
      constructor
      · omega
      · exact ih ha hb.tail (by decide) le_rfl
    · rw [limbs_cons]
      constructor
      · omega
      · exact ih ha hb.tail le_rfl (by decide)

theorem value_sub {a b : Magnitude} (ha : Limbs a) (hb : Limbs b) (hlen : b.length ≤ a.length)
    (hle : value b ≤ value a) : value (sub a b) = value a - value b := by
  unfold sub
  rw [value_strip, value_subBorrow ha hb le_rfl (by decide) hlen (by omega)]
  ring

theorem Limbs.sub {a b : Magnitude} (ha : Limbs a) (hb : Limbs b) : Limbs (sub a b) := by
  unfold Magnitude.sub
  apply Limbs.strip
  exact ha.subBorrow hb le_rfl (by decide)

theorem stripped_sub (a b : Magnitude) : Stripped (sub a b) := stripped_strip _

/-! ## Product -/

theorem value_addCarryInto (c : Int) (cells : Magnitude) : value (addCarryInto c cells) = c + value cells := by
  induction cells generalizing c with
  | nil =>
    unfold addCarryInto
    split
    · rename_i hc; simp [hc]
    · simp
  | cons r cells ih =>
    unfold addCarryInto
    by_cases hc : c = 0
    · rw [if_pos hc, hc, zero_add]
    · have := Int.emod_add_mul_ediv (r + c) base
      rw [if_neg hc, value_cons, value_cons, ih]
      linarith

theorem Limbs.addCarryInto {c : Int} {cells : Magnitude} (h : Limbs cells) (h0 : 0 ≤ c) (h1 : c < base) :
    Limbs (addCarryInto c cells) := by
  induction cells generalizing c with
  | nil =>
    unfold Magnitude.addCarryInto
    split
    · simp
    · simp [h0, h1]
  | cons r cells ih =>
    obtain ⟨hr, hc⟩ := (limbs_cons r cells).1 h
    unfold Magnitude.addCarryInto
    unfold base at *
    split
    · exact h
    · rw [limbs_cons]
      constructor
      · unfold base; omega
      · exact ih hc (by omega) (by omega)

theorem length_le_addCarryInto (c : Int) (cells : Magnitude) : cells.length ≤ (addCarryInto c cells).length := by
  induction cells generalizing c with
  | nil => exact Nat.zero_le _
  | cons r cells ih =>
    unfold addCarryInto
    split
    · exact le_rfl
    · apply Nat.succ_le_succ
      exact ih _

theorem value_addProductInto (x c : Int) (b cells : Magnitude) :
    value (addProductInto x c b cells) = value cells + x * value b + c := by
  induction b generalizing c cells with
  | nil => rw [addProductInto, value_addCarryInto, value_nil]; ring
  | cons y b ih =>
    have := Int.emod_add_mul_ediv (cells.headD 0 + x * y + c) base
    rw [addProductInto, value_cons, ih, value_headD cells, value_cons]
    linarith

/-- A product of digits leaves room for a digit from the cell and a digit carried over. -/
theorem digit_product_bounds {r x y c : Int} (hr : 0 ≤ r ∧ r < base) (hx : 0 ≤ x ∧ x < base)
    (hy : 0 ≤ y ∧ y < base) (hc : 0 ≤ c ∧ c < base) :
    0 ≤ r + x * y + c ∧ r + x * y + c < base * base := by
  have h0 : 0 ≤ x * y := mul_nonneg hx.1 hy.1
  have h1 : x * y ≤ (base - 1) * (base - 1) := mul_le_mul (by omega) (by omega) hy.1 (by decide)
  have h2 : (base - 1) * (base - 1) = base * base - 2 * base + 1 := by ring
  constructor
  · omega
  · omega

theorem emod_digit (x : Int) : 0 ≤ x % base ∧ x % base < base :=
  ⟨Int.emod_nonneg _ base_pos.ne', Int.emod_lt_of_pos _ base_pos⟩

theorem ediv_digit {x : Int} (h0 : 0 ≤ x) (h1 : x < base * base) : 0 ≤ x / base ∧ x / base < base :=
  ⟨Int.ediv_nonneg h0 base_pos.le, Int.ediv_lt_of_lt_mul base_pos h1⟩

theorem Limbs.addProductInto {x c : Int} {b cells : Magnitude} (hb : Limbs b) (h : Limbs cells)
    (hx : 0 ≤ x ∧ x < base) (hc : 0 ≤ c ∧ c < base) : Limbs (addProductInto x c b cells) := by
  induction b generalizing c cells with
  | nil => exact h.addCarryInto hc.1 hc.2
  | cons y b ih =>
    obtain ⟨hy, hb⟩ := (limbs_cons y b).1 hb
    obtain ⟨h0, h1⟩ := digit_product_bounds h.headD hx hy hc
    unfold Magnitude.addProductInto
    rw [limbs_cons]
    constructor
    · exact emod_digit _
    · exact ih hb h.tail (ediv_digit h0 h1)

theorem length_le_addProductInto (x c : Int) (b cells : Magnitude) :
    cells.length ≤ (addProductInto x c b cells).length := by
  induction b generalizing c cells with
  | nil => exact length_le_addCarryInto c cells
  | cons y b ih =>
    have := ih ((cells.headD 0 + x * y + c) / base) cells.tail
    rw [addProductInto, List.length_cons]
    rw [List.length_tail] at this
    omega

/-- The cells after one row of the product. -/
theorem mulInto_cons (x : Int) (a b cells : Magnitude) :
    mulInto (x :: a) b cells =
      match (if x = 0 then cells else addProductInto x 0 b cells) with
      | [] => mulInto a b []
      | r :: rest => r :: mulInto a b rest := rfl

theorem value_mulRow (x : Int) (b cells : Magnitude) :
    value (if x = 0 then cells else addProductInto x 0 b cells) = value cells + x * value b := by
  by_cases hx : x = 0
  · simp [hx]
  · rw [if_neg hx, value_addProductInto]; ring

theorem length_le_mulRow (x : Int) (b cells : Magnitude) :
    cells.length ≤ (if x = 0 then cells else addProductInto x 0 b cells).length := by
  split
  · exact le_rfl
  · exact length_le_addProductInto x 0 b cells

theorem Limbs.mulRow {x : Int} {b cells : Magnitude} (hb : Limbs b) (h : Limbs cells) (hx : 0 ≤ x ∧ x < base) :
    Limbs (if x = 0 then cells else Magnitude.addProductInto x 0 b cells) := by
  split
  · exact h
  · exact hb.addProductInto h hx ⟨le_rfl, base_pos⟩

/-- Every row needs a cell for its lowest limb, so there must be as many cells as rows. -/
theorem value_mulInto (a b cells : Magnitude) (h : a.length ≤ cells.length) :
    value (mulInto a b cells) = value cells + value a * value b := by
  induction a generalizing cells with
  | nil => rw [mulInto, value_nil]; ring
  | cons x a ih =>
    have hv := value_mulRow x b cells
    have hl := length_le_mulRow x b cells
    rw [mulInto_cons]
    generalize (if x = 0 then cells else addProductInto x 0 b cells) = row at hv hl
    cases row with
    | nil => simp at h hl; simp [hl] at h
    | cons r rest =>
      have := ih rest (by simp at h hl; omega)
      rw [value_cons, this, value_cons x]
      -- The lowest cell is finished with this row; the others are the cells of the next one.
      rw [value_cons] at hv
      linarith

theorem Limbs.mulInto {a b cells : Magnitude} (ha : Limbs a) (hb : Limbs b) (h : Limbs cells) :
    Limbs (mulInto a b cells) := by
  induction a generalizing cells with
  | nil => exact h
  | cons x a ih =>
    obtain ⟨hx, ha⟩ := (limbs_cons x a).1 ha
    have hrow := Limbs.mulRow hb h hx
    rw [mulInto_cons]
    generalize (if x = 0 then cells else Magnitude.addProductInto x 0 b cells) = row at hrow
    cases row with
    | nil => exact ih ha limbs_nil
    | cons r rest =>
      rw [limbs_cons] at hrow ⊢
      constructor
      · exact hrow.1
      · exact ih ha hrow.2

theorem value_mul (a b : Magnitude) : value (mul a b) = value a * value b := by
  unfold mul
  rw [value_strip, value_mulInto _ _ _ (by simp), value_replicate_zero, zero_add]

theorem Limbs.mul {a b : Magnitude} (ha : Limbs a) (hb : Limbs b) : Limbs (mul a b) := by
  unfold Magnitude.mul
  apply Limbs.strip
  exact ha.mulInto hb (limbs_replicate_zero _)

end TreeScript.Magnitude
