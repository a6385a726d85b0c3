/-
The product in place. All cells of the result are there from the beginning, as many as both factors have limbs, and
each row adds into them by index. What is still to be added to the cells from an index on never exceeds what these
cells can hold, so a carry ends before the last of them is passed, and the cells are those of the product on lists.
-/
import TreeScript.Proofs.Integer.Machine

namespace TreeScript.Magnitude

open Machine

/-! ## The loops -/

/-- Adds a carry into the cells from `k` on, as long as there is one. -/
def carryFrom (m : Machine) (k : Nat) (carry : Int) (cells : Magnitude) : Except Stop Magnitude :=
  if carry = 0 then .ok cells
  else if h : k < cells.length then do
    let cur ← m (cells[k] + carry)
    let (limb, next) ← splitOn m cur
    carryFrom m (k + 1) next (cells.set k limb)
  else .error (.index k)
termination_by cells.length - k
decreasing_by
  rw [List.length_set]
  omega

/-- Adds `x` times a magnitude and a carry into the cells from `k` on. -/
def rowFrom (m : Machine) (x : Int) : Nat → Int → Magnitude → Magnitude → Except Stop Magnitude
  | k, carry, [], cells => carryFrom m k carry cells
  | k, carry, y :: b, cells =>
    if h : k < cells.length then do
      let product ← m (x * y)
      let sum ← m (cells[k] + product)
      let cur ← m (sum + carry)
      let (limb, next) ← splitOn m cur
      rowFrom m x (k + 1) next b (cells.set k limb)
    else .error (.index k)

/-- Adds one row after another, each of them one cell further up. A limb zero adds nothing. -/
def rowsFrom (m : Machine) : Nat → Magnitude → Magnitude → Magnitude → Except Stop Magnitude
  | _, [], _, cells => .ok cells
  | i, x :: a, b, cells =>
    if x = 0 then rowsFrom m (i + 1) a b cells
    else do
      let cells ← rowFrom m x i 0 b cells
      rowsFrom m (i + 1) a b cells

def mulOn (m : Machine) (a b : Magnitude) : Except Stop Magnitude := do
  let cells ← rowsFrom m 0 a b (List.replicate (a.length + b.length) 0)
  return strip cells

/-! ## Room in the cells -/

/-- What a cell carries on has room in the cells above it, if the whole had room. -/
theorem carried_lt {cur v : Int} {n : Nat} (h : cur + base * v < base ^ (n + 1)) : v + cur / base < base ^ n := by
  have hsplit := Int.emod_add_mul_ediv cur base
  have hlimb := emod_digit cur
  rw [pow_succ'] at h
  apply lt_of_mul_lt_mul_left _ base_pos.le
  rw [mul_add]
  omega

theorem length_addCarryInto {c : Int} {cells : Magnitude} (h : Limbs cells) (h0 : 0 ≤ c)
    (hroom : value cells + c < base ^ cells.length) : (addCarryInto c cells).length = cells.length := by
  induction cells generalizing c with
  | nil =>
    rw [value_nil, List.length_nil, pow_zero] at hroom
    rw [addCarryInto, if_pos (by omega)]
  | cons r cells ih =>
    obtain ⟨hr, hcells⟩ := (limbs_cons r cells).1 h
    rw [value_cons, List.length_cons] at hroom
    rw [addCarryInto]
    split
    · rfl
    · rw [List.length_cons, List.length_cons]
      congr 1
      exact ih hcells (Int.ediv_nonneg (by omega) base_pos.le) (carried_lt (by omega))

/-- One product is added to the lowest cell; the others have room in the cells above it. -/
theorem row_room {r x y c : Int} {b cells : Magnitude}
    (hroom : value (r :: cells) + x * value (y :: b) + c < base ^ (r :: cells).length) :
    value cells + x * value b + (r + x * y + c) / base < base ^ cells.length := by
  apply carried_lt
  rw [value_cons, value_cons, List.length_cons] at hroom
  linarith

theorem length_addProductInto {x c : Int} {b cells : Magnitude} (hx : 0 ≤ x ∧ x < base) (hb : Limbs b)
    (h : Limbs cells) (hc : 0 ≤ c ∧ c < base) (hlen : b.length ≤ cells.length)
    (hroom : value cells + x * value b + c < base ^ cells.length) :
    (addProductInto x c b cells).length = cells.length := by
  induction b generalizing c cells with
  | nil =>
    rw [value_nil, mul_zero, add_zero] at hroom
    exact length_addCarryInto h hc.1 hroom
  | cons y b ih =>
    obtain ⟨r, cells, rfl⟩ := List.exists_cons_of_length_pos (Nat.lt_of_lt_of_le (Nat.succ_pos _) hlen)
    obtain ⟨hy, hb⟩ := (limbs_cons y b).1 hb
    obtain ⟨hr, hcells⟩ := (limbs_cons r cells).1 h
    obtain ⟨h0, h1⟩ := digit_product_bounds hr hx hy hc
    rw [List.length_cons, List.length_cons] at hlen
    rw [addProductInto, List.tail_cons, List.length_cons, List.length_cons]
    congr 1
    exact ih hb hcells (ediv_digit h0 h1) (by omega) (row_room hroom)

theorem length_mulRow {x : Int} {b cells : Magnitude} (hx : 0 ≤ x ∧ x < base) (hb : Limbs b) (h : Limbs cells)
    (hlen : b.length ≤ cells.length) (hroom : value cells + x * value b < base ^ cells.length) :
    (if x = 0 then cells else addProductInto x 0 b cells).length = cells.length := by
  split
  · rfl
  · exact length_addProductInto hx hb h ⟨le_rfl, base_pos⟩ hlen (by omega)

/-! ## The loops are exact -/

theorem getElem_append_cons (p : Magnitude) (r : Int) (cells : Magnitude)
    (h : p.length < (p ++ r :: cells).length) : (p ++ r :: cells)[p.length] = r := by
  simp

theorem set_append_cons (p : Magnitude) (r x : Int) (cells : Magnitude) :
    (p ++ r :: cells).set p.length x = (p ++ [x]) ++ cells := by
  simp

theorem length_lt_append_cons (p : Magnitude) (r : Int) (cells : Magnitude) :
    p.length < (p ++ r :: cells).length := by
  simp

section Exact

variable {m : Machine} (hm : m.Exact)

include hm

/-- The cells `p` lie below the carry. Those above them have room for it, so it ends before the last one is passed. -/
theorem carryFrom_eq {c : Int} {p cells : Magnitude} (h : Limbs cells) (hc : 0 ≤ c ∧ c < base)
    (hroom : value cells + c < base ^ cells.length) :
    carryFrom m p.length c (p ++ cells) = .ok (p ++ addCarryInto c cells) := by
  induction cells generalizing c p with
  | nil =>
    rw [value_nil, List.length_nil, pow_zero] at hroom
    rw [carryFrom, if_pos (by omega), addCarryInto, if_pos (by omega)]
  | cons r cells ih =>
    obtain ⟨hr, hcells⟩ := (limbs_cons r cells).1 h
    rw [value_cons, List.length_cons] at hroom
    rw [carryFrom, addCarryInto]
    split
    · rfl
    · have hbase : 2 * base < base * base := by decide
      have h0 : 0 ≤ r + c := add_nonneg hr.1 hc.1
      have h1 : r + c < base * base := by omega
      rw [dif_pos (length_lt_append_cons p r cells), getElem_append_cons, hm.bind (fits_of_nonneg h0 h1),
        splitOn_eq hm h0 h1, ok_bind]
      simp only
      have hnext := ih (p := p ++ [(r + c) % base]) hcells (ediv_digit h0 h1) (carried_lt (by omega))
      rw [List.length_append, List.length_singleton] at hnext
      rw [set_append_cons, hnext, List.append_assoc, List.singleton_append]

/-- A row needs a cell for each limb of the factor, and room above them for what it carries on. -/
theorem rowFrom_eq {x c : Int} {b p cells : Magnitude} (hx : 0 ≤ x ∧ x < base) (hb : Limbs b) (h : Limbs cells)
    (hc : 0 ≤ c ∧ c < base) (hlen : b.length ≤ cells.length)
    (hroom : value cells + x * value b + c < base ^ cells.length) :
    rowFrom m x p.length c b (p ++ cells) = .ok (p ++ addProductInto x c b cells) := by
  induction b generalizing c p cells with
  | nil =>
    rw [value_nil, mul_zero, add_zero] at hroom
    exact carryFrom_eq hm h hc hroom
  | cons y b ih =>
    obtain ⟨r, cells, rfl⟩ := List.exists_cons_of_length_pos (Nat.lt_of_lt_of_le (Nat.succ_pos _) hlen)
    obtain ⟨hy, hb⟩ := (limbs_cons y b).1 hb
    obtain ⟨hr, hcells⟩ := (limbs_cons r cells).1 h
    obtain ⟨h0, h1⟩ := digit_product_bounds hr hx hy hc
    have hproduct : 0 ≤ x * y := mul_nonneg hx.1 hy.1
    rw [List.length_cons, List.length_cons] at hlen
    rw [rowFrom, dif_pos (length_lt_append_cons p r cells), getElem_append_cons,
      hm.bind (fits_of_nonneg hproduct (by omega)), hm.bind (fits_of_nonneg (by omega) (by omega)),
      hm.bind (fits_of_nonneg h0 h1), splitOn_eq hm h0 h1, ok_bind]
    simp only
    have hnext := ih (p := p ++ [(r + x * y + c) % base]) hb hcells (ediv_digit h0 h1) (by omega) (row_room hroom)
    rw [List.length_append, List.length_singleton] at hnext
    rw [set_append_cons, hnext, List.append_assoc, List.singleton_append]
    rfl

/-- With each row one cell is finished, and what the other rows add has room in the cells above it. -/
theorem rowsFrom_eq {a b p cells : Magnitude} (ha : Limbs a) (hb : Limbs b) (h : Limbs cells)
    (hlen : cells.length = a.length + b.length) (hroom : value cells + value a * value b < base ^ cells.length) :
    rowsFrom m p.length a b (p ++ cells) = .ok (p ++ mulInto a b cells) := by
  induction a generalizing p cells with
  | nil => rfl
  | cons x a ih =>
    obtain ⟨hx, ha⟩ := (limbs_cons x a).1 ha
    have hrest : 0 ≤ base * (value a * value b) :=
      mul_nonneg base_pos.le (mul_nonneg (value_nonneg ha) (value_nonneg hb))
    have hsum : value (x :: a) * value b = x * value b + base * (value a * value b) := by
      rw [value_cons]
      ring
    rw [hsum] at hroom
    rw [List.length_cons] at hlen
    -- The row of a limb zero is left out, which adds nothing just the same.
    have hfirst : rowsFrom m p.length (x :: a) b (p ++ cells) =
        rowsFrom m (p.length + 1) a b (p ++ if x = 0 then cells else addProductInto x 0 b cells) := by
      rw [rowsFrom]
      split
      · rfl
      · rw [rowFrom_eq hm hx hb h ⟨le_rfl, base_pos⟩ (by omega) (by omega), ok_bind]
    have hv := value_mulRow x b cells
    have hl := length_mulRow hx hb h (by omega) (by omega)
    have hlimbs := Limbs.mulRow hb h hx
    rw [hfirst, mulInto_cons]
    generalize (if x = 0 then cells else addProductInto x 0 b cells) = row at hv hl hlimbs
    obtain ⟨r, row, rfl⟩ := List.exists_cons_of_length_pos (l := row) (by omega)
    obtain ⟨hr, hrow⟩ := (limbs_cons r row).1 hlimbs
    rw [← hl, List.length_cons] at hroom
    rw [List.length_cons] at hl
    rw [value_cons] at hv
    -- The lowest cell is finished: the other rows begin above it.
    have hcarried : value row + value a * value b + r / base < base ^ row.length := by
      apply carried_lt
      linarith
    rw [Int.ediv_eq_zero_of_lt hr.1 hr.2, add_zero] at hcarried
    have hnext := ih (p := p ++ [r]) ha hrow (by omega) hcarried
    rw [List.length_append, List.length_singleton, List.append_assoc, List.append_assoc] at hnext
    exact hnext

/-- Of as many cells as both factors have limbs none is passed. -/
theorem mulOn_eq {a b : Magnitude} (ha : Limbs a) (hb : Limbs b) : mulOn m a b = .ok (mul a b) := by
  have hroom : value a * value b < base ^ (a.length + b.length) := by
    rw [pow_add]
    exact mul_lt_mul'' (value_lt_pow ha) (value_lt_pow hb) (value_nonneg ha) (value_nonneg hb)
  have hrows := rowsFrom_eq hm (p := []) ha hb (limbs_replicate_zero (a.length + b.length)) List.length_replicate (by
    rwa [value_replicate_zero, zero_add, List.length_replicate])
  rw [List.length_nil, List.nil_append, List.nil_append] at hrows
  unfold mulOn mul
  rw [hrows]
  rfl

end Exact

end TreeScript.Magnitude
