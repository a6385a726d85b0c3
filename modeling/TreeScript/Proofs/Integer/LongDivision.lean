/-
Long division by a divisor of more than one limb, step by step. Before a step the remainder is stripped and less than
the divisor. The next limb comes down, and what that gives is less than the divisor times the base. If it is not less
than the divisor itself, the digit of the quotient is searched by halving an interval in which it always lies; within
thirty rounds one digit is left, the greatest that fits. What the step leaves is again stripped and less than the
divisor.

Lengths are compared before limbs, which is right on stripped lists alone, so it is shown of every comparison on the
way that both of its sides are stripped.
-/
import TreeScript.Proofs.Integer.Quotient

namespace TreeScript.Magnitude

/-! ## One round of the search -/

/-- The interval in which the digit is searched. -/
structure Bounds where
  lo : Int
  hi : Int
deriving DecidableEq

/-- Every digit but zero. -/
def Bounds.digits : Bounds := ⟨1, base - 1⟩

/-- The middle of the interval, rounded up. -/
def Bounds.mid (s : Bounds) : Int := (s.lo + s.hi + 1) / 2

/-- One round of the search: the middle is tried. -/
def narrow (b rem : Magnitude) (s : Bounds) : Bounds :=
  if compare (mulSmall b s.mid) rem = .gt then ⟨s.lo, s.mid - 1⟩ else ⟨s.mid, s.hi⟩

theorem narrow_of_gt {b rem : Magnitude} {s : Bounds} (h : compare (mulSmall b s.mid) rem = .gt) :
    narrow b rem s = ⟨s.lo, s.mid - 1⟩ := if_pos h

theorem narrow_of_not_gt {b rem : Magnitude} {s : Bounds} (h : ¬ compare (mulSmall b s.mid) rem = .gt) :
    narrow b rem s = ⟨s.mid, s.hi⟩ := if_neg h

/-- The lower end of the interval fits, and what follows the upper end does not. -/
structure Brackets (b rem : Magnitude) (s : Bounds) : Prop where
  pos : 1 ≤ s.lo
  le : s.lo ≤ s.hi
  digit : s.hi < base
  fits : value b * s.lo ≤ value rem
  exceeds : value rem < value b * (s.hi + 1)

theorem Bounds.mid_bounds {s : Bounds} (h : s.lo < s.hi) : s.lo < s.mid ∧ s.mid ≤ s.hi := by
  unfold mid
  omega

/-- A round leaves at most half of the interval. -/
theorem narrow_halves (b rem : Magnitude) (s : Bounds) :
    2 * ((narrow b rem s).hi - (narrow b rem s).lo) ≤ s.hi - s.lo := by
  unfold narrow Bounds.mid
  split
  · simp only
    omega
  · simp only
    omega

theorem narrow_le (b rem : Magnitude) {s : Bounds} (h : s.lo < s.hi) : (narrow b rem s).lo ≤ (narrow b rem s).hi := by
  have hmid := Bounds.mid_bounds h
  unfold narrow
  split
  · simp only
    omega
  · exact hmid.2

/-- The search goes on from what a round leaves. -/
theorem searchDigit_narrow {b rem : Magnitude} {s : Bounds} (h : s.lo < s.hi) :
    searchDigit b rem s.lo s.hi = searchDigit b rem (narrow b rem s).lo (narrow b rem s).hi := by
  rw [searchDigit, if_pos h]
  unfold narrow Bounds.mid
  simp only
  split
  · rfl
  · rfl

theorem searchDigit_single {b rem : Magnitude} {s : Bounds} (h : s.lo = s.hi) : searchDigit b rem s.lo s.hi = s.lo := by
  rw [searchDigit, if_neg (by omega)]

section Search

variable {b rem : Magnitude} (hb : Limbs b) (sb : Stripped b) (hpos : 0 < value b) (hr : Limbs rem)
  (sr : Stripped rem)

include hb sb hpos

/-- What is compared in a round has no zeros on top. -/
theorem Brackets.stripped_mid {s : Bounds} (hs : Brackets b rem s) (h : s.lo < s.hi) :
    Stripped (mulSmall b s.mid) := by
  have hmid := Bounds.mid_bounds h
  have hlo := hs.pos
  exact stripped_mulSmall hb sb hpos (by omega)

include hr sr

theorem Brackets.narrow {s : Bounds} (hs : Brackets b rem s) (h : s.lo < s.hi) : Brackets b rem (narrow b rem s) := by
  obtain ⟨hlo, hhi⟩ := Bounds.mid_bounds h
  obtain ⟨hone, -, hdigit, hfits, hexceeds⟩ := hs
  have htest := compare_mulSmall_gt hb sb hpos hr sr (m := s.mid) (by omega) (by omega)
  by_cases hgt : compare (mulSmall b s.mid) rem = .gt
  · rw [narrow_of_gt hgt]
    rw [htest] at hgt
    exact ⟨hone, by simp only; omega, by simp only; omega, hfits, by rwa [sub_add_cancel]⟩
  · rw [narrow_of_not_gt hgt]
    rw [htest, not_lt] at hgt
    exact ⟨by simp only; omega, hhi, hdigit, hgt, hexceeds⟩

/-- As long as the interval is not a single digit, it has the digit that is searched in it. -/
theorem Brackets.iterate {s : Bounds} (hs : Brackets b rem s) {n : Nat}
    (hopen : ∀ k < n, ((Magnitude.narrow b rem)^[k] s).lo < ((Magnitude.narrow b rem)^[k] s).hi) :
    Brackets b rem ((Magnitude.narrow b rem)^[n] s) := by
  induction n with
  | zero => exact hs
  | succ n ih =>
    rw [Function.iterate_succ_apply']
    apply Brackets.narrow hb sb hpos hr sr
    · apply ih
      intro k hk
      exact hopen k (by omega)
    · exact hopen n (by omega)

end Search

/-! ## The whole search -/

/-- The interval after `n` rounds of a search among all digits. -/
def searched (b rem : Magnitude) (n : Nat) : Bounds := (narrow b rem)^[n] Bounds.digits

/-- A search among all digits ends with `q`. Until then the interval of each round brackets the digit, and the
comparison of the round is one of stripped lists. -/
def SearchEnds (b rem : Magnitude) (q : Int) : Prop :=
  ∃ n ≤ 30,
    (∀ k < n, (searched b rem k).lo < (searched b rem k).hi ∧ Brackets b rem (searched b rem k) ∧
      Stripped (mulSmall b (searched b rem k).mid) ∧ Stripped rem) ∧
    searched b rem n = ⟨q, q⟩

theorem eq_of_single {b rem : Magnitude} {s : Bounds} (h : s.lo = s.hi) :
    s = ⟨searchDigit b rem s.lo s.hi, searchDigit b rem s.lo s.hi⟩ := by
  rw [searchDigit_single h]
  exact congrArg (Bounds.mk s.lo) h.symm

/-- An interval of at most `2 ^ n` digits is a single one after at most `n` rounds. -/
theorem exists_single (b rem : Magnitude) {n : Nat} {s : Bounds} (hle : s.lo ≤ s.hi) (hwidth : s.hi - s.lo < 2 ^ n) :
    ∃ k ≤ n, (∀ j < k, ((narrow b rem)^[j] s).lo < ((narrow b rem)^[j] s).hi) ∧
      (narrow b rem)^[k] s = ⟨searchDigit b rem s.lo s.hi, searchDigit b rem s.lo s.hi⟩ := by
  induction n generalizing s with
  | zero =>
    rw [pow_zero] at hwidth
    have hsingle : s.lo = s.hi := by omega
    exact ⟨0, le_rfl, by simp, eq_of_single hsingle⟩
  | succ n ih =>
    by_cases hopen : s.lo < s.hi
    · have hhalf := narrow_halves b rem s
      rw [pow_succ] at hwidth
      obtain ⟨k, hk, hrounds, hend⟩ := ih (narrow_le b rem hopen) (by omega)
      refine ⟨k + 1, by omega, ?_, ?_⟩
      · intro j hj
        cases j with
        | zero => exact hopen
        | succ j =>
          rw [Function.iterate_succ_apply]
          exact hrounds j (by omega)
      · rw [Function.iterate_succ_apply, hend, searchDigit_narrow hopen]
    · have hsingle : s.lo = s.hi := by omega
      exact ⟨0, Nat.zero_le _, by simp, eq_of_single hsingle⟩

section Search

variable {b rem : Magnitude} (hb : Limbs b) (sb : Stripped b) (hpos : 0 < value b) (hr : Limbs rem)
  (sr : Stripped rem) (hle : value b ≤ value rem) (hlt : value rem < value b * base)

include hb sb hpos hr sr hle hlt

theorem searchEnds_quotientDigit : SearchEnds b rem (quotientDigit b rem) := by
  have hdigits : Brackets b rem Bounds.digits := by
    refine ⟨le_rfl, by decide, by decide, ?_, ?_⟩
    · unfold Bounds.digits
      rwa [mul_one]
    · unfold Bounds.digits
      rwa [sub_add_cancel]
  obtain ⟨n, hn, hrounds, hend⟩ := exists_single b rem (n := 30) hdigits.le (by decide)
  refine ⟨n, hn, ?_, hend⟩
  intro k hk
  have hopen := hrounds k hk
  have hbrackets := hdigits.iterate hb sb hpos hr sr (n := k) (by
    intro j hj
    exact hrounds j (by omega))
  exact ⟨hopen, hbrackets, hbrackets.stripped_mid hb sb hpos hopen, sr⟩

theorem isGreatest_quotientDigit :
    IsGreatest {q | 1 ≤ q ∧ q < base ∧ value b * q ≤ value rem} (quotientDigit b rem) := by
  obtain ⟨hone, hdigit, hfits, hexceeds⟩ := quotientDigit_spec hb sb hpos hr sr hle hlt
  refine ⟨⟨hone, hdigit, hfits⟩, ?_⟩
  rintro q ⟨-, -, hq⟩
  have : q < quotientDigit b rem + 1 := lt_of_mul_lt_mul_left (hq.trans_lt hexceeds) hpos.le
  omega

end Search

/-! ## The steps of the division -/

/-- The remainder of the limbs `high` with the next limb brought down. -/
def broughtDown (b : Magnitude) (x : Int) (high : Magnitude) : Magnitude := strip (x :: (divLong b high).2)

theorem divLong_step (b : Magnitude) (x : Int) (high : Magnitude) :
    divLong b (x :: high) =
      if compare (broughtDown b x high) b = .lt then (0 :: (divLong b high).1, broughtDown b x high)
      else (quotientDigit b (broughtDown b x high) :: (divLong b high).1,
        sub (broughtDown b x high) (mulSmall b (quotientDigit b (broughtDown b x high)))) := rfl

/-- The step of the division by `b` that comes to the limb `x`, after the limbs `high`. -/
structure LongStep (b : Magnitude) (x : Int) (high : Magnitude) : Prop where
  before : Quotient high b (divLong b high).1 (divLong b high).2
  limbs : Limbs (broughtDown b x high)
  stripped : Stripped (broughtDown b x high)
  value : value (broughtDown b x high) = value (divLong b high).2 * base + x
  lt : Magnitude.value (broughtDown b x high) < Magnitude.value b * base
  skip : Magnitude.value (broughtDown b x high) < Magnitude.value b →
    divLong b (x :: high) = (0 :: (divLong b high).1, broughtDown b x high)
  search : Magnitude.value b ≤ Magnitude.value (broughtDown b x high) → ∃ q,
    SearchEnds b (broughtDown b x high) q ∧
    IsGreatest {d | 1 ≤ d ∧ d < base ∧ Magnitude.value b * d ≤ Magnitude.value (broughtDown b x high)} q ∧
    divLong b (x :: high) = (q :: (divLong b high).1, sub (broughtDown b x high) (mulSmall b q))
  after : Quotient (x :: high) b (divLong b (x :: high)).1 (divLong b (x :: high)).2

theorem longStep {b high : Magnitude} {x : Int} (hx : 0 ≤ x ∧ x < base) (hhigh : Limbs high) (hb : Limbs b)
    (sb : Stripped b) (hpos : 0 < value b) : LongStep b x high := by
  have hbefore := divLong_spec hhigh hb sb hpos
  have hlimbs : Limbs (broughtDown b x high) := ((limbs_cons _ _).mpr ⟨hx, hbefore.remainder⟩).strip
  have hstripped : Stripped (broughtDown b x high) := stripped_strip _
  have hlt : value (broughtDown b x high) < value b * base := value_bringDown_lt hx.2 hbefore.lt
  have hcompare : compare (broughtDown b x high) b = .lt ↔ value (broughtDown b x high) < value b := by
    rw [compare_eq hlimbs hb hstripped sb, compare_lt_iff_lt]
  refine ⟨hbefore, hlimbs, hstripped, ?_, hlt, ?_, ?_, divLong_spec ((limbs_cons _ _).mpr ⟨hx, hhigh⟩) hb sb hpos⟩
  · unfold broughtDown
    rw [value_strip, value_cons]
    ring
  · intro hless
    rw [divLong_step, if_pos (hcompare.mpr hless)]
  · intro hle
    refine ⟨quotientDigit b (broughtDown b x high), ?_, ?_, ?_⟩
    · exact searchEnds_quotientDigit hb sb hpos hlimbs hstripped hle hlt
    · exact isGreatest_quotientDigit hb sb hpos hlimbs hstripped hle hlt
    · rw [divLong_step, if_neg (by rwa [hcompare, not_lt])]

theorem value_pos_of_two_le_length {b : Magnitude} (hb : Limbs b) (sb : Stripped b) (hlen : 2 ≤ b.length) :
    0 < value b :=
  value_lt_of_length_lt (a := [0]) (by decide) hb rfl sb hlen

/-- Division by more than one limb. Each step begins with a stripped remainder less than the divisor, brings the next
limb down to less than the divisor times the base, finds by halving the greatest digit that fits if there is one, and
leaves a stripped remainder less than the divisor. All steps together give the quotient and the remainder. -/
theorem long_division_exact {a b : Magnitude} (ha : Limbs a) (hb : Limbs b) (sa : Stripped a) (sb : Stripped b)
    (hlen : 2 ≤ b.length) (hle : value b ≤ value a) :
    (∀ x high, x :: high <:+ a → LongStep b x high) ∧
    divMod a b = (strip (divLong b a).1, (divLong b a).2) ∧
    value (divMod a b).1 * value b + value (divMod a b).2 = value a ∧
    Stripped (divMod a b).2 ∧ value (divMod a b).2 < value b := by
  have hpos := value_pos_of_two_le_length hb sb hlen
  refine ⟨?_, ?_, ?_⟩
  · intro x high hsuffix
    have hlimbs : Limbs (x :: high) := by
      intro y hy
      exact ha y (hsuffix.subset hy)
    obtain ⟨hx, hhigh⟩ := (limbs_cons _ _).mp hlimbs
    exact longStep hx hhigh hb sb hpos
  · unfold divMod
    rw [compare_eq ha hb sa sb, if_neg (by rwa [compare_lt_iff_lt, not_lt])]
    split
    · simp at hlen
    · rfl
  · have hquotient := divMod_spec ha hb sa sb hpos
    exact ⟨hquotient.value.symm, hquotient.stripped, hquotient.lt⟩

/-- One digit is skipped twice and then searched: `10^18 = 999999993 * (10^9 + 7) + 49`. -/
theorem long_division_exact_two_limbs :
    ∃ a b : Magnitude, Limbs a ∧ Limbs b ∧ Stripped a ∧ Stripped b ∧ 2 ≤ b.length ∧ value b ≤ value a ∧
      LongStep b 0 [0, 1] ∧ value (divMod a b).1 * value b + value (divMod a b).2 = 1000000000000000000 ∧
      value (divMod a b).2 < 1000000007 := by
  have ha : Limbs [0, 0, 1] := by decide
  have hb : Limbs [7, 1] := by decide
  obtain ⟨hsteps, -, hvalue, -, hlt⟩ := long_division_exact ha hb rfl rfl le_rfl (by decide)
  exact ⟨_, _, ha, hb, rfl, rfl, le_rfl, by decide, hsteps 0 [0, 1] List.suffix_rfl, hvalue.trans (by decide), hlt⟩

end TreeScript.Magnitude
