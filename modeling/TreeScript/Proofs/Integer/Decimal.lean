/-
Decimal text and integers are inverse to each other. `written?` is the integer that a text writes, said digit
by digit and without limbs: reading gives the canonical form of that integer, or the fault that quotes the
text if it writes none. Printing gives the one text without needless zeros that writes the integer. Only the
way from a number in a document to an integer is shorter: it leads through the text of the document, which a
number with too many digits does not have.
-/
import TreeScript.Proofs.Integer.Arithmetic
import TreeScript.Run.Evaluate

namespace TreeScript

/-- The numbers that become a text lie below a power of ten. -/
theorem Text.isWritable_iff {n : Int} : IsWritable n ↔ n.natAbs < 10 ^ longestNumber := by
  unfold IsWritable
  rw [Nat.length_toDigits_le_iff (by decide) (by decide)]

theorem Text.not_isWritable_pow : ¬ IsWritable (10 ^ longestNumber) := by
  rw [isWritable_iff, Int.natAbs_pow, not_lt]
  exact Nat.pow_le_pow_left (by decide) _

theorem Document.plain_int_eq_none {n : Int} (h : ¬ Text.IsWritable n) : (Document.int n).plain = none := if_neg h

/-! ## Runs of digits -/

/-- At least one character, and all of them digits from 0 to 9. -/
def DigitRun (ds : List Char) : Prop := ds ≠ [] ∧ ∀ c ∈ ds, '0' ≤ c ∧ c ≤ '9'

theorem isDigit_iff {c : Char} : c.isDigit = true ↔ '0' ≤ c ∧ c ≤ '9' := by
  simp [Char.isDigit, Char.le_def]

theorem isDigits_iff {ds : List Char} : Integer.isDigits ds = true ↔ DigitRun ds := by
  unfold Integer.isDigits DigitRun
  simp [isDigit_iff]

instance (ds : List Char) : Decidable (DigitRun ds) :=
  decidable_of_iff (Integer.isDigits ds = true) isDigits_iff

theorem digitRun_toDigits (n : Nat) : DigitRun (Nat.toDigits 10 n) := by
  constructor
  · exact Nat.toDigits_ne_nil
  · intro c hc
    exact isDigit_iff.mp (Nat.isDigit_of_mem_toDigits (by decide) (by decide) hc)

theorem digit_bounds {c : Char} (h : '0' ≤ c ∧ c ≤ '9') : 48 ≤ c.toNat ∧ c.toNat ≤ 57 :=
  Char.isDigit_iff_toNat.mp (isDigit_iff.mpr h)

/-- A digit is the sign of the number that it stands for. -/
theorem digitChar_sub {c : Char} (h : '0' ≤ c ∧ c ≤ '9') : (c.toNat - 48).digitChar = c := by
  have hc := digit_bounds h
  apply Char.toNat_inj.mp
  rw [Nat.toNat_digitChar_of_lt_ten (by omega)]
  omega

/-- Digits after those of a number other than zero are digits of the number that both together write. -/
theorem toDigits_append {n : Nat} (hn : 0 < n) {ds : List Char} (hds : ∀ c ∈ ds, '0' ≤ c ∧ c ≤ '9') :
    Nat.toDigits 10 n ++ ds = Nat.toDigits 10 (Nat.ofDigitChars 10 ds n) := by
  induction ds generalizing n with
  | nil => rw [List.append_nil, Nat.ofDigitChars_nil]
  | cons c ds ih =>
    rw [List.forall_mem_cons] at hds
    have hc := digit_bounds hds.1
    have hone : Nat.toDigits 10 n ++ [c] = Nat.toDigits 10 (10 * n + (c.toNat - 48)) := by
      have hlt : c.toNat - 48 < 10 := by omega
      rw [← Nat.toDigits_append_toDigits (by decide) hn hlt, Nat.toDigits_of_lt_base hlt, digitChar_sub hds.1]
    calc Nat.toDigits 10 n ++ c :: ds
        = Nat.toDigits 10 n ++ [c] ++ ds := by simp
      _ = Nat.toDigits 10 (10 * n + (c.toNat - 48)) ++ ds := by rw [hone]
      _ = Nat.toDigits 10 (Nat.ofDigitChars 10 (c :: ds) n) := by
        rw [ih (by omega) hds.2, Nat.ofDigitChars_cons]
        rfl

/-- A run that does not start with zero holds the digits of the number that it writes. -/
theorem toDigits_ofDigitChars {ds : List Char} (hds : DigitRun ds) (h0 : ds.head? ≠ some '0') :
    Nat.toDigits 10 (Nat.ofDigitChars 10 ds 0) = ds := by
  obtain ⟨c, ds, rfl⟩ := List.exists_cons_of_ne_nil hds.1
  obtain ⟨hc, hds⟩ := List.forall_mem_cons.mp hds.2
  have hb := digit_bounds hc
  have hpos : 0 < c.toNat - 48 := by
    by_contra hzero
    apply h0
    have : c = '0' := Char.toNat_inj.mp (by simp; omega)
    rw [this, List.head?_cons]
  have hlt : c.toNat - 48 < 10 := by omega
  calc Nat.toDigits 10 (Nat.ofDigitChars 10 (c :: ds) 0)
      = Nat.toDigits 10 (Nat.ofDigitChars 10 ds (c.toNat - 48)) := by
        rw [Nat.ofDigitChars_cons, Nat.mul_zero, Nat.zero_add]
        rfl
    _ = Nat.toDigits 10 (c.toNat - 48) ++ ds := (toDigits_append hpos hds).symm
    _ = c :: ds := by rw [Nat.toDigits_of_lt_base hlt, digitChar_sub hc, List.singleton_append]

/-- The digits of a number other than zero do not start with zero. -/
theorem head?_toDigits {n : Nat} (hn : 0 < n) : (Nat.toDigits 10 n).head? ≠ some '0' := by
  induction n using Nat.strong_induction_on with
  | _ n ih =>
    rw [Nat.toDigits_eq_if (by decide)]
    split
    · rw [List.head?_cons, ne_eq, Option.some_inj, Nat.digitChar_eq_zero]
      omega
    · rw [List.head?_append_of_ne_nil _ Nat.toDigits_ne_nil]
      exact ih (n / 10) (by omega) (by omega)

namespace Integer

open Magnitude

/-! ## What a text writes -/

/-- The integer that a text writes: digits, highest first, and perhaps one minus sign in front of them. Any other
text writes none. -/
def written? (s : String) : Option Int :=
  match s.toList with
  | '-' :: ds => if DigitRun ds then some (-(Nat.ofDigitChars 10 ds 0 : Int)) else none
  | ds => if DigitRun ds then some (Nat.ofDigitChars 10 ds 0) else none

/-- A text that writes an integer without needless characters: no zero before another digit, and no minus sign
before zero. -/
def Unpadded (s : String) : Prop :=
  ∃ ds, DigitRun ds ∧
    (s.toList = ds ∧ (ds = ['0'] ∨ ds.head? ≠ some '0') ∨ s.toList = '-' :: ds ∧ ds.head? ≠ some '0')

theorem minus_not_digitRun (ds : List Char) : ¬ DigitRun ('-' :: ds) := by
  intro h
  exact absurd (h.2 '-' (List.mem_cons_self ..)) (by decide)

variable {s : String} {ds : List Char}

theorem written?_of_minus (h : s.toList = '-' :: ds) :
    written? s = if DigitRun ds then some (-(Nat.ofDigitChars 10 ds 0 : Int)) else none := by
  unfold written?
  rw [h]
  rfl

theorem written?_of_ne_minus (h : ∀ ds, s.toList ≠ '-' :: ds) :
    written? s = if DigitRun s.toList then some (Nat.ofDigitChars 10 s.toList 0 : Int) else none := by
  unfold written?
  split
  · rename_i ds hs
    exact absurd hs (h ds)
  · rfl

theorem written?_of_digitRun (h : DigitRun s.toList) : written? s = some (Nat.ofDigitChars 10 s.toList 0 : Int) := by
  rw [written?_of_ne_minus, if_pos h]
  intro ds hs
  rw [hs] at h
  exact minus_not_digitRun ds h

/-- A text writes an integer if it is a run of digits with or without one minus sign. -/
theorem written?_isSome : (∃ n, written? s = some n) ↔ ∃ ds, DigitRun ds ∧ (s.toList = ds ∨ s.toList = '-' :: ds) := by
  constructor
  · rintro ⟨n, hn⟩
    by_cases hm : ∃ ds, s.toList = '-' :: ds
    · obtain ⟨ds, hs⟩ := hm
      rw [written?_of_minus hs] at hn
      split at hn
      · rename_i hds
        exact ⟨ds, hds, .inr hs⟩
      · cases hn
    · rw [not_exists] at hm
      rw [written?_of_ne_minus hm] at hn
      split at hn
      · rename_i hds
        exact ⟨_, hds, .inl rfl⟩
      · cases hn
  · rintro ⟨ds, hds, hs | hs⟩
    · rw [← hs] at hds
      exact ⟨_, written?_of_digitRun hds⟩
    · exact ⟨_, by rw [written?_of_minus hs, if_pos hds]⟩

/-! ## The text of an integer -/

theorem toList_toString_natCast (n : Nat) : (toString (n : Int)).toList = Nat.toDigits 10 n := Nat.toList_repr

theorem toList_toString_neg {n : Nat} (hn : 0 < n) : (toString (-(n : Int))).toList = '-' :: Nat.toDigits 10 n := by
  obtain ⟨m, rfl⟩ := Nat.exists_eq_succ_of_ne_zero hn.ne'
  have : toString (-((m + 1 : Nat) : Int)) = "-" ++ (m + 1).repr := rfl
  rw [Nat.succ_eq_add_one, this, String.toList_append, Nat.toList_repr]
  rfl

/-- The text of an integer writes it, without needless characters. -/
theorem toString_spec (n : Int) : written? (toString n) = some n ∧ Unpadded (toString n) := by
  rcases Int.eq_nat_or_neg n with ⟨m, rfl | rfl⟩
  · have hlist := toList_toString_natCast m
    have hrun := digitRun_toDigits m
    constructor
    · rw [written?_of_digitRun (by rwa [hlist]), hlist, Nat.ofDigitChars_ten_toDigits]
    · refine ⟨_, hrun, .inl ⟨hlist, ?_⟩⟩
      by_cases hm : 0 < m
      · right
        exact head?_toDigits hm
      · left
        rw [Nat.eq_zero_of_not_pos hm, Nat.toDigits_zero]
  · by_cases hm : 0 < m
    · have hlist := toList_toString_neg hm
      have hrun := digitRun_toDigits m
      constructor
      · rw [written?_of_minus hlist, if_pos hrun, Nat.ofDigitChars_ten_toDigits]
      · exact ⟨_, hrun, .inr ⟨hlist, head?_toDigits hm⟩⟩
    · obtain rfl := Nat.eq_zero_of_not_pos hm
      exact ⟨rfl, ['0'], by decide, .inl ⟨rfl, .inl rfl⟩⟩

/-- No other text writes it so. -/
theorem eq_toString_of_unpadded {n : Int} (hs : Unpadded s) (hn : written? s = some n) : s = toString n := by
  apply String.toList_inj.mp
  obtain ⟨ds, hds, ⟨hlist, hlead⟩ | ⟨hlist, hlead⟩⟩ := hs
  · rw [written?_of_digitRun (by rwa [hlist]), hlist, Option.some_inj] at hn
    rw [hlist, ← hn, toList_toString_natCast]
    rcases hlead with rfl | hlead
    · rfl
    · exact (toDigits_ofDigitChars hds hlead).symm
  · rw [written?_of_minus hlist, if_pos hds, Option.some_inj] at hn
    have hdigits := toDigits_ofDigitChars hds hlead
    have hpos : 0 < Nat.ofDigitChars 10 ds 0 := by
      by_contra hzero
      rw [Nat.eq_zero_of_not_pos hzero, Nat.toDigits_zero] at hdigits
      rw [← hdigits] at hlead
      exact hlead rfl
    rw [hlist, ← hn, toList_toString_neg hpos, hdigits]

/-! ## Reading -/

theorem digitValue_eq {c : Char} (h : '0' ≤ c ∧ c ≤ '9') : digitValue c = (c.toNat - 48 : Nat) := by
  have := digit_bounds h
  unfold digitValue
  simp only [Char.reduceToNat]
  omega

theorem limbsOfDigits_nil (place : Nat) (limb : Int) : limbsOfDigits place limb [] = [limb] := rfl

theorem limbsOfDigits_cons (place : Nat) (limb : Int) (c : Char) (cs : List Char) :
    limbsOfDigits place limb (c :: cs) =
      if place = baseDigits then limb :: limbsOfDigits 1 (digitValue c) cs
      else limbsOfDigits (place + 1) (limb + digitValue c * 10 ^ place) cs := rfl

/-- The digits that are grouped into limbs come lowest first. -/
theorem value_limbsOfDigits {place : Nat} (limb : Int) {cs : List Char} (hcs : ∀ c ∈ cs, '0' ≤ c ∧ c ≤ '9') :
    value (limbsOfDigits place limb cs) = limb + 10 ^ place * (Nat.ofDigitChars 10 cs.reverse 0 : Int) := by
  induction cs generalizing place limb with
  | nil => simp [limbsOfDigits_nil]
  | cons c cs ih =>
    rw [List.forall_mem_cons] at hcs
    have hrev : (Nat.ofDigitChars 10 (c :: cs).reverse 0 : Int) =
        10 * (Nat.ofDigitChars 10 cs.reverse 0 : Int) + digitValue c := by
      rw [List.reverse_cons, Nat.ofDigitChars_append, Nat.ofDigitChars_cons, Nat.ofDigitChars_nil,
        digitValue_eq hcs.1]
      push_cast
      rfl
    rw [limbsOfDigits_cons, hrev]
    split
    · -- The limb is full, and the digit opens the next one.
      rename_i hfull
      have hbase : base = 10 ^ place := by rw [hfull]; rfl
      rw [value_cons, ih _ hcs.2, hbase]
      ring
    · rw [ih _ hcs.2]
      ring

theorem limbs_limbsOfDigits {place : Nat} {limb : Int} {cs : List Char} (hplace : place ≤ baseDigits)
    (hlimb : 0 ≤ limb ∧ limb < 10 ^ place) (hcs : ∀ c ∈ cs, '0' ≤ c ∧ c ≤ '9') :
    Limbs (limbsOfDigits place limb cs) := by
  have hlt : limb < base := by
    calc limb < 10 ^ place := hlimb.2
      _ ≤ 10 ^ baseDigits := pow_le_pow_right₀ (by decide) hplace
      _ = base := rfl
  induction cs generalizing place limb with
  | nil =>
    rw [limbsOfDigits_nil, limbs_cons]
    exact ⟨⟨hlimb.1, hlt⟩, limbs_nil⟩
  | cons c cs ih =>
    rw [List.forall_mem_cons] at hcs
    have hdigit : 0 ≤ digitValue c ∧ digitValue c < 10 := by
      have := digit_bounds hcs.1
      rw [digitValue_eq hcs.1]
      omega
    rw [limbsOfDigits_cons]
    split
    · rw [limbs_cons]
      exact ⟨⟨hlimb.1, hlt⟩, ih (by decide) hdigit hcs.2 (by unfold base; omega)⟩
    · rename_i hne
      have hpow : (0 : Int) < 10 ^ place := by positivity
      have hnext : 0 ≤ limb + digitValue c * 10 ^ place ∧ limb + digitValue c * 10 ^ place < 10 ^ (place + 1) := by
        constructor
        · exact add_nonneg hlimb.1 (mul_nonneg hdigit.1 hpow.le)
        · have : digitValue c * 10 ^ place ≤ 9 * 10 ^ place := mul_le_mul_of_nonneg_right (by omega) hpow.le
          rw [pow_succ]
          omega
      refine ih (by omega) hnext hcs.2 ?_
      calc limb + digitValue c * 10 ^ place < 10 ^ (place + 1) := hnext.2
        _ ≤ 10 ^ baseDigits := pow_le_pow_right₀ (by decide) (by omega)
        _ = base := rfl

theorem normalize_limbsOfDigits_represents {sign : Int} (hs : sign = 1 ∨ sign = -1) (hds : DigitRun ds) :
    (normalize sign (limbsOfDigits 0 0 ds.reverse)).Represents (sign * (Nat.ofDigitChars 10 ds 0 : Int)) := by
  have hrev : ∀ c ∈ ds.reverse, '0' ≤ c ∧ c ≤ '9' := by
    intro c hc
    exact hds.2 c (List.mem_reverse.mp hc)
  have hvalue : value (limbsOfDigits 0 0 ds.reverse) = Nat.ofDigitChars 10 ds 0 := by
    rw [value_limbsOfDigits 0 hrev, List.reverse_reverse]
    ring
  rw [← hvalue]
  exact normalize_represents (limbs_limbsOfDigits (by decide) (by decide) hrev) hs

theorem parse_of_minus (h : s.toList = '-' :: ds) :
    parse s = if isDigits ds then .ok (normalize (-1) (limbsOfDigits 0 0 ds.reverse))
      else .error (.malformedLiteral s) := by
  unfold parse
  rw [h]
  rfl

theorem parse_of_ne_minus (h : ∀ ds, s.toList ≠ '-' :: ds) :
    parse s = if isDigits s.toList then .ok (normalize 1 (limbsOfDigits 0 0 s.toList.reverse))
      else .error (.malformedLiteral s) := by
  unfold parse
  split
  rename_i sign digits hsplit
  split at hsplit
  · rename_i ds hs
    exact absurd hs (h ds)
  · cases hsplit
    rfl

/-- A text that writes an integer is read as that integer, in canonical form. -/
theorem parse_represents {n : Int} (h : written? s = some n) : ∃ a, parse s = .ok a ∧ a.Represents n := by
  by_cases hm : ∃ ds, s.toList = '-' :: ds
  · obtain ⟨ds, hs⟩ := hm
    rw [written?_of_minus hs] at h
    split at h
    · rename_i hds
      cases h
      rw [parse_of_minus hs, if_pos (isDigits_iff.mpr hds)]
      refine ⟨_, rfl, ?_⟩
      simpa using normalize_limbsOfDigits_represents (.inr rfl) hds
    · cases h
  · rw [not_exists] at hm
    rw [written?_of_ne_minus hm] at h
    split at h
    · rename_i hds
      cases h
      rw [parse_of_ne_minus hm, if_pos (isDigits_iff.mpr hds)]
      refine ⟨_, rfl, ?_⟩
      simpa using normalize_limbsOfDigits_represents (.inl rfl) hds
    · cases h

/-- Any other text is quoted in the fault. -/
theorem parse_malformed (h : written? s = none) : parse s = .error (.malformedLiteral s) := by
  by_cases hm : ∃ ds, s.toList = '-' :: ds
  · obtain ⟨ds, hs⟩ := hm
    rw [written?_of_minus hs] at h
    split at h
    · cases h
    · rename_i hds
      rw [parse_of_minus hs, if_neg (by rwa [isDigits_iff])]
  · rw [not_exists] at hm
    rw [written?_of_ne_minus hm] at h
    split at h
    · cases h
    · rename_i hds
      rw [parse_of_ne_minus hm, if_neg (by rwa [isDigits_iff])]

theorem canonical_of_parse {a : Integer} (h : parse s = .ok a) : a.Canonical := by
  cases hw : written? s with
  | none =>
    rw [parse_malformed hw] at h
    cases h
  | some n =>
    obtain ⟨b, hb, hrep⟩ := parse_represents hw
    rw [hb] at h
    cases h
    exact hrep.canonical

/-! ## Printing -/

theorem toList_pushn (t : String) (c : Char) (n : Nat) : (t.pushn c n).toList = t.toList ++ List.replicate n c := by
  rw [String.pushn_eq_repeat_push]
  induction n with
  | zero => simp [Nat.repeat]
  | succ n ih => rw [Nat.repeat, String.toList_push, ih, List.append_assoc, List.replicate_succ']

/-- The text of a limb below the top has as many digits as a limb can have. -/
theorem toList_limbText {x : Int} (hx : 0 ≤ x ∧ x < base) :
    (limbText x).toList =
      List.replicate (baseDigits - (Nat.toDigits 10 x.toNat).length) '0' ++ Nat.toDigits 10 x.toNat := by
  obtain ⟨n, rfl⟩ := Int.eq_ofNat_of_zero_le hx.1
  have hsign : ¬ (n : Int) < 0 := by omega
  have hlength : (toString n).length = (Nat.toDigits 10 n).length := by
    rw [← String.length_toList]
    exact congrArg List.length Nat.toList_repr
  unfold limbText
  simp only [Int.natAbs_natCast, if_neg hsign, hlength, String.toList_append, toList_pushn]
  simp

/-- Another limb below those of a number other than zero. -/
theorem toDigits_append_limb {n : Nat} (hn : 0 < n) {x : Int} (hx : 0 ≤ x ∧ x < base) :
    Nat.toDigits 10 n ++ (limbText x).toList = Nat.toDigits 10 (base * n + x).toNat := by
  obtain ⟨m, rfl⟩ := Int.eq_ofNat_of_zero_le hx.1
  have hm : m < 10 ^ baseDigits := by
    have := hx.2
    unfold base at this
    unfold baseDigits
    omega
  rw [toList_limbText hx, Int.toNat_natCast]
  have hlength : (Nat.toDigits 10 m).length ≤ baseDigits := (Nat.length_toDigits_le_iff (by decide) (by decide)).mpr hm
  have hdigits : ∀ c ∈ List.replicate (baseDigits - (Nat.toDigits 10 m).length) '0' ++ Nat.toDigits 10 m,
      '0' ≤ c ∧ c ≤ '9' := by
    rw [List.forall_mem_append]
    constructor
    · intro c hc
      rw [List.eq_of_mem_replicate hc]
      decide
    · exact (digitRun_toDigits m).2
  rw [toDigits_append hn hdigits, Nat.ofDigitChars_append, Nat.ofDigitChars_replicate_zero,
    Nat.ofDigitChars_eq_ofDigitChars_zero, Nat.ofDigitChars_ten_toDigits, ← mul_assoc, ← pow_add,
    Nat.add_sub_cancel' hlength]
  have : (base * n + m : Int).toNat = 10 ^ baseDigits * n + m := by unfold base baseDigits; omega
  rw [this]

/-- All limbs below a number other than zero, highest first. -/
theorem toDigits_append_limbs {n : Nat} (hn : 0 < n) {rest : Magnitude} (hrest : Limbs rest) :
    Nat.toDigits 10 n ++ rest.flatMap (fun x => (limbText x).toList) =
      Nat.toDigits 10 (rest.foldl (fun v x => base * v + x) (n : Int)).toNat := by
  induction rest generalizing n with
  | nil => simp
  | cons x rest ih =>
    obtain ⟨hx, hrest⟩ := (limbs_cons x rest).1 hrest
    have hnext : ((base * n + x).toNat : Int) = base * n + x := Int.toNat_of_nonneg (by unfold base; omega)
    have hpos : 0 < (base * n + x).toNat := by
      unfold base
      omega
    rw [List.flatMap_cons, ← List.append_assoc, toDigits_append_limb hn hx, ih hpos hrest, hnext, List.foldl_cons]

/-- The value of limbs, computed from the top. -/
theorem value_eq_foldl (a : Magnitude) : value a = a.reverse.foldl (fun v x => base * v + x) 0 := by
  rw [List.foldl_reverse]
  induction a with
  | nil => rfl
  | cons x a ih =>
    rw [value_cons, List.foldr_cons, ← ih]
    ring

/-- The text of a canonical integer is the decimal text of its value. -/
theorem toDecimal_eq_toString {a : Integer} (ha : a.Canonical) : a.toDecimal = toString a.toInt := by
  by_cases hs : a.sign = 0
  · have hzero : a = zero := by
      obtain ⟨sign, limbs⟩ := a
      have hlimbs := ha.zero.1 hs
      simp only at hs hlimbs
      rw [hs, hlimbs]
      rfl
    rw [hzero]
    rfl
  · have htrim : trim a.limbs = a.limbs := by
      rcases Stripped.trim ha.stripped with h0 | ht
      · exact absurd (ha.zero.2 h0) hs
      · exact ht
    obtain ⟨top, rest, hrev⟩ := List.exists_cons_of_ne_nil (List.reverse_ne_nil_iff.mpr (Stripped.ne_nil ha.stripped))
    have hlimbs : Limbs (top :: rest) := by
      rw [← hrev]
      intro x hx
      exact ha.limbs x (List.mem_reverse.mp hx)
    obtain ⟨htop, hrest⟩ := (limbs_cons top rest).1 hlimbs
    -- The top limb is not zero, so all digits below it count.
    have hpos : 0 < top.toNat := by
      have hlast := getLast?_ne_zero htrim
      rw [← List.head?_reverse, hrev, List.head?_cons, ne_eq, Option.some_inj] at hlast
      omega
    have hcast : (top.toNat : Int) = top := Int.toNat_of_nonneg htop.1
    have hdigits :
        (toString top ++ String.join (rest.map limbText)).toList = Nat.toDigits 10 (value a.limbs).toNat := by
      rw [value_eq_foldl, hrev, List.foldl_cons, mul_zero, zero_add, ← hcast, ← toDigits_append_limbs hpos hrest,
        String.toList_append, toList_toString_natCast, String.toList_join, List.flatMap_map]
    have hvalue := ha.value_pos hs
    apply String.toList_inj.mp
    unfold toDecimal toInt
    rw [hrev]
    simp only
    rcases ha.sign.resolve_left hs with h | h
    · have hmag : (1 * value a.limbs : Int) = ((value a.limbs).toNat : Int) := by omega
      rw [h, if_neg (by decide), hdigits, hmag, toList_toString_natCast]
    · have hmag : (-1 * value a.limbs : Int) = -((value a.limbs).toNat : Int) := by omega
      rw [h, if_pos (by decide), String.toList_append, hdigits, hmag, toList_toString_neg (by omega)]
      rfl

/-! ## Round trips -/

/-- A value has one canonical integer. -/
theorem Represents.unique {a b : Integer} {n : Int} (ha : a.Represents n) (hb : b.Represents n) : a = b := by
  have ca := ha.canonical
  have cb := hb.canonical
  have hsign : a.sign = b.sign := by rw [ca.sign_eq, cb.sign_eq, ha.toInt, hb.toInt]
  have hlimbs : a.limbs = b.limbs := by
    by_cases hs : a.sign = 0
    · rw [ca.zero.1 hs, cb.zero.1 (hsign ▸ hs)]
    · have hvalue : a.limbs.value = b.limbs.value := by
        have := ha.toInt.trans hb.toInt.symm
        unfold Integer.toInt at this
        rw [← hsign] at this
        exact mul_left_cancel₀ hs this
      exact eq_of_value_eq ca.limbs cb.limbs ca.stripped cb.stripped hvalue
  obtain ⟨sign, limbs⟩ := a
  obtain ⟨sign', limbs'⟩ := b
  simp only at hsign hlimbs
  rw [hsign, hlimbs]

theorem parse_toDecimal {a : Integer} (ha : a.Canonical) : parse a.toDecimal = .ok a := by
  rw [toDecimal_eq_toString ha]
  obtain ⟨b, hb, hrep⟩ := parse_represents (toString_spec a.toInt).1
  rw [hb, hrep.unique ⟨ha, rfl⟩]

/-- The number in a document is read from its text, and has none if it has too many digits. -/
theorem ofPlain_int (n : Int) :
    (Text.IsWritable n → ofPlain (.int n) = some (.ok (ofInt n))) ∧
      (¬ Text.IsWritable n → ofPlain (.int n) = none) := by
  unfold ofPlain
  constructor
  · intro h
    have hplain : (Document.int n).plain = some (toString n) := if_pos h
    obtain ⟨a, ha, hrep⟩ := parse_represents (toString_spec n).1
    rw [hplain, Option.map_some, ha, hrep.unique (ofInt_represents n)]
  · intro h
    rw [Document.plain_int_eq_none h]
    rfl

/-- A text that writes no integer is quoted, and one that does is read as the canonical form of this integer, whose
own text is the one without needless characters. -/
theorem parse_reads (s : String) :
    ((∃ a, parse s = .ok a) ↔ ∃ ds, DigitRun ds ∧ (s.toList = ds ∨ s.toList = '-' :: ds)) ∧
      (∀ fault, parse s = .error fault →
        Cause.ofInteger fault = .malformedLiteral s ∧ (Cause.ofInteger fault).subject = some s) ∧
      ∀ a, parse s = .ok a → a.Canonical ∧ written? s = some a.toInt ∧
        ∀ t, t = a.toDecimal ↔ Unpadded t ∧ written? t = written? s := by
  rw [← written?_isSome]
  cases hw : written? s with
  | none =>
    rw [parse_malformed hw]
    refine ⟨?_, ?_, ?_⟩
    · simp
    · rintro fault ⟨⟩
      exact ⟨rfl, rfl⟩
    · rintro a ⟨⟩
  | some n =>
    obtain ⟨a, ha, hrep⟩ := parse_represents hw
    rw [ha]
    refine ⟨?_, ?_, ?_⟩
    · simp
    · rintro fault ⟨⟩
    · rintro b ⟨⟩
      rw [hrep.toInt]
      refine ⟨hrep.canonical, rfl, ?_⟩
      intro t
      rw [toDecimal_eq_toString hrep.canonical, hrep.toInt]
      constructor
      · rintro rfl
        exact (toString_spec n).symm
      · rintro ⟨ht, hn⟩
        exact eq_toString_of_unpadded ht hn

/-- Reading accepts exactly an optional minus sign and digits, gives the canonical form of the integer that the
text writes, and quotes any other text. Printing a canonical integer and reading it again gives it back, and
printing what was read gives the one text without needless characters that writes the same integer. The number in a
document is read as itself if it has few enough digits, and else it has no text to be read; a truth value has one that
writes no integer. -/
theorem decimal_text_inverse (s : String) (a : Integer) (n : Int) (b : Bool) :
    (((∃ c, parse s = .ok c) ↔ ∃ ds, DigitRun ds ∧ (s.toList = ds ∨ s.toList = '-' :: ds)) ∧
      (∀ fault, parse s = .error fault →
        Cause.ofInteger fault = .malformedLiteral s ∧ (Cause.ofInteger fault).subject = some s) ∧
      ∀ c, parse s = .ok c → c.Canonical ∧ written? s = some c.toInt ∧
        ∀ t, t = c.toDecimal ↔ Unpadded t ∧ written? t = written? s) ∧
    (a.Canonical → Unpadded a.toDecimal ∧ a.toDecimal = toString a.toInt ∧ parse a.toDecimal = .ok a) ∧
    ((n.natAbs < 10 ^ Text.longestNumber → ∃ c, ofPlain (.int n) = some (.ok c) ∧ c.Canonical ∧ c.toInt = n) ∧
      (10 ^ Text.longestNumber ≤ n.natAbs → ofPlain (.int n) = none)) ∧
    ∃ t, ofPlain (.bool b) = some (.error (.malformedLiteral t)) := by
  refine ⟨parse_reads s, ?_, ?_, ?_⟩
  · intro ha
    have heq := toDecimal_eq_toString ha
    refine ⟨?_, heq, parse_toDecimal ha⟩
    rw [heq]
    exact (toString_spec a.toInt).2
  · obtain ⟨hshort, hlong⟩ := ofPlain_int n
    rw [← not_lt, ← Text.isWritable_iff]
    exact ⟨fun h => ⟨_, hshort h, (ofInt_represents n).canonical, (ofInt_represents n).toInt⟩, hlong⟩
  · cases b with
    | false => exact ⟨"False", rfl⟩
    | true => exact ⟨"True", rfl⟩

/-- Zeros in front that fill a limb of their own, and a limb of nothing but zeros. -/
theorem decimal_text_inverse_padded :
    ∃ a, parse "-0000000001000000000000000005" = .ok a ∧ a.Canonical ∧ a.toInt = -1000000000000000005 ∧
      a.limbs = [5, 0, 1] ∧ a.toDecimal = "-1000000000000000005" ∧ parse a.toDecimal = .ok a ∧
      ofPlain (.int (-1000000000000000005)) = some (.ok a) := by
  have hread : parse "-0000000001000000000000000005" = .ok ⟨-1, [5, 0, 1]⟩ := by decide
  have hvalue : written? "-0000000001000000000000000005" = some (-1000000000000000005) := by decide
  have hshort : (-1000000000000000005 : Int).natAbs < 10 ^ Text.longestNumber :=
    calc
      (-1000000000000000005 : Int).natAbs < 10 ^ 19 := by decide
      _ ≤ 10 ^ Text.longestNumber := Nat.pow_le_pow_right (by decide) (by decide)
  obtain ⟨⟨-, -, hok⟩, hprinted, ⟨hnumber, -⟩, -⟩ :=
    decimal_text_inverse "-0000000001000000000000000005" ⟨-1, [5, 0, 1]⟩ (-1000000000000000005) true
  obtain ⟨hcanonical, hwritten, -⟩ := hok _ hread
  obtain ⟨-, htext, hback⟩ := hprinted hcanonical
  have hint := Option.some_inj.mp (hwritten.symm.trans hvalue)
  obtain ⟨c, hc, hrep⟩ := hnumber hshort
  obtain rfl : c = ⟨-1, [5, 0, 1]⟩ := Represents.unique ⟨hrep.1, hrep.2⟩ ⟨hcanonical, hint⟩
  refine ⟨_, hread, hcanonical, hint, rfl, ?_, hback, hc⟩
  rw [htext, hint]
  rfl

/-- The least number that is too long is not read, and neither is a truth value as one. -/
theorem number_unread :
    ofPlain (.int (10 ^ Text.longestNumber)) = none ∧ ofPlain (.bool true) = some (.error (.malformedLiteral "True")) :=
  ⟨(ofPlain_int _).2 Text.not_isWritable_pow, rfl⟩

end Integer

end TreeScript
