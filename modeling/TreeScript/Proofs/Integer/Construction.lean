/-
Integers from their parts. A sign and limbs are taken if zero is written as one zero limb with the sign 0, and any other
magnitude has the sign 1 or -1 and no zero limb on top. The limbs themselves are not looked at. If all of them are
digits to the base, what is taken is in canonical form: it is equal to another one exactly if both stand for one
integer, and its text is read back as itself. Of limbs that are no digits neither is true.
-/
import TreeScript.Proofs.Integer.Order

namespace TreeScript.Integer

open Magnitude

variable {sign : Int} {limbs : Magnitude} {a : Integer}

/-- The signs and limbs that fit together, as far as signs and zeros go. -/
inductive Shape : Int → Magnitude → Prop
  | zero : Shape 0 [0]
  | signed {sign top : Int} {limbs : Magnitude} (hsign : sign = 1 ∨ sign = -1) (htop : limbs.getLast? = some top)
    (hne : top ≠ 0) : Shape sign limbs

/-- The check of the parts looks for this form and nothing else. -/
theorem ofParts_eq_ok_iff : ofParts sign limbs = .ok a ↔ Shape sign limbs ∧ a = ⟨sign, limbs⟩ := by
  unfold ofParts
  constructor
  · intro h
    split at h
    · cases h
    · rename_i hsign
      split at h
      · cases h
      · rename_i hne
        split at h
        · rename_i hzero
          split at h
          · rename_i hlimbs
            cases h
            rw [hzero, hlimbs]
            exact ⟨.zero, rfl⟩
          · cases h
        · rename_i hzero
          split at h
          · cases h
          · rename_i htop
            cases h
            refine ⟨.signed (by omega) (List.getLast?_eq_some_getLast hne) ?_, rfl⟩
            intro hlast
            exact htop (hlast ▸ List.getLast?_eq_some_getLast hne)
  · rintro ⟨h, rfl⟩
    cases h with
    | zero => rfl
    | signed hsign htop hne =>
      have hnil : limbs ≠ [] := by
        rintro rfl
        cases htop
      have hlast : limbs.getLast? ≠ some 0 := by
        rw [htop]
        simpa using hne
      rw [if_neg (by omega), if_neg hnil, if_neg (by omega), if_neg hlast]

theorem exists_ofParts_iff : (∃ a, ofParts sign limbs = .ok a) ↔ Shape sign limbs := by
  constructor
  · rintro ⟨a, ha⟩
    exact (ofParts_eq_ok_iff.mp ha).1
  · intro h
    exact ⟨_, ofParts_eq_ok_iff.mpr ⟨h, rfl⟩⟩

/-- A top limb that is not zero leaves nothing to drop. -/
theorem trim_of_getLast? {top : Int} (h : limbs.getLast? = some top) (hne : top ≠ 0) : trim limbs = limbs := by
  induction limbs with
  | nil => cases h
  | cons x rest ih =>
    by_cases hrest : rest = []
    · rw [hrest, List.getLast?_singleton, Option.some_inj] at h
      rw [hrest, h, trim_singleton hne]
    · rw [List.getLast?_cons_of_ne_nil hrest] at h
      rw [trim_cons, ih h, if_neg hrest]

/-- The canonical form is the one that is looked for, of limbs that are digits. -/
theorem canonical_iff : (⟨sign, limbs⟩ : Integer).Canonical ↔ Shape sign limbs ∧ Limbs limbs := by
  constructor
  · intro h
    exact ⟨(ofParts_eq_ok_iff.mp h.ofParts).1, h.limbs⟩
  · rintro ⟨hshape, hlimbs⟩
    cases hshape with
    | zero => decide
    | signed hsign htop hne =>
      have htrim := trim_of_getLast? htop hne
      have hnil : limbs ≠ [] := by
        rintro rfl
        cases htop
      refine ⟨hlimbs, stripped_of_trim htrim hnil, .inr hsign, ?_⟩
      constructor
      · rintro rfl
        simp at hsign
      · rintro rfl
        exact absurd htrim (by decide)

/-- An integer is taken from its parts exactly if they have the form that is looked for. Of limbs that are digits to
the base these are the canonical forms and no others, any two of them are equal exactly if they stand for one integer,
and each is read back from its own text. What is taken of other limbs is never canonical and is never read back. -/
theorem construction_exact (sign : Int) (limbs : Magnitude) :
    ((∃ a, ofParts sign limbs = .ok a) ↔ Shape sign limbs) ∧
    (Limbs limbs → ((∃ a, ofParts sign limbs = .ok a) ↔ (⟨sign, limbs⟩ : Integer).Canonical)) ∧
    ∀ a, ofParts sign limbs = .ok a →
      (a.Canonical ↔ Limbs limbs) ∧ (parse a.toDecimal = .ok a ↔ Limbs limbs) ∧
      ∀ sign' limbs' b, ofParts sign' limbs' = .ok b → Limbs limbs → Limbs limbs' →
        (a = b ↔ a.toInt = b.toInt) := by
  refine ⟨exists_ofParts_iff, ?_, ?_⟩
  · intro hlimbs
    rw [exists_ofParts_iff, canonical_iff, and_iff_left hlimbs]
  · intro a ha
    obtain ⟨hshape, rfl⟩ := ofParts_eq_ok_iff.mp ha
    refine ⟨?_, ?_, ?_⟩
    · rw [canonical_iff, and_iff_right hshape]
    · constructor
      · intro hread
        exact (canonical_of_parse hread).limbs
      · intro hlimbs
        exact parse_toDecimal (canonical_iff.mpr ⟨hshape, hlimbs⟩)
    · intro sign' limbs' b hb hlimbs hlimbs'
      obtain ⟨hshape', rfl⟩ := ofParts_eq_ok_iff.mp hb
      exact eq_iff_toInt_eq (canonical_iff.mpr ⟨hshape, hlimbs⟩) (canonical_iff.mpr ⟨hshape', hlimbs'⟩)

/-- Three limbs with a zero between, and the same magnitude with the other sign. -/
theorem construction_exact_three_limbs :
    ∃ a b : Integer, ofParts (-1) [7, 0, 3] = .ok a ∧ ofParts 1 [7, 0, 3] = .ok b ∧ a.Canonical ∧
      parse a.toDecimal = .ok a ∧ (a = b ↔ a.toInt = b.toInt) ∧ a.toInt = -3000000000000000007 := by
  have hlimbs : Limbs [7, 0, 3] := by decide
  have ha : ofParts (-1) [7, 0, 3] = .ok ⟨-1, [7, 0, 3]⟩ := rfl
  have hb : ofParts 1 [7, 0, 3] = .ok ⟨1, [7, 0, 3]⟩ := rfl
  obtain ⟨-, -, hof⟩ := construction_exact (-1) [7, 0, 3]
  obtain ⟨hcanonical, hread, heq⟩ := hof _ ha
  exact ⟨_, _, ha, hb, hcanonical.mpr hlimbs, hread.mpr hlimbs, heq _ _ _ hb hlimbs hlimbs, rfl⟩

/-- A limb as great as the base is taken: what comes of it is not canonical, is not the integer of the same value in
canonical form, and its text is read back as that one. -/
theorem oversized_limb_accepted :
    ∃ a b : Integer, ofParts 1 [1000000000] = .ok a ∧ ofParts 1 [0, 1] = .ok b ∧ ¬ a.Canonical ∧
      a ≠ b ∧ a.toInt = b.toInt ∧ parse a.toDecimal = .ok b :=
  ⟨⟨1, [1000000000]⟩, ⟨1, [0, 1]⟩, rfl, rfl, by decide, by decide, rfl, by decide⟩

end TreeScript.Integer
