/-
How the frames of a check and the scope of a run belong together: frame by frame, a name is bound in
both or in neither, and is mutable in both or in neither. A check walks over each statement once,
while a run may skip one or come back to it, and then the two agree only if a statement
that is skipped or repeated declares nothing. Agreement therefore depends on two facts about the
tree: `loops`, that no loop declares a name as it goes on, and `branches`, that no condition
declares a name in its other branch. Without the first a run may have names that the check has not,
and without the second it may be the other way around.
-/
import TreeScript.Proofs.Check.Walk
import TreeScript.Proofs.Run.Scope

namespace TreeScript.Check

/-- What a run knows of a name and what the check does: whether it is bound, and if so, whether it is mutable. -/
structure Known (loops branches : Prop) (run check : Option Bool) : Prop where
  checked : loops → run.isSome → check.isSome
  reached : branches → check.isSome → run.isSome
  same : loops → branches → run = check

variable {loops branches : Prop}

namespace Known

variable {run check run' check' : Option Bool}

theorem refl (m : Option Bool) : Known loops branches m m := ⟨fun _ h => h, fun _ h => h, fun _ _ => rfl⟩

/-- A name that is bound further in hides what is known further out. -/
theorem or (h : Known loops branches run check) (h' : Known loops branches run' check') :
    Known loops branches (run.or run') (check.or check') where
  checked := by
    intro hl hrun
    rw [Option.isSome_or, Bool.or_eq_true] at hrun ⊢
    rcases hrun with hrun | hrun
    · left; exact h.checked hl hrun
    · right; exact h'.checked hl hrun
  reached := by
    intro hb hcheck
    rw [Option.isSome_or, Bool.or_eq_true] at hcheck ⊢
    rcases hcheck with hcheck | hcheck
    · left; exact h.reached hb hcheck
    · right; exact h'.reached hb hcheck
  same := by
    intro hl hb
    rw [h.same hl hb, h'.same hl hb]

/-- A run declares a name that the check has already seen. -/
theorem declare_again {m m' : Bool} (h : Known loops branches none (some m')) :
    Known loops branches (some m) (some m') :=
  ⟨fun _ _ => rfl, fun _ _ => rfl, fun hl hb => by cases h.same hl hb⟩

/-- The check goes on past a declaration, and the run does not come there. -/
theorem skip (h : Known loops branches run check) (hgrows : ∀ m, check = some m → check' = some m)
    (hsame : branches → check' = check) : Known loops branches run check' where
  checked := by
    intro hl hrun
    obtain ⟨m, hm⟩ := Option.isSome_iff_exists.mp (h.checked hl hrun)
    exact Option.isSome_of_eq_some (hgrows m hm)
  reached := by
    intro hb hcheck
    rw [hsame hb] at hcheck
    exact h.reached hb hcheck
  same := by
    intro hl hb
    rw [hsame hb]
    exact h.same hl hb

/-- The run comes back from a declaration to where the check has not seen it yet. -/
theorem back (h : Known loops branches run check') (hgrows : ∀ m, check = some m → check' = some m)
    (hsame : loops → check' = check) : Known loops branches run check where
  checked := by
    intro hl hrun
    rw [← hsame hl]
    exact h.checked hl hrun
  reached := by
    intro hb hcheck
    obtain ⟨m, hm⟩ := Option.isSome_iff_exists.mp hcheck
    exact h.reached hb (Option.isSome_of_eq_some (hgrows m hm))
  same := by
    intro hl hb
    rw [← hsame hl]
    exact h.same hl hb

end Known

/-! ## Frames -/

/-- The frames of a check, innermost first. -/
def State.frames (st : State) : List Names := st.current :: st.outer

/-- A frame of a run and one of a check that know the same names. -/
def FramesAgree (loops branches : Prop) (f : Frame) (names : Names) : Prop :=
  ∀ name, Known loops branches (f.mutability? name) (names.lookup name)

/-- A run declares a name in its frame, and the check does unless it has seen the name already. -/
theorem FramesAgree.declare {f : Frame} {names : Names} {name : String} {value : Value} {isMutable : Bool}
    (h : FramesAgree loops branches f names) (hnew : f.owns name = false) :
    FramesAgree loops branches (f.bind ⟨name, value, isMutable⟩)
      (if (names.lookup name).isSome then names else (name, isMutable) :: names) := by
  intro other
  rw [Frame.mutability?_bind hnew]
  by_cases heq : name = other
  · subst heq
    rw [if_pos rfl]
    by_cases hseen : (names.lookup name).isSome
    · rw [if_pos hseen]
      obtain ⟨m, hm⟩ := Option.isSome_iff_exists.mp hseen
      have hname := h name
      rw [Frame.owns_eq, Option.isSome_eq_false_iff, Option.isNone_iff_eq_none] at hnew
      rw [hnew, hm] at hname
      rw [hm]
      exact hname.declare_again
    · rw [if_neg hseen, List.lookup_cons_self]
      exact .refl _
  · rw [if_neg heq]
    split
    · exact h other
    · rw [List.lookup_cons, beq_eq_false_iff_ne.mpr (Ne.symm heq)]
      exact h other

theorem State.frames_declare (st : State) (name : String) (isMutable : Bool) (span : Span) :
    (st.declare name isMutable span).frames =
      (if (st.current.lookup name).isSome then st.current else (name, isMutable) :: st.current) :: st.outer := by
  unfold State.declare
  split
  · have h := st.walks_report (.fault (.redeclaration name)) span
    unfold frames
    rw [h.current rfl, h.outer]
  · rfl

section

variable {fs : List Frame} {names : List Names}

theorem known_findSome? (h : List.Forall₂ (FramesAgree loops branches) fs names) (name : String) :
    Known loops branches (fs.findSome? (·.mutability? name)) (names.findSome? (·.lookup name)) := by
  induction h with
  | nil => exact .refl none
  | @cons f n _ _ hf _ ih =>
    rw [List.findSome?_cons, List.findSome?_cons]
    have h := (hf name).or ih
    revert h
    cases f.mutability? name <;> cases n.lookup name <;> exact id

theorem agree_setFirst (h : List.Forall₂ (FramesAgree loops branches) fs names) (name : String) (value : Value) :
    List.Forall₂ (FramesAgree loops branches) (Scope.setFirst name value fs) names := by
  induction h with
  | nil => exact .nil
  | @cons f _ _ _ hf hrest ih =>
    rw [Scope.setFirst]
    split
    · refine .cons ?_ hrest
      intro other
      rw [Frame.mutability?_set]
      exact hf other
    · exact .cons hf ih

end

/-- A scope of a run and a state of a check that agree frame by frame. -/
def Agrees (loops branches : Prop) (scope : Scope) (st : State) : Prop :=
  List.Forall₂ (FramesAgree loops branches) scope.frames st.frames

namespace Agrees

variable {scope scope' : Scope} {st st' : State}

theorem fresh (maxErrors : Int) : Agrees loops branches .fresh (.fresh maxErrors) :=
  .cons (fun _ => .refl none) .nil

/-- Findings do not matter. -/
theorem of_frames (h : Agrees loops branches scope st) (hframes : st'.frames = st.frames) :
    Agrees loops branches scope st' := by
  unfold Agrees
  rw [hframes]
  exact h

theorem walk {n : Nat} (h : Agrees loops branches scope st) (hw : Walks n none st st') :
    Agrees loops branches scope st' := by
  apply h.of_frames
  unfold State.frames
  rw [hw.current rfl, hw.outer]

theorem current (h : Agrees loops branches scope st) : FramesAgree loops branches scope.current st.current := by
  cases h with
  | cons hcurrent _ => exact hcurrent

/-- What a name means is known alike. -/
theorem resolve (h : Agrees loops branches scope st) (name : String) :
    Known loops branches (scope.mutability? name) (st.resolve? name) := by
  rw [Scope.mutability?_eq_findSome?, State.resolve?]
  exact known_findSome? h name

theorem push (h : Agrees loops branches scope st) (scopeName : String) :
    Agrees loops branches (scope.push scopeName) st.push :=
  .cons (fun _ => .refl none) h

theorem pop (h : Agrees loops branches scope st) : Agrees loops branches scope.pop st.pop := by
  obtain ⟨current, outer⟩ := scope
  obtain ⟨names, others, collector⟩ := st
  cases h with
  | cons hcurrent houter =>
    cases houter with
    | nil => exact .cons hcurrent .nil
    | cons hf hrest => exact .cons hf hrest

/-- A declaration that the run gets through. -/
theorem declare {name : String} {value : Value} {isMutable : Bool} (span : Span)
    (h : Agrees loops branches scope st) (hrun : scope.declare name value isMutable = .ok scope') :
    Agrees loops branches scope' (st.declare name isMutable span) := by
  obtain ⟨hnew, rfl⟩ := Scope.declare_eq_ok hrun
  cases h with
  | cons hcurrent houter =>
    unfold Agrees
    rw [State.frames_declare]
    exact .cons (hcurrent.declare hnew) houter

/-- Values do not matter. -/
theorem set (h : Agrees loops branches scope st) (name : String) (value : Value) :
    Agrees loops branches (scope.set name value) st := by
  unfold Agrees
  rw [Scope.frames_set]
  exact agree_setFirst h name value

/-- The check goes on past what the run skips. -/
theorem skip {n : Nat} {d : Option String} (h : Agrees loops branches scope st) (hw : Walks n d st st')
    (hd : branches → d = none) : Agrees loops branches scope st' := by
  cases h with
  | cons hcurrent houter =>
    refine .cons ?_ (hw.outer ▸ houter)
    intro name
    apply (hcurrent name).skip (hw.grows name)
    intro hb
    rw [hw.current (hd hb)]

/-- The run comes back to where the check was before. -/
theorem back {n : Nat} {d : Option String} (h : Agrees loops branches scope st') (hw : Walks n d st st')
    (hd : loops → d = none) : Agrees loops branches scope st := by
  cases h with
  | cons hcurrent houter =>
    refine .cons ?_ (hw.outer ▸ houter)
    intro name
    apply (hcurrent name).back (hw.grows name)
    intro hl
    rw [hw.current (hd hl)]

end Agrees

end TreeScript.Check
