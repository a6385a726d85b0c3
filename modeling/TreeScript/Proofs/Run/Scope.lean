/-
Which names a scope binds and whether they are mutable. Declaring changes that for one name of the
current frame, and only if the frame did not bind it; replacing a value changes it for no name, and neither
does a failure.
-/
import Mathlib.Tactic
import TreeScript.Scope

namespace TreeScript

/-! ## Frames -/

namespace Frame

/-- Whether a frame's binding of a name is mutable; `none` if there is no binding. -/
def mutability? (f : Frame) (name : String) : Option Bool := (f.find? name).map (·.isMutable)

theorem owns_eq (f : Frame) (name : String) : f.owns name = (f.mutability? name).isSome :=
  Option.isSome_map.symm

theorem find?_bind {f : Frame} {b : Binding} (h : f.owns b.name = false) (name : String) :
    (f.bind b).find? name = if b.name = name then some b else f.find? name := by
  have hfree : f.find? b.name = none := Option.not_isSome_iff_eq_none.mp (Bool.eq_false_iff.mp h)
  unfold find? bind
  rw [List.find?_append]
  by_cases hb : b.name = name
  · subst hb
    unfold find? at hfree
    simp [hfree]
  · simp [hb]

theorem find?_set (f : Frame) (name : String) (value : Value) (other : String) :
    (f.set name value).find? other = (f.find? other).map fun b => if other = name then { b with value } else b := by
  let change (b : Binding) : Binding := if b.name == name then { b with value } else b
  have hname : (fun b : Binding => b.name == other) ∘ change = fun b => b.name == other := by
    funext b
    simp only [Function.comp, change]
    split <;> rfl
  unfold find? set
  rw [List.find?_map, hname]
  apply Option.map_congr
  intro b hb
  have hfound : b.name = other := by simpa using List.find?_some hb
  simp only [hfound, beq_iff_eq]

theorem owns_set (f : Frame) (name : String) (value : Value) (other : String) :
    (f.set name value).owns other = f.owns other := by
  unfold owns
  rw [find?_set, Option.isSome_map]

theorem mutability?_bind {f : Frame} {b : Binding} (h : f.owns b.name = false) (name : String) :
    (f.bind b).mutability? name = if b.name = name then some b.isMutable else f.mutability? name := by
  unfold mutability?
  rw [find?_bind h]
  split <;> rfl

theorem mutability?_set (f : Frame) (name : String) (value : Value) (other : String) :
    (f.set name value).mutability? other = f.mutability? other := by
  unfold mutability?
  rw [find?_set, Option.map_map]
  apply Option.map_congr
  intro b _
  simp only [Function.comp]
  split <;> rfl

end Frame

/-! ## Scopes -/

namespace Scope

/-- Whether the binding that a name means is mutable; `none` if there is no binding. -/
def mutability? (s : Scope) (name : String) : Option Bool := (s.find? name).map (·.isMutable)

theorem isDefined_eq (s : Scope) (name : String) : s.isDefined name = (s.mutability? name).isSome :=
  Option.isSome_map.symm

/-- A name is looked for in the current frame first. -/
theorem mutability?_eq_findSome? (s : Scope) (name : String) :
    s.mutability? name = s.frames.findSome? (·.mutability? name) := by
  unfold mutability? find?
  rw [List.map_findSome?]
  rfl

/-- A name that cannot be read has no binding, and the failure says so. -/
theorem lookup_eq_error {s : Scope} {name : String} {cause : Cause} (h : s.lookup name = .error cause) :
    s.mutability? name = none ∧ cause = .undefinedVariable name := by
  unfold lookup at h
  unfold mutability?
  cases hb : s.find? name with
  | none =>
    rw [hb] at h
    cases h
    exact ⟨rfl, rfl⟩
  | some b => simp [hb] at h

theorem isDefined_of_lookup {s : Scope} {name : String} {v : Value} (h : s.lookup name = .ok v) :
    s.isDefined name := by
  unfold lookup at h
  unfold isDefined
  cases hb : s.find? name with
  | none => simp [hb] at h
  | some b => rfl

/-- A name that cannot be assigned to has no binding, or a constant one, and the failure says which. -/
theorem currentForUpdate_eq_error {s : Scope} {name : String} {cause : Cause}
    (h : s.currentForUpdate name = .error cause) :
    (s.mutability? name = none ∧ cause = .undefinedVariable name) ∨
      (s.mutability? name = some false ∧ cause = .immutableAssignment name) := by
  unfold currentForUpdate at h
  unfold mutability?
  cases hb : s.find? name with
  | none =>
    left
    rw [hb] at h
    cases h
    exact ⟨rfl, rfl⟩
  | some b =>
    right
    rw [hb] at h
    by_cases hm : b.isMutable
    · simp [hm] at h
    · simp only [hm] at h
      cases h
      exact ⟨by simpa using hm, rfl⟩

/-- Assigning fails only where the variable cannot be read for it, and otherwise sets a value. -/
theorem assign_eq_error {s : Scope} {name : String} {value : Value} {cause : Cause}
    (h : s.assign name value = .error cause) : s.currentForUpdate name = .error cause := by
  unfold assign at h
  cases hc : s.currentForUpdate name with
  | error cause' =>
    rw [hc] at h
    cases h
    rfl
  | ok current =>
    rw [hc] at h
    cases h

theorem assign_eq_ok {s s' : Scope} {name : String} {value : Value} (h : s.assign name value = .ok s') :
    s' = s.set name value := by
  unfold assign at h
  cases hc : s.currentForUpdate name with
  | error cause =>
    rw [hc] at h
    cases h
  | ok current =>
    rw [hc] at h
    cases h
    rfl

/-- What may be assigned to is mutable. -/
theorem mutable_of_assign {s s' : Scope} {name : String} {value : Value} (h : s.assign name value = .ok s') :
    ∃ b, s.find? name = some b ∧ b.isMutable = true := by
  unfold assign currentForUpdate at h
  cases hb : s.find? name with
  | none =>
    rw [hb] at h
    cases h
  | some b =>
    refine ⟨b, rfl, ?_⟩
    by_contra hm
    simp [hb, hm] at h
    cases h

/-- Setting works on the frames from the innermost on. -/
theorem frames_set (s : Scope) (name : String) (value : Value) :
    (s.set name value).frames = setFirst name value s.frames := by
  simp only [set, frames, setFirst]
  split <;> rfl

/-- Setting passes the frames that do not bind the name. -/
theorem setFirst_append {name : String} {inner : List Frame} (h : ∀ g ∈ inner, g.owns name = false)
    (value : Value) (rest : List Frame) :
    setFirst name value (inner ++ rest) = inner ++ setFirst name value rest := by
  induction inner with
  | nil => rfl
  | cons g inner ih =>
    obtain ⟨hg, hinner⟩ := List.forall_mem_cons.mp h
    rw [List.cons_append, setFirst, if_neg (by simp [hg]), ih hinner, List.cons_append]

/-- Declaring fails only for a name that the current frame binds. -/
theorem declare_eq_error {s : Scope} {name : String} {value : Value} {isMutable : Bool} {cause : Cause}
    (h : s.declare name value isMutable = .error cause) :
    (s.current.mutability? name).isSome ∧ cause = .redeclaration name := by
  unfold declare owns at h
  rw [Frame.owns_eq] at h
  split at h
  · rename_i hs
    cases h
    exact ⟨hs, rfl⟩
  · cases h

theorem declare_eq_ok {s s' : Scope} {name : String} {value : Value} {isMutable : Bool}
    (h : s.declare name value isMutable = .ok s') :
    s.current.owns name = false ∧ s' = { s with current := s.current.bind ⟨name, value, isMutable⟩ } := by
  unfold declare owns at h
  split at h
  · cases h
  · rename_i hs
    cases h
    exact ⟨by simpa using hs, rfl⟩

/-! ### What a name means afterwards -/

theorem find?_declare {s s' : Scope} {name : String} {value : Value} {isMutable : Bool}
    (h : s.declare name value isMutable = .ok s') (other : String) :
    s'.find? other = if name = other then some ⟨name, value, isMutable⟩ else s.find? other := by
  obtain ⟨hnew, rfl⟩ := declare_eq_ok h
  unfold find? frames
  rw [List.findSome?_cons, List.findSome?_cons, Frame.find?_bind hnew]
  by_cases heq : name = other
  · simp [heq]
  · simp [heq]

theorem owns_declare {s s' : Scope} {name : String} {value : Value} {isMutable : Bool}
    (h : s.declare name value isMutable = .ok s') (other : String) :
    s'.owns other = (decide (name = other) || s.owns other) := by
  obtain ⟨hnew, rfl⟩ := declare_eq_ok h
  unfold owns Frame.owns
  rw [Frame.find?_bind hnew]
  by_cases heq : name = other
  · simp [heq]
  · simp [heq]

/-- In the frames from the innermost on, the first binding of the name is the one with another value. -/
theorem findSome?_setFirst (name : String) (value : Value) (fs : List Frame) (other : String) :
    (setFirst name value fs).findSome? (·.find? other) =
      (fs.findSome? (·.find? other)).map fun b => if other = name then { b with value } else b := by
  induction fs with
  | nil => rfl
  | cons f rest ih =>
    rw [setFirst]
    by_cases hown : f.owns name = true
    · rw [if_pos hown, List.findSome?_cons, List.findSome?_cons, Frame.find?_set]
      cases hf : f.find? other with
      | some b => rfl
      | none =>
        -- Another name is meant here, so that the value further out is as it was.
        have hne : other ≠ name := by
          rintro rfl
          simp [Frame.owns, hf] at hown
        simp [hne]
    · rw [if_neg hown, List.findSome?_cons, List.findSome?_cons]
      cases hf : f.find? other with
      | none => exact ih
      | some b =>
        have hne : other ≠ name := by
          rintro rfl
          simp [Frame.owns, hf] at hown
        simp [hne]

theorem find?_set (s : Scope) (name : String) (value : Value) (other : String) :
    (s.set name value).find? other = (s.find? other).map fun b => if other = name then { b with value } else b := by
  unfold find?
  rw [frames_set, findSome?_setFirst]

theorem owns_set (s : Scope) (name : String) (value : Value) (other : String) :
    (s.set name value).owns other = s.owns other := by
  unfold set owns
  split
  · exact Frame.owns_set _ _ _ _
  · rfl

end Scope

end TreeScript
