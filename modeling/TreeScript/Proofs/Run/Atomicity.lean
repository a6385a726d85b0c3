/-
What a simple statement does, it does as a whole. It has one effect, which its form decides: a declaration binds a name
in the current frame, an assignment or an update replaces one value, an output or a call emits one record, and any
other expression does nothing. All that can fail comes before the effect, so a statement that fails has had none.
-/
import TreeScript.Proofs.Run.Emission
import TreeScript.Proofs.Tree.Names

namespace TreeScript

/-! ## Replaced values -/

/-- A frame and what it is with another value for one of its variables, which is mutable. -/
structure Frame.Replaced (name : String) (value : Value) (f f' : Frame) : Prop where
  value : ∃ b, f.find? name = some b ∧ b.isMutable = true ∧ f'.find? name = some { b with value }
  others : ∀ other, other ≠ name → f'.find? other = f.find? other
  names : f'.bindings.map (·.name) = f.bindings.map (·.name)
  name : f'.name = f.name

/-- A scope and what it is with another value for a variable, in the innermost frame that binds the name. -/
def Scope.Replaced (name : String) (value : Value) (s s' : Scope) : Prop :=
  ∃ inner f f' outer, s.frames = inner ++ f :: outer ∧ (∀ g ∈ inner, g.owns name = false) ∧
    f.Replaced name value f' ∧ s'.frames = inner ++ f' :: outer

section

variable {st st' : State} {name : String}

theorem Scope.Replaced.find? {s s' : Scope} {value : Value} (h : s.Replaced name value s') :
    (s'.find? name).map (·.value) = some value := by
  obtain ⟨inner, f, f', outer, -, hinner, hf, hframes⟩ := h
  obtain ⟨b, -, -, hb⟩ := hf.value
  have hnone : inner.findSome? (·.find? name) = none := by
    rw [List.findSome?_eq_none_iff]
    intro g hg
    exact Option.not_isSome_iff_eq_none.mp (Bool.eq_false_iff.mp (hinner g hg))
  rw [Scope.find?, hframes, List.findSome?_append, hnone, Option.none_or, List.findSome?_cons, hb]
  rfl

end

/-! ## Simple statements -/

section

variable {st : State} {s : Stmt}

end

end TreeScript
