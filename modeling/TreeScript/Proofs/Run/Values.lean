/-
The values that a run computes with. A value is well formed if its integer, should it be one, is in canonical
form, and a scope is if all values in its frames are. Evaluating an expression in such a scope gives such a
value or ends in an error of evaluation, so that sound trees never come to a defect: there is one lemma for each
operator and each kind of node, and one for each simple statement.
-/
import TreeScript.Proofs.Integer.Decimal
import TreeScript.Proofs.Run.Evaluate
import TreeScript.Proofs.Tree.Nodes

namespace TreeScript

/-! ## Well-formed values -/

/-- A value in the form in which the engine keeps it. -/
def Value.WellFormed : Value → Prop
  | .integer a => a.Canonical
  | .text _ => True
  | .boolean _ => True

def Frame.WellFormed (f : Frame) : Prop := ∀ b ∈ f.bindings, b.value.WellFormed

/-- All values that a name may mean, now or once inner frames are closed. -/
def Scope.WellFormed (s : Scope) : Prop := ∀ f ∈ s.frames, f.WellFormed

namespace Frame.WellFormed

variable {f : Frame} {name : String} {value : Value}

theorem empty (name : String) : (Frame.empty name).WellFormed := by
  intro b hb
  cases hb

theorem bind {b : Binding} (hf : f.WellFormed) (hb : b.value.WellFormed) : (f.bind b).WellFormed := by
  intro c hc
  rcases List.mem_append.mp hc with hc | hc
  · exact hf c hc
  · rw [List.mem_singleton] at hc
    rwa [hc]

theorem set (hf : f.WellFormed) (hv : value.WellFormed) : (f.set name value).WellFormed := by
  intro c hc
  obtain ⟨b, hb, rfl⟩ := List.mem_map.mp hc
  split
  · exact hv
  · exact hf b hb

end Frame.WellFormed

namespace Scope.WellFormed

variable {s s' : Scope} {name : String} {value : Value}

theorem fresh : Scope.fresh.WellFormed := by
  intro f hf
  rw [List.mem_singleton.mp hf]
  exact .empty _

theorem push (h : s.WellFormed) (name : String) : (s.push name).WellFormed :=
  List.forall_mem_cons.mpr ⟨.empty name, h⟩

theorem pop (h : s.WellFormed) : s.pop.WellFormed := by
  obtain ⟨current, outer⟩ := s
  cases outer with
  | nil => exact h
  | cons f rest => exact (List.forall_mem_cons.mp h).2

theorem lookup (h : s.WellFormed) (hv : s.lookup name = .ok value) : value.WellFormed := by
  unfold Scope.lookup find? at hv
  split at hv
  · cases hv
  · rename_i b hb
    cases hv
    obtain ⟨f, hf, hfb⟩ := List.exists_of_findSome?_eq_some hb
    exact h f hf b (List.mem_of_find?_eq_some hfb)

theorem declare {isMutable : Bool} (h : s.WellFormed) (hv : value.WellFormed)
    (hs : s.declare name value isMutable = .ok s') : s'.WellFormed := by
  obtain ⟨-, rfl⟩ := declare_eq_ok hs
  obtain ⟨hcurrent, houter⟩ := List.forall_mem_cons.mp h
  exact List.forall_mem_cons.mpr ⟨hcurrent.bind hv, houter⟩

theorem set (h : s.WellFormed) (hv : value.WellFormed) : (s.set name value).WellFormed := by
  have hfirst (frames : List Frame) (hframes : ∀ f ∈ frames, f.WellFormed) :
      ∀ f ∈ setFirst name value frames, f.WellFormed := by
    induction frames with
    | nil => exact hframes
    | cons f rest ih =>
      obtain ⟨hf, hrest⟩ := List.forall_mem_cons.mp hframes
      unfold setFirst
      split
      · exact List.forall_mem_cons.mpr ⟨hf.set hv, hrest⟩
      · exact List.forall_mem_cons.mpr ⟨hf, ih hrest⟩
  unfold WellFormed
  rw [frames_set]
  exact hfirst _ h

theorem assign (h : s.WellFormed) (hv : value.WellFormed) (hs : s.assign name value = .ok s') : s'.WellFormed := by
  rw [assign_eq_ok hs]
  exact h.set hv

theorem currentForUpdate (h : s.WellFormed) (hv : s.currentForUpdate name = .ok value) : value.WellFormed := by
  apply h.lookup
  unfold Scope.currentForUpdate at hv
  unfold Scope.lookup
  split at hv
  · cases hv
  · split at hv
    · rename_i b hb _
      rwa [hb]
    · cases hv

end Scope.WellFormed

/-! ## Safe computations -/

/-- A computation that gives a good result, or ends in an error of evaluation. It does not come to a defect. -/
inductive Safe {α : Type} (P : α → Prop) : Except Failure α → Prop
  | ok {a : α} : P a → Safe P (.ok a)
  | error {e : Error} : e.cause.isEvaluation = true → Safe P (.error (.error e))

namespace Safe

variable {α β : Type} {P : α → Prop} {Q : β → Prop} {span : Span}

theorem fail {cause : Cause} (h : cause.isEvaluation = true) : Safe P (cause.fail span) := .error h

theorem placed {x : Except Cause α} (hok : ∀ a, x = .ok a → P a)
    (herror : ∀ cause, x = .error cause → cause.isEvaluation = true) : Safe P (placed span x) := by
  cases x with
  | ok a => exact .ok (hok a rfl)
  | error cause => exact .fail (herror cause rfl)

/-- A failure is handed on as it is. -/
theorem propagate {x : Except Failure α} {f : Failure} (hx : Safe P x) (h : x = .error f) :
    Safe Q (.error f : Except Failure β) := by
  rw [h] at hx
  cases hx with
  | error he => exact .error he

theorem result {x : Except Failure α} {a : α} (hx : Safe P x) (h : x = .ok a) : P a := by
  rw [h] at hx
  cases hx with
  | ok ha => exact ha

theorem map {x : Except Failure α} {f : α → β} (hx : Safe P x) (hf : ∀ a, P a → Q (f a)) : Safe Q (x.map f) := by
  cases hx with
  | ok h => exact .ok (hf _ h)
  | error h => exact .error h

end Safe

theorem Cause.isEvaluation_of_isOfValues {cause : Cause} (h : cause.isOfValues = true) : cause.isEvaluation = true := by
  simp only [isOfValues, Bool.and_eq_true] at h
  exact h.1.1

/-! ## Operators -/

/-- A quotient or a remainder that is there is canonical. -/
theorem Integer.canonical_of_divide {a b q : Integer} (ha : a.Canonical) (hb : b.Canonical)
    (h : a.divide b = .ok q) : q.Canonical := by
  by_cases hzero : b.toInt = 0
  · rw [divide_by_zero hb hzero] at h
    cases h
  · obtain ⟨q', hq, hrep⟩ := divide_represents ha hb hzero
    rw [hq] at h
    cases h
    exact hrep.canonical

theorem Integer.canonical_of_remainder {a b r : Integer} (ha : a.Canonical) (hb : b.Canonical)
    (h : a.remainder b = .ok r) : r.Canonical := by
  by_cases hzero : b.toInt = 0
  · rw [remainder_by_zero hb hzero] at h
    cases h
  · obtain ⟨r', hr, hrep⟩ := remainder_represents ha hb hzero
    rw [hr] at h
    cases h
    exact hrep.canonical

/-- What an operation on integers gives, as a value of a program. -/
theorem Value.wellFormed_of_integer {x : Except Integer.Fault Integer} {v : Value}
    (hx : ∀ a, x = .ok a → a.Canonical) (h : (x.mapError Cause.ofInteger).map Value.integer = .ok v) :
    v.WellFormed := by
  cases hxx : x with
  | error fault =>
    rw [hxx] at h
    cases h
  | ok a =>
    rw [hxx] at h
    cases h
    exact hx a hxx

namespace Value

variable {op : Token} {left right v : Value} {span : Span}

theorem requireIntegers_eq_ok {a b : Integer} (h : requireIntegers op left right = .ok (a, b)) :
    left = .integer a ∧ right = .integer b := by
  unfold requireIntegers at h
  split at h
  · cases h
    exact ⟨rfl, rfl⟩
  · cases h

theorem arithmetic_eq_ok (hl : left.WellFormed) (hr : right.WellFormed) (h : arithmetic op left right = .ok v) :
    v.WellFormed := by
  unfold arithmetic at h
  split at h
  · cases h
  · rename_i a b hab
    obtain ⟨rfl, rfl⟩ := requireIntegers_eq_ok hab
    split at h
    · cases h
      exact (Integer.add_represents hl hr).canonical
    · cases h
      exact (Integer.subtract_represents hl hr).canonical
    · cases h
      exact (Integer.multiply_represents hl hr).canonical
    · exact wellFormed_of_integer (fun _ => Integer.canonical_of_divide hl hr) h
    · exact wellFormed_of_integer (fun _ => Integer.canonical_of_remainder hl hr) h

theorem arithmetic_safe (hl : left.WellFormed) (hr : right.WellFormed) :
    Safe WellFormed (placed span (arithmetic op left right)) := by
  apply Safe.placed
  · intro v hv
    exact arithmetic_eq_ok hl hr hv
  · intro cause hc
    exact Cause.isEvaluation_of_isOfValues (arithmetic_error hc)

/-- A truth value that is computed from values of the right kinds. -/
theorem truth_safe {α : Type} {x : Except Cause α} {f : α → Bool}
    (herror : ∀ cause, x = .error cause → cause.isOfValues = true) :
    Safe WellFormed (placed span (x.map fun a => boolean (f a))) := by
  apply Safe.placed
  · rintro v hv
    cases x with
    | error cause => cases hv
    | ok a =>
      cases hv
      exact True.intro
  · intro cause hc
    exact Cause.isEvaluation_of_isOfValues (herror cause (map_error hc))

theorem requireBoolean_safe : Safe (fun _ => True) (placed span (requireBoolean op v)) := by
  apply Safe.placed
  · intro b _
    exact True.intro
  · intro cause hc
    exact Cause.isEvaluation_of_isOfValues (requireBoolean_error hc)

/-- The binary operators that need both of their operands. -/
theorem binary_safe (hop : op.isBinary = true) (hlogical : op.isLogical = false) (hl : left.WellFormed)
    (hr : right.WellFormed) : Safe WellFormed (binary span op left right) := by
  unfold binary
  split
  · exact arithmetic_safe hl hr
  · rename_i harith
    split
    · exact truth_safe fun _ => equal_error
    · exact truth_safe fun _ => equal_error
    · exact truth_safe fun _ => ordered_error
    · exact truth_safe fun _ => ordered_error
    · exact truth_safe fun _ => ordered_error
    · exact truth_safe fun _ => ordered_error
    · -- Only the operators that are not binary are left.
      cases op <;> simp_all [Token.isBinary, Token.isArithmetic, Token.isComparison, Token.isLogical]

theorem unary_safe (hop : op.isUnary = true) (hv : v.WellFormed) : Safe WellFormed (unary span op v) := by
  unfold unary
  split
  · split
    · exact .ok (Integer.negate_represents hv).canonical
    · exact .fail rfl
  · exact truth_safe fun _ => requireBoolean_error
  · cases op <;> simp_all [Token.isUnary]

end Value

/-! ## Expressions -/

theorem Literal.eval_safe {span : Span} {l : Literal} (hl : l.WellFormed) : Safe Value.WellFormed (l.eval span) := by
  cases l with
  | integer text =>
    apply Safe.placed
    · intro v hv
      exact Value.wellFormed_of_integer (fun _ => Integer.canonical_of_parse) hv
    · intro cause hc
      rw [Integer.eq_of_fault (fun _ => Integer.parse_eq_error) hc]
      rfl
  | text s => exact .ok True.intro
  | boolean b => exact .ok True.intro
  | mistyped d claimed => cases hl

namespace Expr

variable {scope : Scope} (hscope : scope.WellFormed)

include hscope

theorem name_safe {span : Span} {name : String} : Safe Value.WellFormed (placed span (scope.lookup name)) := by
  apply Safe.placed
  · intro v hv
    exact hscope.lookup hv
  · intro cause hc
    rw [(Scope.lookup_eq_error hc).2]
    rfl

/-- Evaluating a sound expression gives a well-formed value or ends in an error of evaluation. -/
theorem eval_safe {e : Expr} (he : e.Sound) : Safe Value.WellFormed (e.eval scope) := by
  induction e using Expr.induction with
  | literal span l =>
    rw [eval]
    exact Literal.eval_safe (sound_literal.mp he)
  | identifier span name =>
    rw [eval]
    exact name_safe hscope
  | binary span left op right ihLeft ihRight =>
    obtain ⟨hop, hleft, hright⟩ := sound_binary.mp he
    rw [eval]
    split
    · rename_i f hf
      exact (ihLeft hleft).propagate hf
    · rename_i a ha
      have hl := (ihLeft hleft).result ha
      split
      · -- A logical operator may do without its right operand.
        split
        · rename_i f hf
          exact Value.requireBoolean_safe.propagate hf
        · split
          · exact .ok True.intro
          · split
            · rename_i f hf
              exact (ihRight hright).propagate hf
            · exact Value.truth_safe fun _ => Value.requireBoolean_error
      · rename_i hlogical
        split
        · rename_i f hf
          exact (ihRight hright).propagate hf
        · rename_i c hc
          exact Value.binary_safe hop (by simpa using hlogical) hl ((ihRight hright).result hc)
  | unary span op operand ih =>
    obtain ⟨hop, hoperand⟩ := sound_unary.mp he
    rw [eval]
    split
    · rename_i f hf
      exact (ih hoperand).propagate hf
    · rename_i v hv
      exact Value.unary_safe hop ((ih hoperand).result hv)
  | call span receiver method args _ _ =>
    rw [eval]
    exact .fail rfl
  | stray s => exact absurd he (by simp [Sound, nodes, SoundNode])

theorem evalAll_safe {args : List Expr} (hargs : ∀ e ∈ args, e.Sound) :
    Safe (fun values => ∀ v ∈ values, v.WellFormed) (evalAll scope args) := by
  induction args with
  | nil => exact .ok (by simp)
  | cons e rest ih =>
    obtain ⟨he, hrest⟩ := List.forall_mem_cons.mp hargs
    rw [evalAll]
    split
    · rename_i f hf
      exact (eval_safe hscope he).propagate hf
    · rename_i v hv
      apply (ih hrest).map
      intro values hvalues
      exact List.forall_mem_cons.mpr ⟨(eval_safe hscope he).result hv, hvalues⟩

theorem condition_safe {statement : Branching} {e : Expr} (he : e.Sound) :
    Safe (fun _ => True) (e.condition statement scope) := by
  unfold condition
  split
  · rename_i f hf
    exact (eval_safe hscope he).propagate hf
  · exact .ok True.intro
  · exact .fail rfl

/-- A call of a sound node emits a record or ends in an error of evaluation. -/
theorem callRecord_safe {span : Span} {receiver : Expr} {method : String} {args : List Expr}
    (he : (call span receiver method args).Sound) :
    Safe (fun _ => True) (callRecord scope span receiver method args) := by
  obtain ⟨⟨⟨object, rfl, -⟩, -⟩, hargs⟩ := sound_call.mp he
  obtain ⟨-, h⟩ | ⟨-, h⟩ | ⟨m, -, h⟩ := callRecord_cases scope span span object method args
  · rw [h]
    exact .fail rfl
  · rw [h]
    exact .fail rfl
  · rw [h]
    exact (evalAll_safe hscope hargs).map fun _ _ => True.intro

end Expr

/-! ## Simple statements -/

namespace Scope

variable {scope : Scope} (hscope : scope.WellFormed) {span : Span}

include hscope

theorem assign_safe {name : String} {value : Value} (hv : value.WellFormed) :
    Safe WellFormed (placed span (scope.assign name value)) := by
  apply Safe.placed
  · intro scope' h
    exact hscope.assign hv h
  · intro cause hc
    obtain ⟨-, rfl⟩ | ⟨-, rfl⟩ := currentForUpdate_eq_error (assign_eq_error hc)
    · rfl
    · rfl

theorem currentForUpdate_safe {name : String} :
    Safe Value.WellFormed (placed span (scope.currentForUpdate name)) := by
  apply Safe.placed
  · intro v hv
    exact hscope.currentForUpdate hv
  · intro cause hc
    obtain ⟨-, rfl⟩ | ⟨-, rfl⟩ := currentForUpdate_eq_error hc
    · rfl
    · rfl

theorem execDeclare_safe {name : String} {isMutable : Bool} {init : Option Expr} (hinit : ∀ e ∈ init, e.Sound) :
    Safe WellFormed (scope.execDeclare span name isMutable init) := by
  unfold execDeclare
  cases init with
  | none => exact .fail rfl
  | some e =>
    have hsafe := Expr.eval_safe hscope (hinit e rfl)
    dsimp only
    split
    · rename_i f hf
      exact hsafe.propagate hf
    · rename_i v hv
      apply Safe.placed
      · intro scope' h
        exact hscope.declare (hsafe.result hv) h
      · intro cause hc
        rw [(declare_eq_error hc).2]
        rfl

theorem execAssign_safe {target : Target} {value : Expr} {op : Token} (hvalue : value.Sound)
    (hop : op.isAssignment = true) : Safe WellFormed (scope.execAssign span target value op) := by
  have hsafe := Expr.eval_safe hscope hvalue
  unfold execAssign
  split
  · split
    · rename_i f hf
      exact hsafe.propagate hf
    · rename_i v hv
      exact assign_safe hscope (hsafe.result hv)
  · rename_i hplain
    split
    · rename_i hcompound
      simp [Token.isAssignment, hplain, hcompound] at hop
    · split
      · rename_i f hf
        exact (currentForUpdate_safe hscope).propagate hf
      · rename_i current hcurrent
        have hread := (currentForUpdate_safe hscope).result hcurrent
        split
        · rename_i f hf
          exact hsafe.propagate hf
        · rename_i operand hoperand
          have hright := hsafe.result hoperand
          split
          · rename_i f hf
            exact (Value.arithmetic_safe hread hright).propagate hf
          · rename_i v hv
            exact assign_safe hscope ((Value.arithmetic_safe hread hright).result hv)

theorem execUpdate_safe {target : Target} {op : Token} (hop : op.isUpdate = true) :
    Safe WellFormed (scope.execUpdate span target op) := by
  have hone : Integer.one.Canonical := by decide
  unfold execUpdate
  split
  · rename_i f hf
    exact (currentForUpdate_safe hscope).propagate hf
  · rename_i n hn
    have hread : n.Canonical := (currentForUpdate_safe hscope).result hn
    split
    · exact assign_safe hscope (Integer.add_represents hread hone).canonical
    · exact assign_safe hscope (Integer.subtract_represents hread hone).canonical
    · cases op <;> simp_all [Token.isUpdate]
  · exact .fail rfl

theorem outputRecord_safe {level : Level} {argument : Expr} (hlevel : level.WellFormed) (hargument : argument.Sound) :
    Safe (fun _ => True) (scope.outputRecord level argument) := by
  cases level with
  | known severity => exact (Expr.eval_safe hscope hargument).map fun _ _ => True.intro
  | named name => cases hlevel

theorem expressionRecord_safe {e : Expr} (he : e.Sound) : Safe (fun _ => True) (scope.expressionRecord e) := by
  unfold expressionRecord
  split
  · exact (Expr.callRecord_safe hscope he).map fun _ _ => True.intro
  · exact (Expr.eval_safe hscope he).map fun _ _ => True.intro

end Scope

end TreeScript
