/-
The errors that evaluation can end in. An operator only complains about the values it is given; all
other errors come from literals, from names and from calls.
-/
import TreeScript.Proofs.Run.Scope
import TreeScript.Run.Execute

namespace TreeScript

/-! ## Kinds of causes -/

namespace Cause

/-- Whether a literal or the scope of a name is at fault. -/
def isScopeOrLiteral : Cause → Bool
  | malformedLiteral _ => true
  | redeclaration _ => true
  | undefinedVariable _ => true
  | immutableAssignment _ => true
  | _ => false

/-- Whether a call names no function, or stands where a value is needed. -/
def isWrongCall : Cause → Bool
  | typeMismatch (.noValue _) => true
  | typeMismatch (.notFunction _) => true
  | _ => false

/-- Whether the values that a node is given are at fault, and not its names, literals or calls. -/
def isOfValues (cause : Cause) : Bool := cause.isEvaluation && !cause.isScopeOrLiteral && !cause.isWrongCall

end Cause

/-! ## Errors of a computation -/

theorem exists_of_map_eq_ok {ε α β : Type} {x : Except ε α} {f : α → β} {b : β} (h : x.map f = .ok b) :
    ∃ a, x = .ok a ∧ f a = b := by
  cases x with
  | error e => cases h
  | ok a =>
    cases h
    exact ⟨a, rfl, rfl⟩

/-- Every error that a computation ends in satisfies a condition; defects are not errors. -/
def Fails {α : Type} (P : Error → Prop) (x : Except Failure α) : Prop := ∀ e, x = .error (.error e) → P e

namespace Fails

variable {α β : Type} {P Q : Error → Prop} {x : Except Failure α} {span : Span}

theorem ok (a : α) : Fails P (.ok a) := by
  rintro e ⟨⟩

theorem defect (d : Defect) : Fails P (.error (.defect d) : Except Failure α) := by
  rintro e ⟨⟩

theorem fail {cause : Cause} (h : P (cause.at span)) : Fails P (cause.fail span : Except Failure α) := by
  rintro e ⟨⟩
  exact h

theorem placed {x : Except Cause α} (h : ∀ cause, x = .error cause → P (cause.at span)) :
    Fails P (placed span x) := by
  cases x with
  | ok a => exact .ok a
  | error cause => exact .fail (h cause rfl)

theorem imp (hx : Fails P x) (h : ∀ e, P e → Q e) : Fails Q x := by
  intro e he
  exact h e (hx e he)

/-- A failure is handed on as it is. -/
theorem propagate {f : Failure} (hx : Fails P x) (h : x = .error f) : Fails P (.error f : Except Failure β) := by
  rintro e ⟨⟩
  exact hx e h

theorem map {f : α → β} (hx : Fails P x) : Fails P (x.map f) := by
  cases hxx : x with
  | ok a => exact .ok _
  | error f => exact hx.propagate hxx

end Fails

/-! ## Operators -/

theorem Integer.parse_eq_error {text : String} {fault : Fault} (h : parse text = .error fault) :
    fault = .malformedLiteral text := by
  unfold parse at h
  split at h
  split at h
  · cases h
  · cases h
    rfl

theorem Integer.divide_eq_error {a b : Integer} {fault : Fault} (h : a.divide b = .error fault) :
    fault = .divisionByZero := by
  unfold divide at h
  split at h
  · cases h
    rfl
  · split at h <;> cases h

theorem Integer.remainder_eq_error {a b : Integer} {fault : Fault} (h : a.remainder b = .error fault) :
    fault = .divisionByZero := by
  unfold remainder at h
  split at h
  · cases h
    rfl
  · split at h <;> cases h

/-- What a step on integers ends in, as a cause of an error of a program. -/
theorem Integer.eq_of_fault {x : Except Fault Integer} {fault : Fault}
    (hx : ∀ fault', x = .error fault' → fault' = fault) {cause : Cause}
    (h : (x.mapError Cause.ofInteger).map Value.integer = .error cause) : cause = .ofInteger fault := by
  cases hxx : x with
  | ok a =>
    rw [hxx] at h
    cases h
  | error fault' =>
    rw [hxx, hx fault' hxx] at h
    cases h
    rfl

namespace Value

variable {op : Token} {left right v : Value} {cause : Cause} {span : Span}

/-! ### What operators complain about -/

theorem requireIntegers_eq_error (h : requireIntegers op left right = .error cause) :
    cause = .typeMismatch (.integerOperands op left.kind right.kind) := by
  unfold requireIntegers at h
  split at h
  · cases h
  · cases h
    rfl

theorem requireBoolean_eq_error (h : requireBoolean op v = .error cause) :
    cause = .typeMismatch (.booleanOperands op v.kind) := by
  unfold requireBoolean at h
  split at h
  · cases h
  · cases h
    rfl

/-- Apart from the kinds of its operands an arithmetic operator only complains about a zero that it divides by. -/
theorem arithmetic_eq_error (h : arithmetic op left right = .error cause) :
    cause = .typeMismatch (.integerOperands op left.kind right.kind) ∨
      cause = .divisionByZero ∧ op ∉ [.plus, .minus, .star] := by
  unfold arithmetic at h
  split at h
  · rename_i hr
    cases h
    exact .inl (requireIntegers_eq_error hr)
  · split at h
    · cases h
    · cases h
    · cases h
    · exact .inr ⟨Integer.eq_of_fault (fun _ => Integer.divide_eq_error) h, by decide⟩
    · rename_i hplus hminus hstar _
      refine .inr ⟨Integer.eq_of_fault (fun _ => Integer.remainder_eq_error) h, ?_⟩
      simp only [List.mem_cons, List.not_mem_nil, or_false, not_or]
      exact ⟨hplus, hminus, hstar⟩

theorem equal_eq_error (h : equal op left right = .error cause) :
    cause = .typeMismatch (.equality op left.kind right.kind) := by
  unfold equal at h
  split at h
  · cases h
  · cases h
    rfl

theorem map_error {α β : Type} {x : Except Cause α} {f : α → β} (h : x.map f = .error cause) : x = .error cause := by
  cases x with
  | ok a => cases h
  | error c =>
    cases h
    rfl

theorem ordered_eq_error (h : ordered op left right = .error cause) :
    cause = .typeMismatch (.integerOperands op left.kind right.kind) := requireIntegers_eq_error (map_error h)

/-! ### Nothing but values is at fault -/

theorem requireBoolean_error (h : requireBoolean op v = .error cause) : cause.isOfValues := by
  rw [requireBoolean_eq_error h]
  rfl

theorem arithmetic_error (h : arithmetic op left right = .error cause) : cause.isOfValues := by
  obtain rfl | ⟨rfl, -⟩ := arithmetic_eq_error h
  · rfl
  · rfl

theorem equal_error (h : equal op left right = .error cause) : cause.isOfValues := by
  rw [equal_eq_error h]
  rfl

theorem ordered_error (h : ordered op left right = .error cause) : cause.isOfValues := by
  rw [ordered_eq_error h]
  rfl

/-- A binary operator complains about nothing but its operands. -/
theorem binary_fails : Fails (fun e => e.cause.isOfValues) (binary span op left right) := by
  unfold binary
  split
  · exact .placed fun _ h => arithmetic_error h
  · split
    · exact .placed fun _ h => equal_error (map_error h)
    · exact .placed fun _ h => equal_error (map_error h)
    · exact .placed fun _ h => ordered_error (map_error h)
    · exact .placed fun _ h => ordered_error (map_error h)
    · exact .placed fun _ h => ordered_error (map_error h)
    · exact .placed fun _ h => ordered_error (map_error h)
    · exact .defect _

/-- A unary operator complains about nothing but its operand. -/
theorem unary_fails : Fails (fun e => e.cause.isOfValues) (unary span op v) := by
  unfold unary
  split
  · split
    · exact .ok _
    · exact .fail rfl
  · exact .placed fun _ h => requireBoolean_error (map_error h)
  · exact .defect _

end Value

/-! ## Calls -/

theorem Builtin.Registry.hasObject_of_method? {r : Registry} {object name : String} {m : Method}
    (h : r.method? object name = some m) : r.hasObject object := by
  unfold method? at h
  have hfound := List.find?_some h
  rw [Bool.and_eq_true] at hfound
  unfold hasObject
  rw [List.any_eq_true]
  exact ⟨m, List.mem_of_find?_eq_some h, hfound.1⟩

namespace Expr

open Builtin in
/-- A call fails for its receiver, or for the function that it names, or else it writes its arguments. -/
theorem callRecord_cases (scope : Scope) (span receiverSpan : Span) (object method : String) (args : List Expr) :
    (Registry.standard.hasObject object = false ∧
      callRecord scope span (.identifier receiverSpan object) method args =
        (Cause.undefinedVariable object).fail receiverSpan) ∨
    ((scope.isDefined object ∨ Registry.standard.method? object method = none) ∧
      callRecord scope span (.identifier receiverSpan object) method args =
        (Cause.typeMismatch (.notFunction (calleeName (.identifier receiverSpan object) method))).fail span) ∨
    ∃ m : Method, Registry.standard.method? object method = some m ∧
      callRecord scope span (.identifier receiverSpan object) method args =
        (evalAll scope args).map fun values => m.action.record values := by
  rw [callRecord]
  by_cases hbuiltin : (!scope.isDefined object && Registry.standard.hasObject object) = true
  · rw [if_pos hbuiltin]
    right
    cases hm : Registry.standard.method? object method with
    | none => exact .inl ⟨.inr rfl, rfl⟩
    | some m => exact .inr ⟨m, rfl, rfl⟩
  · -- Any other receiver is read as a variable, before the method is looked at.
    rw [if_neg hbuiltin]
    cases hl : scope.lookup object with
    | ok v =>
      right; left
      exact ⟨.inl (Scope.isDefined_of_lookup hl), rfl⟩
    | error cause =>
      left
      obtain ⟨hnone, rfl⟩ := Scope.lookup_eq_error hl
      simp [Scope.isDefined_eq, hnone] at hbuiltin
      exact ⟨hbuiltin, rfl⟩

end Expr

end TreeScript
