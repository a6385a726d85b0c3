/-
Conditions on how a run ends: one on the last state if it finishes, and one on the failure and the
state it came up in if it fails. There is a rule for each way to put runs together, so that a
proof about statements follows the tree and never looks into an outcome. A loop needs an invariant
of its test and body. Nothing is said of a run that does not end.
-/
import TreeScript.Proofs.Run.Scope
import TreeScript.Run.Execute

namespace TreeScript

namespace Outcome

/-- A run that ends in a good state, or with a failure that is accounted for. -/
def Ends (good : State → Prop) (bad : Failure → State → Prop) : Outcome → Prop
  | finished st => good st
  | failed f st => bad f st
  | unfinished => True

/-- However a run ends, it leaves a state of this kind. -/
def Leaves (P : State → Prop) (o : Outcome) : Prop := o.Ends P fun _ => P

variable {good good' : State → Prop} {bad bad' : Failure → State → Prop} {o : Outcome}

theorem Ends.imp (h : o.Ends good bad) (hgood : ∀ st, good st → good' st) (hbad : ∀ f st, bad f st → bad' f st) :
    o.Ends good' bad' := by
  cases o with
  | finished st => exact hgood st h
  | failed f st => exact hbad f st h
  | unfinished => trivial

theorem Leaves.imp {P Q : State → Prop} (h : o.Leaves P) (hPQ : ∀ st, P st → Q st) : o.Leaves Q :=
  Ends.imp h hPQ fun _ => hPQ

theorem ends_andThen {next : State → Outcome} (h : o.Ends good' bad)
    (hnext : ∀ st, good' st → (next st).Ends good bad) : (o.andThen next).Ends good bad := by
  cases o with
  | finished st => exact hnext st h
  | failed f st => exact h
  | unfinished => trivial

theorem andThen_assoc (o : Outcome) (next last : State → Outcome) :
    (o.andThen next).andThen last = o.andThen fun st => (next st).andThen last := by
  cases o <;> rfl

theorem leaves_always {change : State → State} {P : State → Prop} (h : o.Leaves fun st => P (change st)) :
    (o.always change).Leaves P := by
  cases o with
  | finished st => exact h
  | failed f st => exact h
  | unfinished => trivial

theorem ends_ofStep {α : Type} {st : State} {step : Except Failure α} {next : α → Outcome}
    (hok : ∀ a, step = .ok a → (next a).Ends good bad) (herror : ∀ f, step = .error f → bad f st) :
    (ofStep st step next).Ends good bad := by
  cases step with
  | ok a => exact hok a rfl
  | error f => exact herror f rfl

/-- A run in a frame of its own, by what holds before the frame is closed. -/
theorem ends_inFrame {name : String} {body : State → Outcome} {st : State}
    (h : (body (st.push name)).Ends (fun st => good st.pop) (fun f st => bad f st.pop)) :
    (inFrame name body st).Ends good bad := by
  unfold inFrame
  cases hbody : body (st.push name) with
  | finished st => rwa [hbody] at h
  | failed f st => rwa [hbody] at h
  | unfinished => trivial

/-- A loop keeps an invariant that its body keeps whenever the test holds. -/
theorem ends_loop {test : State → Except Failure Bool} {body : State → Outcome} (limit : Nat) {st : State}
    (hbody : ∀ st, good st → test st = .ok true → (body st).Ends good bad)
    (htest : ∀ st f, good st → test st = .error f → bad f st) (h : good st) :
    (loop test body limit st).Ends good bad := by
  induction limit generalizing st with
  | zero => trivial
  | succ limit ih =>
    rw [loop]
    cases ht : test st with
    | error f => exact htest st f h ht
    | ok holds =>
      cases holds with
      | false => exact h
      | true =>
        have hpass := hbody st h ht
        cases hb : body st with
        | finished st' =>
          rw [hb] at hpass
          exact ih hpass
        | failed f st' => rwa [hb] at hpass
        | unfinished => trivial

end Outcome

/-! ## The log -/

namespace Event

@[simp]
theorem records_push_emitted (log : Array Event) (r : Record) :
    records (log.push (.emitted r)) = records log ++ [r] := by
  simp [records, record?]

@[simp]
theorem records_push_visited (log : Array Event) (v : Visit) : records (log.push (.visited v)) = records log := by
  simp [records, record?]

@[simp]
theorem visits_push_visited (log : Array Event) (v : Visit) : visits (log.push (.visited v)) = visits log ++ [v] := by
  simp [visits, visit?]

@[simp]
theorem visits_push_emitted (log : Array Event) (r : Record) : visits (log.push (.emitted r)) = visits log := by
  simp [visits, visit?]

theorem records_append (log log' : Array Event) : records (log ++ log') = records log ++ records log' := by
  simp [records]

end Event

/-! ## Simple statements -/

theorem placed_eq_ok {α : Type} {span : Span} {x : Except Cause α} {a : α} (h : placed span x = .ok a) : x = .ok a := by
  cases x with
  | ok b =>
    cases h
    rfl
  | error cause => cases h

namespace Scope

variable {scope scope' : Scope} {span : Span} {target : Target} {op : Token}

/-- A declaration that succeeds declares the value that it starts with. -/
theorem execDeclare_eq_ok {name : String} {isMutable : Bool} {init : Option Expr}
    (h : scope.execDeclare span name isMutable init = .ok scope') :
    ∃ e v, init = some e ∧ e.eval scope = .ok v ∧ scope.declare name v isMutable = .ok scope' := by
  cases init with
  | none => cases h
  | some e =>
    rw [execDeclare] at h
    cases hv : e.eval scope with
    | error f =>
      rw [hv] at h
      cases h
    | ok v =>
      rw [hv] at h
      exact ⟨e, v, rfl, hv, placed_eq_ok h⟩

/-- An assignment that succeeds assigns some value. -/
theorem execAssign_eq_ok {value : Expr} (h : scope.execAssign span target value op = .ok scope') :
    ∃ v, scope.assign target.name v = .ok scope' := by
  unfold execAssign at h
  split at h
  · split at h
    · cases h
    · exact ⟨_, placed_eq_ok h⟩
  · split at h
    · cases h
    · split at h
      · cases h
      · split at h
        · cases h
        · split at h
          · cases h
          · exact ⟨_, placed_eq_ok h⟩

/-- So does an increment or a decrement. -/
theorem execUpdate_eq_ok (h : scope.execUpdate span target op = .ok scope') :
    ∃ v, scope.assign target.name v = .ok scope' := by
  unfold execUpdate at h
  split at h
  · cases h
  · split at h
    · exact ⟨_, placed_eq_ok h⟩
    · exact ⟨_, placed_eq_ok h⟩
    · cases h
  · cases h

end Scope

/-! ## Statements -/

theorem State.visit_scope (st : State) (s : Stmt) : (st.visit s).scope = st.scope := rfl

variable {good : State → Prop} {bad : Failure → State → Prop} {st : State} {limit : Nat}

theorem State.ends_rescope {step : Except Failure Scope}
    (hok : ∀ scope, step = .ok scope → good { st with scope }) (herror : ∀ f, step = .error f → bad f st) :
    (st.rescope step).Ends good bad :=
  Outcome.ends_ofStep hok herror

theorem State.ends_emitIfAny {step : Except Failure (Option Record)} (hnone : step = .ok none → good st)
    (hsome : ∀ r, step = .ok (some r) → good (st.emit r)) (herror : ∀ f, step = .error f → bad f st) :
    (st.emitIfAny step).Ends good bad := by
  unfold emitIfAny
  refine Outcome.ends_ofStep ?_ herror
  intro record h
  cases record with
  | none => exact hnone h
  | some r => exact hsome r h

theorem ends_execAll_cons {s : Stmt} {rest : List Stmt} {between : State → Prop}
    (hs : (s.exec limit st).Ends between bad) (hrest : ∀ st, between st → (execAll limit rest st).Ends good bad) :
    (execAll limit (s :: rest) st).Ends good bad := by
  unfold execAll
  cases h : s.exec limit st with
  | finished st' =>
    rw [h] at hs
    exact hrest st' hs
  | failed f st' => rwa [h] at hs
  | unfinished => trivial

end TreeScript
