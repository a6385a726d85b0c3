/-
What the findings of a check say about an error of a run. An error that lies in a literal or in the
scope of a name is foreseen if it is among the findings, word for word and in its place; an error
about a call is foreseen if the check finds fault with the call.

A name that is not defined may be the receiver of a call. The check then complains about the call,
and not about the name, so these errors have to be told apart: the log of the run shows whether the
statement reached last is the call of an object which does not exist.
-/
import TreeScript.Proofs.Check.Agreement
import TreeScript.Proofs.Run.Evaluate
import TreeScript.Run.Session

namespace TreeScript

/-! ## Causes -/

namespace Cause

/-- The causes of scopes and literals that a check foresees, by what the frames of the two agree in. -/
def Covered (loops branches : Prop) : Cause → Prop
  | malformedLiteral _ => True
  | redeclaration _ => loops
  | undefinedVariable _ => branches
  | immutableAssignment _ => loops ∧ branches
  | _ => False

theorem Covered.isScopeOrLiteral {loops branches : Prop} {cause : Cause} (h : cause.Covered loops branches) :
    cause.isScopeOrLiteral := by
  cases cause <;> first | rfl | cases h

/-- Which causes are covered, by their codes. -/
theorem covered_of_code {loops branches : Prop} (cause : Cause) :
    (cause.code = "E401" → cause.Covered loops branches) ∧
    (cause.code = "E402" → loops → cause.Covered loops branches) ∧
    (cause.code = "E403" → branches → cause.Covered loops branches) ∧
    (cause.code = "E404" → loops → branches → cause.Covered loops branches) := by
  cases cause <;> simp +contextual [code, Covered]

theorem covered_of_isScopeOrLiteral {loops branches : Prop} (hl : loops) (hb : branches) {cause : Cause}
    (h : cause.isScopeOrLiteral) : cause.Covered loops branches := by
  cases cause with
  | malformedLiteral text => trivial
  | redeclaration name => exact hl
  | undefinedVariable name => exact hb
  | immutableAssignment name => exact ⟨hl, hb⟩
  | _ => cases h

end Cause

/-- An error with this code, this message and this place has been reported. -/
def Collector.Reports (c : Collector) (code message : String) (span : Option Span) : Prop :=
  ∃ d ∈ c.diagnostics.toList, d.isError ∧ d.code = code ∧ d.message = message ∧ d.span = span

/-! ## Failing receivers -/

/-- The object that a statement calls, if it is the call of a named one. -/
def Stmt.object? : Stmt → Option String
  | .expression _ (.call _ (.identifier _ object) _ _) => some object
  | _ => none

/-- The place of a call whose receiver a cause is about: the statement is the call of an object that is not built
in, and the cause is that the object is not defined. -/
def Visit.failedReceiver? (v : Visit) (cause : Cause) : Option Span :=
  match cause, v.stmt with
  | .undefinedVariable name, .expression _ (.call span (.identifier _ object) _ _) =>
    if object = name ∧ Builtin.Registry.standard.hasObject object = false then some span else none
  | _, _ => none

/-- The same for the statement that was reached last. -/
def State.failedReceiver? (st : State) (cause : Cause) : Option Span :=
  (Event.visits st.log).getLast?.bind (·.failedReceiver? cause)

/-- The place of the call whose receiver is not defined, if that is why a run failed. -/
def Report.failedReceiver? (r : Report) : Option Span :=
  match r.ending with
  | .error e => r.final.failedReceiver? e.cause
  | _ => none

theorem Report.failedReceiver?_eq {r : Report} {e : Error} (h : r.ending = .error e) :
    r.failedReceiver? = r.final.failedReceiver? e.cause := by
  rw [failedReceiver?, h]

/-- The statement that was reached last has no receiver that could fail. -/
def State.Quiet (st : State) : Prop := ∀ cause, st.failedReceiver? cause = none

namespace State

theorem failedReceiver?_visit (st : State) (s : Stmt) (cause : Cause) :
    (st.visit s).failedReceiver? cause =
      Visit.failedReceiver? ⟨s, st.scope.depth, st.scope.current.name⟩ cause := by
  have hvisits : Event.visits (st.visit s).log =
      Event.visits st.log ++ [⟨s, st.scope.depth, st.scope.current.name⟩] := by
    unfold visit Event.visits
    rw [Array.toList_push, List.filterMap_append]
    rfl
  unfold failedReceiver?
  rw [hvisits, List.getLast?_concat]
  rfl

theorem failedReceiver?_emit (st : State) (r : Record) : (st.emit r).failedReceiver? = st.failedReceiver? := by
  -- A record is no visit.
  have hvisits : Event.visits (st.emit r).log = Event.visits st.log := by
    unfold emit Event.visits
    rw [Array.toList_push, List.filterMap_append]
    exact List.append_nil _
  funext cause
  unfold failedReceiver?
  rw [hvisits]

/-- A call that names no function, or gives no value, has not failed for its receiver. -/
theorem failedReceiver?_of_isWrongCall (st : State) {cause : Cause} (h : cause.isWrongCall) :
    st.failedReceiver? cause = none := by
  cases cause with
  | typeMismatch m =>
    unfold failedReceiver?
    cases (Event.visits st.log).getLast? <;> rfl
  | _ => cases h

theorem quiet_fresh : fresh.Quiet := fun _ => rfl

theorem Quiet.emit {st : State} (h : st.Quiet) (r : Record) : (st.emit r).Quiet := by
  unfold Quiet
  rw [failedReceiver?_emit]
  exact h

/-- Only the call of an unknown object can fail for its receiver. -/
theorem quiet_visit {st : State} {s : Stmt}
    (h : ∀ object, s.object? = some object → Builtin.Registry.standard.hasObject object) : (st.visit s).Quiet := by
  intro cause
  rw [failedReceiver?_visit]
  unfold Visit.failedReceiver?
  split
  · rename_i object _ _ hs
    dsimp only at hs
    subst hs
    rw [if_neg]
    rintro ⟨-, hobject⟩
    simp [h object rfl] at hobject
  · rfl

/-- A statement that is not the call of a named object cannot fail for its receiver. -/
theorem quiet_visit_of_object? {st : State} {s : Stmt} (h : s.object? = none) : (st.visit s).Quiet := by
  apply quiet_visit
  intro object hobject
  rw [h] at hobject
  cases hobject

end State

/-! ## Foreseen errors -/

namespace Collector

/-- An error other than that of a receiver is foreseen by what has been collected. -/
structure Foresees (loops branches : Prop) (c : Collector) (e : Error) : Prop where
  covered : e.cause.Covered loops branches → c.Reports e.cause.code e.cause.message e.span
  wrongCall : e.cause.isWrongCall → loops → ∃ message, c.Reports "E405" message e.span

/-- The failure of a run is foreseen, be it that of a receiver or another one. -/
structure Foretells (loops branches : Prop) (c : Collector) (st : State) (e : Error) : Prop where
  receiver : ∀ span, st.failedReceiver? e.cause = some span → ∃ message, c.Reports "E405" message (some span)
  other : st.failedReceiver? e.cause = none → c.Foresees loops branches e

variable {loops branches : Prop} {a b : Collector} {n : Nat} {e : Error}

theorem Reports.extend {code message : String} {span : Option Span} (h : a.Reports code message span)
    (he : a.Extends n b) : b.Reports code message span := by
  obtain ⟨d, hd, hspec⟩ := h
  exact ⟨d, he.mem hd, hspec⟩

theorem Foresees.extend (h : a.Foresees loops branches e) (he : a.Extends n b) : b.Foresees loops branches e where
  covered := by
    intro hc
    exact (h.covered hc).extend he
  wrongCall := by
    intro hc hl
    obtain ⟨message, hm⟩ := h.wrongCall hc hl
    exact ⟨message, hm.extend he⟩

/-- What is foreseen of a computation stays so when more is found. -/
theorem fails_extend {α : Type} {x : Except Failure α} (h : Fails (a.Foresees loops branches) x)
    (he : a.Extends n b) : Fails (b.Foresees loops branches) x := by
  refine h.imp ?_
  intro e hf
  exact hf.extend he

/-- An error that lies in values does not have to be foreseen. -/
theorem Foresees.of_values (h : e.cause.isOfValues) : a.Foresees loops branches e := by
  simp only [Cause.isOfValues, Bool.and_eq_true, Bool.not_eq_true'] at h
  obtain ⟨⟨-, hscope⟩, hcall⟩ := h
  constructor
  · intro hc
    simp [hc.isScopeOrLiteral] at hscope
  · intro hc
    simp [hc] at hcall

section

variable {cause : Cause} {span : Span}

/-- A reported cause is foreseen. -/
theorem Foresees.of_report (h : a.Reports cause.code cause.message (some span)) (hc : cause.isWrongCall = false) :
    a.Foresees loops branches (cause.at span) where
  covered := fun _ => h
  wrongCall := by
    intro hw
    rw [Cause.at, hc] at hw
    cases hw

/-- A cause in a name that the frames of the check do not agree in does not have to be foreseen. -/
theorem Foresees.of_not_covered (h : ¬ cause.Covered loops branches) (hc : cause.isWrongCall = false) :
    a.Foresees loops branches (cause.at span) where
  covered := fun hcovered => absurd hcovered h
  wrongCall := by
    intro hw
    rw [Cause.at, hc] at hw
    cases hw

/-- A wrong call is foreseen if the check has found fault with it. -/
theorem Foresees.of_wrongCall (hw : cause.isWrongCall) (h : loops → ∃ message, a.Reports "E405" message (some span)) :
    a.Foresees loops branches (cause.at span) where
  covered := by
    intro hc
    cases cause with
    | typeMismatch m => exact hc.elim
    | _ => cases hw
  wrongCall := fun _ => h

end

theorem Foretells.extend {st : State} (h : a.Foretells loops branches st e) (he : a.Extends n b) :
    b.Foretells loops branches st e where
  receiver := by
    intro span hs
    obtain ⟨message, hm⟩ := h.receiver span hs
    exact ⟨message, hm.extend he⟩
  other := fun hs => (h.other hs).extend he

theorem Foretells.wrongCall {st : State} (h : a.Foretells loops branches st e) (hw : e.cause.isWrongCall)
    (hl : loops) : ∃ message, a.Reports "E405" message e.span :=
  (h.other (st.failedReceiver?_of_isWrongCall hw)).wrongCall hw hl

/-- A wrong call is not one that has failed for its receiver. -/
theorem Foresees.foretells_of_wrongCall {st : State} (h : a.Foresees loops branches e) (hw : e.cause.isWrongCall) :
    a.Foretells loops branches st e where
  receiver := by
    intro span hs
    rw [st.failedReceiver?_of_isWrongCall hw] at hs
    cases hs
  other := fun _ => h

/-- An object that is not defined fails the call of it, and the check has found fault with that call. -/
theorem foretells_receiver {st : State} {span callSpan receiverSpan : Span} {object method : String}
    {args : List Expr} (hobject : Builtin.Registry.standard.hasObject object = false)
    (h : ∃ message, a.Reports "E405" message (some callSpan)) :
    a.Foretells loops branches
      (st.visit (.expression span (.call callSpan (.identifier receiverSpan object) method args)))
      ((Cause.undefinedVariable object).at receiverSpan) := by
  have hreceiver : State.failedReceiver?
      (st.visit (.expression span (.call callSpan (.identifier receiverSpan object) method args)))
      (.undefinedVariable object) = some callSpan := by
    rw [State.failedReceiver?_visit]
    exact if_pos ⟨rfl, hobject⟩
  constructor
  · intro s hs
    obtain rfl : callSpan = s := Option.some.inj (hreceiver.symm.trans hs)
    exact h
  · intro hs
    rw [Cause.at, hreceiver] at hs
    cases hs

/-- In a quiet state no receiver has failed. -/
theorem Foresees.foretells {st : State} (h : a.Foresees loops branches e) (hq : st.Quiet) :
    a.Foretells loops branches st e where
  receiver := by
    intro span hs
    simp [hq e.cause] at hs
  other := fun _ => h

end Collector

end TreeScript
