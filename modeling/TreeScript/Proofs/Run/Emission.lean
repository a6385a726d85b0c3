/-
Visits and records. A statement that is there to emit a record, an output or a call, emits it right after it was entered
into the log, with the severity that it says, and no other statement emits any. If it fails, then before there is a
record; so only the very last statement that a failed run has reached can be without one.
-/
import TreeScript.Proofs.Run.Rule
import TreeScript.Proofs.Run.Evaluate

namespace TreeScript

/-! ## Statements that emit -/

/-- The severity that a method of the console writes with. -/
def consoleSeverity? : String → Option Severity
  | "log" => some .info
  | "info" => some .info
  | "warn" => some .warn
  | "error" => some .error
  | _ => none

/-- The severity that a level means, if it means any. -/
def Level.severity? : Level → Option Severity
  | known severity => some severity
  | named name => Severity.ofName? name

namespace Stmt

/-- Whether a statement is there to emit a record. -/
def isOutput : Stmt → Bool
  | .output .. => true
  | .expression _ (.call ..) => true
  | _ => false

/-- The severity of the record that a statement emits. -/
def severity? : Stmt → Option Severity
  | .output _ level _ => level.severity?
  | .expression _ (.call _ (.identifier _ object) method _) =>
    if object = "console" then consoleSeverity? method else none
  | _ => none

/-- The expressions that a record is made of. -/
def arguments : Stmt → List Expr
  | .output _ _ argument => [argument]
  | .expression _ (.call _ _ _ args) => args
  | _ => []

theorem isOutput_of_not_isSimple {s : Stmt} (h : s.isSimple = false) : s.isOutput = false := by
  cases s <;> first | rfl | cases h

end Stmt

/-- All methods there are write to the console. -/
theorem Builtin.Registry.standard_method? {object name : String} {m : Method}
    (h : standard.method? object name = some m) :
    object = "console" ∧ ∃ severity, m.action = .write severity ∧ consoleSeverity? name = some severity := by
  have hfound := List.find?_some h
  have hmem := List.mem_of_find?_eq_some h
  rw [Bool.and_eq_true, beq_iff_eq, beq_iff_eq] at hfound
  obtain ⟨rfl, rfl⟩ := hfound
  simp only [standard, List.mem_cons, List.not_mem_nil, or_false] at hmem
  rcases hmem with rfl | rfl | rfl | rfl
  · exact ⟨rfl, .info, rfl, rfl⟩
  · exact ⟨rfl, .info, rfl, rfl⟩
  · exact ⟨rfl, .warn, rfl, rfl⟩
  · exact ⟨rfl, .error, rfl, rfl⟩

theorem Level.severity?_of_severity {level : Level} {severity : Severity} (h : level.severity = .ok severity) :
    level.severity? = some severity := by
  cases level with
  | known severity' =>
    cases h
    rfl
  | named name =>
    unfold Level.severity at h
    dsimp only at h
    rw [severity?]
    cases hname : Severity.ofName? name with
    | none =>
      rw [hname] at h
      cases h
    | some severity' =>
      rw [hname] at h
      cases h
      rfl

/-! ### Outputs and calls -/

section

variable {scope : Scope} {span : Span} {f : Failure}

theorem Scope.outputRecord_severity {level : Level} {argument : Expr} {r : Record}
    (h : scope.outputRecord level argument = .ok r) : level.severity? = some r.severity := by
  unfold outputRecord at h
  cases hlevel : level.severity with
  | error f =>
    rw [hlevel] at h
    cases h
  | ok severity =>
    rw [hlevel] at h
    obtain ⟨v, -, rfl⟩ := exists_of_map_eq_ok h
    exact Level.severity?_of_severity hlevel

theorem Scope.outputRecord_of_argument (level : Level) {argument : Expr} (hf : argument.eval scope = .error f) :
    ∃ f', scope.outputRecord level argument = .error f' := by
  unfold outputRecord
  rw [hf]
  split
  · exact ⟨_, rfl⟩
  · exact ⟨f, rfl⟩

namespace Expr

variable {receiver : Expr} {method : String} {args : List Expr} {e : Expr}

theorem callRecord_severity {callSpan : Span} {r : Record}
    (h : callRecord scope callSpan receiver method args = .ok r) :
    (Stmt.expression span (.call callSpan receiver method args)).severity? = some r.severity := by
  cases receiver with
  | identifier receiverSpan object =>
    obtain ⟨-, hcall⟩ | ⟨-, hcall⟩ | ⟨m, hm, hcall⟩ := callRecord_cases scope callSpan receiverSpan object method args
    · rw [hcall] at h
      cases h
    · rw [hcall] at h
      cases h
    · obtain ⟨rfl, severity, haction, hseverity⟩ := Builtin.Registry.standard_method? hm
      rw [hcall, haction] at h
      obtain ⟨values, -, rfl⟩ := exists_of_map_eq_ok h
      rw [Stmt.severity?, if_pos rfl, hseverity]
      rfl
  | _ => cases h

theorem evalAll_of_mem (he : e ∈ args) (hf : e.eval scope = .error f) : ∃ f', evalAll scope args = .error f' := by
  induction args with
  | nil => cases he
  | cons first rest ih =>
    rw [evalAll]
    cases hv : first.eval scope with
    | error f' => exact ⟨f', rfl⟩
    | ok v =>
      rcases List.mem_cons.mp he with rfl | he
      · rw [hf] at hv
        cases hv
      · obtain ⟨f', hrest⟩ := ih he
        rw [hrest]
        exact ⟨f', rfl⟩

/-- A call evaluates its arguments, or it fails before that. -/
theorem callRecord_of_argument (span : Span) (receiver : Expr) (method : String) (he : e ∈ args)
    (hf : e.eval scope = .error f) : ∃ f', callRecord scope span receiver method args = .error f' := by
  cases receiver with
  | identifier receiverSpan object =>
    obtain ⟨-, hcall⟩ | ⟨-, hcall⟩ | ⟨m, -, hcall⟩ := callRecord_cases scope span receiverSpan object method args
    · exact ⟨_, hcall⟩
    · exact ⟨_, hcall⟩
    · obtain ⟨f', hargs⟩ := evalAll_of_mem he hf
      rw [hcall, hargs]
      exact ⟨f', rfl⟩
  | _ => exact ⟨_, rfl⟩

end Expr

end

/-! ## Events in pairs -/

/-- Every visit of a statement that emits is followed at once by a record with its severity, and there are no other
records. -/
inductive Event.Paired : List Event → Prop
  | nil : Paired []
  | silent {v : Visit} {rest : List Event} (h : v.stmt.isOutput = false) (hrest : Paired rest) :
    Paired (.visited v :: rest)
  | pair {v : Visit} {r : Record} {rest : List Event} (h : v.stmt.isOutput = true)
    (hseverity : v.stmt.severity? = some r.severity) (hrest : Paired rest) :
    Paired (.visited v :: .emitted r :: rest)

/-- So it is with all events, or with all but a last visit of a statement that emits. -/
def Event.CutOff (events : List Event) : Prop :=
  Paired events ∨ ∃ before v, events = before ++ [visited v] ∧ v.stmt.isOutput = true ∧ Paired before

namespace Event

variable {events events' : List Event}

theorem Paired.append (h : Paired events) (h' : Paired events') : Paired (events ++ events') := by
  induction h with
  | nil => exact h'
  | silent hout _ ih => exact .silent hout ih
  | pair hout hseverity _ ih => exact .pair hout hseverity ih

theorem Paired.append_cutOff (h : Paired events) (h' : CutOff events') : CutOff (events ++ events') := by
  obtain h' | ⟨before, v, rfl, hout, hbefore⟩ := h'
  · exact .inl (h.append h')
  · exact .inr ⟨events ++ before, v, (List.append_assoc ..).symm, hout, h.append hbefore⟩

end Event

/-- The second state has some more events in its log. -/
def State.Adds (kind : List Event → Prop) (st st' : State) : Prop :=
  ∃ events, st'.log.toList = st.log.toList ++ events ∧ kind events

namespace State.Adds

variable {kind : List Event → Prop} {st st' st'' : State}

theorem refl (st : State) : st.Adds Event.Paired st := ⟨[], (List.append_nil _).symm, .nil⟩

theorem cutOff (h : st.Adds Event.Paired st') : st.Adds Event.CutOff st' := by
  obtain ⟨events, hlog, hevents⟩ := h
  exact ⟨events, hlog, .inl hevents⟩

/-- Other events come after events in pairs. -/
theorem append (hkind : ∀ events events', Event.Paired events → kind events' → kind (events ++ events'))
    (h : st.Adds Event.Paired st') (h' : st'.Adds kind st'') : st.Adds kind st'' := by
  obtain ⟨events, hlog, hevents⟩ := h
  obtain ⟨events', hlog', hevents'⟩ := h'
  refine ⟨events ++ events', ?_, hkind events events' hevents hevents'⟩
  rw [hlog', hlog, List.append_assoc]

theorem visit_silent {s : Stmt} (h : s.isOutput = false) : st.Adds Event.Paired (st.visit s) :=
  ⟨[_], Array.toList_push, .silent h .nil⟩

theorem visit_cutOff (s : Stmt) : st.Adds Event.CutOff (st.visit s) := by
  cases h : s.isOutput with
  | false => exact (visit_silent h).cutOff
  | true => exact ⟨[_], Array.toList_push, .inr ⟨[], _, rfl, h, .nil⟩⟩

theorem visit_emit {s : Stmt} {r : Record} (h : s.isOutput = true) (hseverity : s.severity? = some r.severity) :
    st.Adds Event.Paired ((st.visit s).emit r) := by
  refine ⟨[.visited ⟨s, st.scope.depth, st.scope.current.name⟩, .emitted r], ?_, .pair h hseverity .nil⟩
  simp [visit, emit]

end State.Adds

/-! ## Output statements -/

/-- A step that gives a record, which is then emitted. -/
theorem State.emitIfAny_map_some (st : State) (step : Except Failure Record) :
    st.emitIfAny (step.map some) = .ofStep st step fun r => .finished (st.emit r) := by
  cases step <;> rfl

namespace Stmt

variable (limit : Nat) {s : Stmt}

/-- A statement that emits enters itself and then a record with its severity, or it fails without a record. -/
theorem exec_of_isOutput (h : s.isOutput = true) (st : State) :
    (∃ r, s.severity? = some r.severity ∧ s.exec limit st = .finished ((st.visit s).emit r)) ∨
    ∃ f, s.exec limit st = .failed f (st.visit s) := by
  cases s with
  | output span level argument =>
    rw [exec, State.emitIfAny_map_some]
    cases hstep : (st.visit (.output span level argument)).scope.outputRecord level argument with
    | ok r => exact .inl ⟨r, Scope.outputRecord_severity hstep, rfl⟩
    | error f => exact .inr ⟨f, rfl⟩
  | expression span e =>
    cases e with
    | call span' receiver method args =>
      rw [exec, Scope.expressionRecord, State.emitIfAny_map_some]
      cases hstep : Expr.callRecord st.scope span' receiver method args with
      | ok r => exact .inl ⟨r, Expr.callRecord_severity hstep, by rw [State.visit_scope, hstep]; rfl⟩
      | error f => exact .inr ⟨f, by rw [State.visit_scope, hstep]; rfl⟩
    | _ => cases h
  | _ => cases h

/-- If one of its arguments fails, then so does the statement. -/
theorem exec_of_argument (h : s.isOutput = true) {st : State} {e : Expr} (he : e ∈ s.arguments) {f : Failure}
    (hf : e.eval st.scope = .error f) : ∃ f', s.exec limit st = .failed f' (st.visit s) := by
  cases s with
  | output span level argument =>
    rw [List.mem_singleton.mp he] at hf
    obtain ⟨f', hstep⟩ := Scope.outputRecord_of_argument level hf
    refine ⟨f', ?_⟩
    rw [exec, State.emitIfAny_map_some, State.visit_scope, hstep]
    rfl
  | expression span e' =>
    cases e' with
    | call span' receiver method args =>
      have hargs : e ∈ args := he
      obtain ⟨f', hstep⟩ := Expr.callRecord_of_argument span' receiver method hargs hf
      refine ⟨f', ?_⟩
      rw [exec, Scope.expressionRecord, State.emitIfAny_map_some, State.visit_scope, hstep]
      rfl
    | _ => cases h
  | _ => cases h

end Stmt

/-! ## Runs -/

/-- The events of a run are in pairs, but for the last one if it fails. -/
def pairing : Contract where
  good st st' := st.Adds Event.Paired st'
  bad st _ st' := st.Adds Event.CutOff st'
  refl := .refl
  trans := .append fun _ _ => .append
  trans_bad := .append fun _ _ => Event.Paired.append_cutOff

theorem pairing_rescope {s : Stmt} (step : Scope → Except Failure Scope) (h : s.isOutput = false) :
    pairing.Holds fun st => (st.visit s).rescope (step st.scope) := by
  intro st
  apply State.ends_rescope
  · intro _ _
    exact .visit_silent h
  · intro _ _
    exact .visit_cutOff s

/-- An expression that is no call is evaluated, and no more. -/
theorem pairing_evaluate {s : Stmt} (e : Expr) (h : s.isOutput = false) :
    pairing.Holds fun st => (st.visit s).emitIfAny ((e.eval st.scope).map fun _ => none) := by
  intro st
  apply State.ends_emitIfAny
  · intro _
    exact .visit_silent h
  · intro r hsome
    obtain ⟨v, -, hv⟩ := exists_of_map_eq_ok hsome
    cases hv
  · intro _ _
    exact .visit_cutOff s

theorem pairing_of_isSimple {limit : Nat} {s : Stmt} (hsimple : s.isSimple = true) : pairing.Holds (s.exec limit) := by
  cases hout : s.isOutput with
  | true =>
    intro st
    obtain ⟨r, hseverity, hexec⟩ | ⟨f, hexec⟩ := Stmt.exec_of_isOutput limit hout st
    · rw [hexec]
      exact .visit_emit hout hseverity
    · rw [hexec]
      exact .visit_cutOff s
  | false =>
    cases s with
    | declare span name isMutable init =>
      exact pairing_rescope (fun scope => scope.execDeclare span name isMutable init) hout
    | assign span target value op => exact pairing_rescope (fun scope => scope.execAssign span target value op) hout
    | update span target op => exact pairing_rescope (fun scope => scope.execUpdate span target op) hout
    | output span level argument => cases hout
    | expression span e =>
      cases e with
      | call span' receiver method args => cases hout
      | stray t => exact pairing_evaluate (.stray t) hout
      | _ => exact pairing_evaluate _ hout
    | stray e => exact fun _ => State.Adds.visit_cutOff _
    | block | forLoop | whileLoop | ifElse => cases hsimple

/-- All statements keep their events in pairs; frames are not in the log. -/
theorem pairing_kept (limit : Nat) : pairing.Kept (fun _ => True) limit where
  simple _ hsimple := pairing_of_isSimple hsimple
  visit _ hsimple := .visit_silent (Stmt.isOutput_of_not_isSimple hsimple)
  pop h := h
  pop_bad h := h
  condition _ _ _ := (State.Adds.refl _).cutOff

theorem Program.exec_pairing {limit : Nat} (p : Program) : pairing.Holds (p.exec limit) := by
  have hrule := (pairing_kept limit).rule
  exact hrule.execAll fun _ _ => hrule.exec fun _ _ => trivial

/-! ## Visits and their records -/

/-- Of some visits those of statements that emit have these records, one each and in their order, with the severities
that they say. -/
def Emits (visits : List Visit) (records : List Record) : Prop :=
  List.Forall₂ (fun v r => v.stmt.severity? = some r.severity) (visits.filter fun v => v.stmt.isOutput) records

namespace Event

variable {events : List Event}

theorem Paired.emits (h : Paired events) : Emits (events.filterMap visit?) (events.filterMap record?) := by
  unfold Emits
  induction h with
  | nil => exact .nil
  | @silent v rest hout _ ih =>
    have hvisits : (visited v :: rest).filterMap visit? = v :: rest.filterMap visit? := rfl
    have hrecords : (visited v :: rest).filterMap record? = rest.filterMap record? := rfl
    rw [hvisits, hrecords, List.filter_cons_of_neg (by simp [hout])]
    exact ih
  | @pair v r rest hout hseverity _ ih =>
    have hvisits : (visited v :: emitted r :: rest).filterMap visit? = v :: rest.filterMap visit? := rfl
    have hrecords : (visited v :: emitted r :: rest).filterMap record? = r :: rest.filterMap record? := rfl
    rw [hvisits, hrecords, List.filter_cons_of_pos (by exact hout)]
    exact .cons hseverity ih

theorem CutOff.emits (h : CutOff events) :
    Emits (events.filterMap visit?) (events.filterMap record?) ∨
    ∃ before last, events.filterMap visit? = before ++ [last] ∧ last.stmt.isOutput = true ∧
      Emits before (events.filterMap record?) := by
  obtain h | ⟨before, last, rfl, hout, hbefore⟩ := h
  · exact .inl h.emits
  · right
    rw [List.filterMap_append, List.filterMap_append]
    refine ⟨before.filterMap visit?, last, rfl, hout, ?_⟩
    have hnone : [visited last].filterMap record? = [] := rfl
    rw [hnone, List.append_nil]
    exact hbefore.emits

end Event

/-- What the log of the second state holds more than that of the first one. -/
structure State.Entered (st st' : State) (visits : List Visit) (records : List Record) : Prop where
  visits : Event.visits st'.log = Event.visits st.log ++ visits
  records : Event.records st'.log = Event.records st.log ++ records

theorem State.entered_of_toList {st st' : State} {events : List Event}
    (h : st'.log.toList = st.log.toList ++ events) :
    st.Entered st' (events.filterMap Event.visit?) (events.filterMap Event.record?) := by
  constructor
  · rw [Event.visits, h, List.filterMap_append, Event.visits]
  · rw [Event.records, h, List.filterMap_append, Event.records]

/-- The records of a run that finishes are those of the statements which emit, in the order in which these were reached.
If the run fails, they are the same, or only the very last statement that was reached emits and has none. A statement
that emits fails before it does if one of its arguments fails. -/
theorem records_of_visits :
    (∀ (limit : Nat) (p : Program) (st : State), (p.exec limit st).Ends
      (fun st' => ∃ visits records, st.Entered st' visits records ∧ Emits visits records)
      (fun _ st' => ∃ visits records, st.Entered st' visits records ∧
        (Emits visits records ∨
          ∃ before last, visits = before ++ [last] ∧ last.stmt.isOutput = true ∧ Emits before records))) ∧
    ∀ (limit : Nat) (s : Stmt) (st : State), s.isOutput = true → ∀ e ∈ s.arguments, ∀ f,
      e.eval st.scope = .error f → ∃ f', s.exec limit st = .failed f' (st.visit s) := by
  constructor
  · intro limit p st
    apply (p.exec_pairing st).imp
    · rintro st' ⟨events, hlog, hevents⟩
      exact ⟨_, _, State.entered_of_toList hlog, hevents.emits⟩
    · rintro f st' ⟨events, hlog, hevents⟩
      exact ⟨_, _, State.entered_of_toList hlog, hevents.emits⟩
  · intro limit s st hout e he f hf
    exact Stmt.exec_of_argument limit hout he hf

/-- A call whose second argument is a name without a value. -/
def failingCall : Stmt :=
  .expression .none (.call .none (.identifier .none "console") "warn"
    [.literal .none (.text "m"), .identifier .none "m"])

/-- It fails before anything of it is written. -/
theorem records_of_visits_failing_call :
    ∃ f, failingCall.exec 1 .fresh = .failed f (State.fresh.visit failingCall) :=
  records_of_visits.2 1 failingCall .fresh rfl (.identifier .none "m")
    (List.mem_cons_of_mem _ (List.mem_singleton_self _)) _ rfl

end TreeScript
