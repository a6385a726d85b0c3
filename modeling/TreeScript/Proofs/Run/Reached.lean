/-
What holds of every scope that programs reach which run one after another in one scope. A condition on scopes is an
invariant if frames may be opened and closed under it and each simple statement that succeeds keeps it. Then it holds
whenever a statement starts and after every change of the scope, also once a failure has ended a run.
-/
import TreeScript.Proofs.Run.Lifetime
import TreeScript.Proofs.Tree.Reading

namespace TreeScript

/-! ## Invariants -/

/-- A condition on scopes that all steps of a run keep. -/
structure Scope.Invariant (P : Scope → Prop) : Prop where
  push {scope : Scope} (name : String) : P scope → P (scope.push name)
  pop {scope : Scope} : P scope → P scope.pop
  declare {scope : Scope} (span : Span) (name : String) (isMutable : Bool) (init : Option Expr) : P scope →
    Yields P (scope.execDeclare span name isMutable init)
  assign {scope : Scope} (span : Span) (target : Target) (value : Expr) (op : Token) : P scope →
    Yields P (scope.execAssign span target value op)
  update {scope : Scope} (span : Span) (target : Target) (op : Token) : P scope →
    Yields P (scope.execUpdate span target op)

/-- What leaves a scope of this kind where it finds one, and reaches no other on the way. -/
def Keeps (P : Scope → Prop) (run : State → Outcome) (trace : State → List Point) : Prop :=
  ∀ st : State, P st.scope → (run st).Leaves (fun st' => P st'.scope) ∧ ∀ p ∈ trace st, P p.scope

namespace Keeps

variable {P : Scope → Prop} {run next : State → Outcome} {trace trace' : State → List Point}

theorem finished : Keeps P .finished fun _ => [] := by
  intro st hst
  exact ⟨hst, by simp⟩

theorem start (s : Stmt) (h : Keeps P run trace) :
    Keeps P (fun st => run (st.visit s)) fun st => .start ⟨[], s, st⟩ :: trace (st.visit s) := by
  intro st hst
  obtain ⟨hleaves, hpoints⟩ := h (st.visit s) hst
  exact ⟨hleaves, List.forall_mem_cons.mpr ⟨hst, hpoints⟩⟩

theorem under (step : Step) (h : Keeps P run trace) : Keeps P run fun st => (trace st).map (.under step) := by
  intro st hst
  obtain ⟨hleaves, hpoints⟩ := h st hst
  refine ⟨hleaves, ?_⟩
  intro p hp
  obtain ⟨q, hq, rfl⟩ := List.mem_map.mp hp
  have hscope : (q.under step).scope = q.scope := by
    cases q <;> rfl
  rw [hscope]
  exact hpoints q hq

theorem andThen (h : Keeps P run trace) (hnext : Keeps P next trace') :
    Keeps P (fun st => (run st).andThen next) fun st => trace st ++ (run st).continued trace' := by
  intro st hst
  obtain ⟨hleaves, hpoints⟩ := h st hst
  dsimp only
  rw [List.forall_mem_append]
  cases ho : run st with
  | finished between =>
    rw [ho] at hleaves
    obtain ⟨hleaves', hpoints'⟩ := hnext between hleaves
    exact ⟨hleaves', hpoints, hpoints'⟩
  | failed f between =>
    rw [ho] at hleaves
    exact ⟨hleaves, hpoints, by simp [Outcome.continued]⟩
  | unfinished => exact ⟨trivial, hpoints, by simp [Outcome.continued]⟩

theorem loop (test : State → Except Failure Bool) (limit : Nat) (h : Keeps P run trace) :
    Keeps P (Outcome.loop test run limit) (Outcome.eachPass test run trace limit) := by
  induction limit with
  | zero =>
    intro st hst
    exact ⟨trivial, by simp [Outcome.eachPass]⟩
  | succ limit ih =>
    intro st hst
    rw [Outcome.loop, Outcome.eachPass]
    cases test st with
    | error f => exact ⟨hst, by simp⟩
    | ok holds =>
      cases holds with
      | false => exact ⟨hst, by simp⟩
      | true => exact h.andThen ih st hst

theorem branch {other : State → Outcome} (test : Expr) (h : Keeps P run trace) (hother : Keeps P other trace') :
    Keeps P (Outcome.branch test run other) (Outcome.branched test trace trace') := by
  intro st hst
  unfold Outcome.branch Outcome.branched
  cases test.condition .ifStatement st.scope with
  | error f => exact ⟨hst, by simp⟩
  | ok holds =>
    cases holds with
    | true => exact h st hst
    | false => exact hother st hst

/-- A step that makes another scope leads to one of this kind. -/
theorem rescope {step : Scope → Except Failure Scope} (h : ∀ scope, P scope → Yields P (step scope)) :
    Keeps P (fun st => st.rescope (step st.scope)) fun st =>
      (st.rescope (step st.scope)).continued fun st => [.moved st.scope] := by
  intro st hst
  dsimp only
  cases hstep : step st.scope with
  | error f => exact ⟨hst, by simp [State.rescope, Outcome.ofStep, Outcome.continued]⟩
  | ok scope =>
    have hscope := h st.scope hst scope hstep
    refine ⟨hscope, ?_⟩
    rintro p hp
    rw [List.mem_singleton.mp hp]
    exact hscope

/-- A record makes no other scope. -/
theorem emitIfAny (step : State → Except Failure (Option Record)) :
    Keeps P (fun st => st.emitIfAny (step st)) fun _ => [] := by
  intro st hst
  refine ⟨?_, by simp⟩
  apply State.ends_emitIfAny
  · intro _
    exact hst
  · intro _ _
    exact hst
  · intro _ _
    exact hst

end Keeps

namespace Scope.Invariant

variable {P : Scope → Prop} (h : Invariant P)

include h

theorem inFrame {run : State → Outcome} {trace : State → List Point} (name : String) (hrun : Keeps P run trace) :
    Keeps P (Outcome.inFrame name run) (Outcome.framed name run trace) := by
  intro st hst
  have hopen : P (st.push name).scope := h.push name hst
  obtain ⟨hleaves, hpoints⟩ := hrun (st.push name) hopen
  unfold Outcome.inFrame Outcome.framed
  rw [List.forall_mem_cons, List.forall_mem_append]
  cases ho : run (st.push name) with
  | finished st' =>
    rw [ho] at hleaves
    have hclose := h.pop hleaves
    exact ⟨hclose, hopen, hpoints, List.forall_mem_singleton.mpr hclose⟩
  | failed f st' =>
    rw [ho] at hleaves
    have hclose := h.pop hleaves
    exact ⟨hclose, hopen, hpoints, List.forall_mem_singleton.mpr hclose⟩
  | unfinished => exact ⟨trivial, hopen, hpoints, by simp [Outcome.closing]⟩

theorem keeps_of_isSimple {limit : Nat} {s : Stmt} (hsimple : s.isSimple = true) :
    Keeps P (s.exec limit) (s.trace limit) := by
  cases s with
  | declare span name isMutable init =>
    intro st hst
    rw [Stmt.exec, Stmt.trace, Stmt.exec]
    exact (Keeps.rescope fun _ => h.declare span name isMutable init).start _ st hst
  | assign span target value op =>
    intro st hst
    rw [Stmt.exec, Stmt.trace, Stmt.exec]
    exact (Keeps.rescope fun _ => h.assign span target value op).start _ st hst
  | update span target op =>
    intro st hst
    rw [Stmt.exec, Stmt.trace, Stmt.exec]
    exact (Keeps.rescope fun _ => h.update span target op).start _ st hst
  | output span level argument =>
    exact (Keeps.emitIfAny fun st => (st.scope.outputRecord level argument).map some).start _
  | expression span e => exact (Keeps.emitIfAny fun st => st.scope.expressionRecord e).start _
  | stray e =>
    intro st hst
    exact ⟨hst, List.forall_mem_singleton.mpr hst⟩
  | block | forLoop | whileLoop | ifElse => cases hsimple

/-- Every way to put runs together keeps an invariant. -/
theorem rule (limit : Nat) : TraceRule (fun _ => True) limit (Keeps P) where
  simple _ hsimple := h.keeps_of_isSimple hsimple
  finished := .finished
  andThen hrun hnext := hrun.andThen hnext
  start s hrun := hrun.start s
  under step hrun := hrun.under step
  inFrame name hrun := h.inFrame name hrun
  loop statement test hrun := hrun.loop (State.loopTest statement test) limit
  branch test hrun hother := hrun.branch test hother

theorem keeps (limit : Nat) (p : Program) : Keeps P (p.exec limit) (p.trace limit) :=
  (h.rule limit).execAll (fun _ _ => (h.rule limit).exec fun _ _ => trivial) .item

end Scope.Invariant

/-! ## Scopes of a session -/

/-- The scopes that a session reaches: the one it begins with, and the one at each point of its trace. -/
def Session.scopes (runs : List (Nat × Program)) (session : State) : List Scope :=
  session.scope :: (trace runs session).map Point.scope

theorem Session.forall_scopes {P : Scope → Prop} (h : Scope.Invariant P) {runs : List (Nat × Program)} {session : State}
    (hsession : P session.scope) : ∀ scope ∈ scopes runs session, P scope := by
  unfold scopes
  rw [List.forall_mem_cons, List.forall_mem_map]
  refine ⟨hsession, ?_⟩
  induction runs generalizing session with
  | nil => simp [trace]
  | cons run rest ih =>
    obtain ⟨limit, p⟩ := run
    obtain ⟨hleaves, hpoints⟩ := h.keeps limit p session hsession
    rw [trace, List.forall_mem_append]
    refine ⟨hpoints, ?_⟩
    cases ho : p.exec limit session with
    | finished st =>
      rw [ho] at hleaves
      exact ih hleaves
    | failed f st =>
      -- What a failure leaves is where the next run begins.
      rw [ho] at hleaves
      exact ih hleaves
    | unfinished => simp

end TreeScript
