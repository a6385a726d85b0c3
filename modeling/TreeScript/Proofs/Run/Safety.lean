/-
Programs that documents give are safe to run. Their trees are well formed, and from any scope of well-formed
values every statement finishes, fails with an error of evaluation, or goes on until the limit on the tests of a
loop; in the state that it leaves all values are well formed again. A defect, which would mean that a tree was put
together wrongly, never comes up. The invariant is the scope's; each way to put runs together keeps it, and the
induction over statements puts them together.
-/
import TreeScript.Proofs.Run.Rule
import TreeScript.Proofs.Run.Values
import TreeScript.Proofs.Tree.Reading

namespace TreeScript

/-! ## Safe runs -/

/-- A run that leaves well-formed values behind, and fails with nothing but errors of evaluation. -/
def Outcome.Safe (o : Outcome) : Prop :=
  o.Ends (fun st => st.scope.WellFormed)
    (fun f st => (∃ e, f = .error e ∧ e.cause.isEvaluation = true) ∧ st.scope.WellFormed)

/-- What runs safely from every scope of well-formed values. -/
def RunsSafely (run : State → Outcome) : Prop := ∀ st : State, st.scope.WellFormed → (run st).Safe

/-- The failure of a safe step is an error of evaluation. -/
theorem Safe.failure {α : Type} {P : α → Prop} {x : Except Failure α} (hx : Safe P x) {f : Failure}
    (h : x = .error f) : ∃ e, f = .error e ∧ e.cause.isEvaluation = true := by
  rw [h] at hx
  cases hx with
  | error he => exact ⟨_, rfl, he⟩

/-- Entering a statement into the log leaves the scope alone. -/
theorem Scope.WellFormed.visit {st : State} (h : st.scope.WellFormed) (s : Stmt) : (st.visit s).scope.WellFormed := h

section

variable {st : State} (hst : st.scope.WellFormed)

include hst

theorem State.rescope_safe {step : Except Failure Scope} (hstep : Safe Scope.WellFormed step) :
    (st.rescope step).Safe := by
  apply State.ends_rescope
  · intro scope h
    exact hstep.result h
  · intro f h
    exact ⟨hstep.failure h, hst⟩

theorem State.emitIfAny_safe {step : Except Failure (Option Record)} (hstep : Safe (fun _ => True) step) :
    (st.emitIfAny step).Safe := by
  apply State.ends_emitIfAny
  · intro _
    exact hst
  · intro r _
    exact hst
  · intro f h
    exact ⟨hstep.failure h, hst⟩

end

/-! ## Statements -/

variable {limit : Nat}

theorem Stmt.exec_safe_of_isSimple {s : Stmt} (h : s.SoundNode) (hsimple : s.isSimple = true) :
    RunsSafely (s.exec limit) := by
  cases s with
  | declare span name isMutable init =>
    intro st hst
    rw [exec]
    have hinit : ∀ e ∈ init, e.Sound := fun e he => h.1 e (Option.mem_toList.mpr he)
    exact State.rescope_safe (hst.visit _) (Scope.execDeclare_safe hst hinit)
  | assign span target value op =>
    intro st hst
    rw [exec]
    obtain ⟨hexprs, -, -, hop⟩ := h
    exact State.rescope_safe (hst.visit _) (Scope.execAssign_safe hst (hexprs value (List.mem_singleton_self _)) hop)
  | update span target op =>
    intro st hst
    rw [exec]
    obtain ⟨-, -, -, hop⟩ := h
    exact State.rescope_safe (hst.visit _) (Scope.execUpdate_safe hst hop)
  | output span level argument =>
    intro st hst
    rw [exec]
    obtain ⟨hexprs, hlevel⟩ := h
    have hrecord := Scope.outputRecord_safe hst hlevel (hexprs argument (List.mem_singleton_self _))
    exact State.emitIfAny_safe (hst.visit _) (hrecord.map fun _ _ => True.intro)
  | expression span e =>
    intro st hst
    rw [exec]
    exact State.emitIfAny_safe (hst.visit _) (Scope.expressionRecord_safe hst (h.1 e (List.mem_singleton_self _)))
  | stray e => exact h.2.elim
  | block | forLoop | whileLoop | ifElse => cases hsimple

/-- Safe runs, as a contract: what is said of the end is said under the condition that all values are well formed. -/
def safety : Contract where
  good st st' := st.scope.WellFormed → st'.scope.WellFormed
  bad st f st' := st.scope.WellFormed → (∃ e, f = .error e ∧ e.cause.isEvaluation = true) ∧ st'.scope.WellFormed
  refl _ hst := hst
  trans h h' hst := h' (h hst)
  trans_bad h h' hst := h' (h hst)

theorem holds_safety_iff {run : State → Outcome} : safety.Holds run ↔ RunsSafely run := by
  constructor
  · intro h st hst
    exact (h st).imp (fun _ h => h hst) fun _ _ h => h hst
  · intro h st
    have hsafe := h st
    cases ho : run st with
    | finished st' =>
      rw [ho] at hsafe
      exact hsafe
    | failed f st' =>
      rw [ho] at hsafe
      exact hsafe
    | unfinished => trivial

/-- Runs of sound statements are put together from safe ones. -/
theorem safety_kept (limit : Nat) : safety.Kept Stmt.SoundNode limit where
  simple h hsimple := holds_safety_iff.mpr (Stmt.exec_safe_of_isSimple h hsimple)
  visit _ _ hst := hst
  pop h hst := (h (hst.push _)).pop
  pop_bad h hst := ⟨(h (hst.push _)).1, (h (hst.push _)).2.pop⟩
  condition h htest hf hst :=
    ⟨(Expr.condition_safe hst (h.1 _ (Stmt.mem_exprs_of_condition? htest))).failure hf, hst⟩

/-- Every sound statement runs safely. -/
theorem Stmt.exec_safe {s : Stmt} (h : s.Sound) : RunsSafely (s.exec limit) :=
  holds_safety_iff.mp ((safety_kept limit).rule.exec h)

theorem execAll_safe {statements : List Stmt} (hs : ∀ s ∈ statements, s.Sound) :
    RunsSafely (execAll limit statements) :=
  holds_safety_iff.mp ((safety_kept limit).rule.execAll fun s h => (safety_kept limit).rule.exec (hs s h))

/-! ## Programs -/

/-- A program that a document gives is well formed. In a scope of well-formed values each of its expressions gives such
a value or ends in an error of evaluation; each of its statements, and the program as a whole, fails with no
other failure, however long it runs, and leaves well-formed values behind. -/
theorem loaded_program_safe {filename : Option String} {name d : Document} {p : Program}
    (hp : Program.ofDocument filename name d = .ok p) :
    p.WellFormed ∧
    ∀ limit (st : State), st.scope.WellFormed →
      (p.exec limit st).Safe ∧
      ∀ s ∈ p.nodes, (s.exec limit st).Safe ∧
        ∀ e ∈ s.exprs, ∀ n ∈ e.nodes, Safe Value.WellFormed (n.eval st.scope) := by
  have hsound : ∀ s ∈ p.statements, s.Sound := Program.ofDocument_yields filename name d p hp
  have hnodes : ∀ s ∈ p.nodes, s.Sound := forall_statementNodes.mpr fun s hs => (hsound s hs).all
  constructor
  · unfold Program.WellFormed
    rw [statementsWellFormed_iff]
    intro s hs
    exact (hsound s hs).wellFormed
  · intro limit st hst
    constructor
    · exact execAll_safe hsound st hst
    · intro s hs
      constructor
      · exact Stmt.exec_safe (hnodes s hs) st hst
      · intro e he n hn
        have he : e.Sound := (hnodes s hs).self.1 e he
        exact Expr.eval_safe hst (he.forall_nodes n hn)

/-- A document whose one statement works out the negative of the variable `x`. -/
def negativeDocument : Document :=
  .list [.map [(.text "node", .text "Expression"),
    (.text "expression", .map [(.text "node", .text "Unary"), (.text "op", .text "-"),
      (.text "operand", .map [(.text "node", .text "Identifier"), (.text "name", .text "x")])])]]

theorem loaded_program_safe_bound_name :
    ∃ (p : Program) (st : State), Program.ofDocument none .null negativeDocument = .ok p ∧ st.scope.WellFormed ∧
      p.WellFormed ∧ (p.exec 1 st).Safe := by
  let p : Program := ⟨[.expression .none (.unary .none .minus (.identifier .none "x"))], .null⟩
  let st : State := ⟨⟨⟨"global", [⟨"x", .integer ⟨-1, [7]⟩, true⟩]⟩, []⟩, #[]⟩
  have hp : Program.ofDocument none .null negativeDocument = .ok p := rfl
  have hst : st.scope.WellFormed := by
    intro f hf b hb
    obtain rfl := List.mem_singleton.mp hf
    obtain rfl := List.mem_singleton.mp hb
    exact (by decide : (⟨-1, [7]⟩ : Integer).Canonical)
  obtain ⟨hwell, hsafe⟩ := loaded_program_safe hp
  exact ⟨p, st, hp, hst, hwell, (hsafe 1 st hst).1⟩

end TreeScript
