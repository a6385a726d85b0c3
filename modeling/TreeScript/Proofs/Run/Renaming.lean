/-
Names of variables mean nothing but which variable is which. Under other names, as long as no two names become one and
the built-in console keeps its own, a program goes the same way: it emits the same records, ends alike, and what it
leaves are the same bindings under their new names. Only the texts of errors may differ, where they quote names.

A run of the renamed program goes in step with the run of the program: the state of the one is that of the other with
the names replaced. Operations on scopes keep that since a renaming tells names apart, and calls since the console's
name is not touched.
-/
import TreeScript.Proofs.Run.Confinement
import TreeScript.Proofs.Run.Likeness
import TreeScript.Proofs.Tree.Renaming
import TreeScript.Run.Session

namespace TreeScript

/-! ## States with other names -/

section

variable (ρ : String → String)

def Binding.rename (b : Binding) : Binding := { b with name := ρ b.name }

def Frame.rename (f : Frame) : Frame := { f with bindings := f.bindings.map (·.rename ρ) }

def Scope.rename (s : Scope) : Scope := ⟨s.current.rename ρ, s.outer.map (·.rename ρ)⟩

def Event.rename : Event → Event
  | .visited v => .visited { v with stmt := v.stmt.rename ρ }
  | .emitted r => .emitted r

def State.rename (st : State) : State := ⟨st.scope.rename ρ, st.log.map (Event.rename ρ)⟩

theorem Event.records_rename (log : Array Event) : records (log.map (Event.rename ρ)) = records log := by
  have hrecord : record? ∘ Event.rename ρ = record? := by
    funext e
    cases e <;> rfl
  rw [records, records, Array.toList_map, List.filterMap_map, hrecord]

end

variable {ρ : String → String}

section

variable (hρ : Function.Injective ρ)

include hρ

/-! ### Frames -/

namespace Frame

theorem find?_rename (f : Frame) (name : String) : (f.rename ρ).find? (ρ name) = (f.find? name).map (·.rename ρ) := by
  have hname : (fun b : Binding => b.name == ρ name) ∘ Binding.rename ρ = fun b => b.name == name := by
    funext b
    simp [Binding.rename, hρ.eq_iff, beq_eq_decide]
  unfold find? rename
  rw [List.find?_map, hname]

theorem owns_rename (f : Frame) (name : String) : (f.rename ρ).owns (ρ name) = f.owns name := by
  rw [owns, owns, find?_rename hρ, Option.isSome_map]

theorem set_rename (f : Frame) (name : String) (value : Value) :
    (f.rename ρ).set (ρ name) value = (f.set name value).rename ρ := by
  simp only [set, rename, List.map_map]
  congr 2
  funext b
  by_cases hb : b.name = name <;> simp [Binding.rename, hρ.eq_iff, hb]

end Frame

/-! ### Scopes -/

namespace Scope

theorem find?_rename (s : Scope) (name : String) : (s.rename ρ).find? (ρ name) = (s.find? name).map (·.rename ρ) := by
  have hframes : (s.rename ρ).frames = s.frames.map (·.rename ρ) := rfl
  unfold find?
  rw [hframes]
  induction s.frames with
  | nil => rfl
  | cons f rest ih =>
    rw [List.map_cons, List.findSome?_cons, List.findSome?_cons, Frame.find?_rename hρ]
    cases f.find? name with
    | none => exact ih
    | some b => rfl

theorem owns_rename (s : Scope) (name : String) : (s.rename ρ).owns (ρ name) = s.owns name :=
  s.current.owns_rename hρ name

theorem isDefined_rename (s : Scope) (name : String) : (s.rename ρ).isDefined (ρ name) = s.isDefined name := by
  rw [isDefined, isDefined, find?_rename hρ, Option.isSome_map]

theorem setFirst_rename (name : String) (value : Value) (fs : List Frame) :
    setFirst (ρ name) value (fs.map (·.rename ρ)) = (setFirst name value fs).map (·.rename ρ) := by
  induction fs with
  | nil => rfl
  | cons f rest ih =>
    rw [List.map_cons, setFirst, setFirst, f.owns_rename hρ, f.set_rename hρ, ih]
    split <;> rfl

theorem set_rename (s : Scope) (name : String) (value : Value) :
    (s.rename ρ).set (ρ name) value = (s.set name value).rename ρ := by
  unfold set
  rw [show (s.rename ρ).current = s.current.rename ρ from rfl, s.current.owns_rename hρ]
  split
  · simp [rename, s.current.set_rename hρ]
  · simp [rename, setFirst_rename hρ]

end Scope

end

namespace Scope

theorem bind_rename (s : Scope) (b : Binding) :
    ({ s.rename ρ with current := (s.rename ρ).current.bind (b.rename ρ) } : Scope) =
      ({ s with current := s.current.bind b } : Scope).rename ρ := by
  simp [rename, Frame.bind, Frame.rename]

theorem pop_rename (s : Scope) : (s.rename ρ).pop = s.pop.rename ρ := by
  obtain ⟨current, outer⟩ := s
  cases outer <;> rfl

end Scope

/-! ## Expressions -/

/-- What an error says apart from names: its code, which is that of its class, and its place. -/
def Error.codeAndPlace (e : Error) : String × Option Span := (e.cause.code, e.span)

/-- Failures that differ in the names that they quote at most. -/
abbrev SameButNames : Failure → Failure → Prop := Failure.SameIn Error.codeAndPlace

section

variable (hρ : Function.Injective ρ) (a : Scope)

include hρ

namespace Expr

theorem eval_rename (e : Expr) : StepsMatch SameButNames Eq (e.eval a) ((e.rename ρ).eval (a.rename ρ)) := by
  induction e using Expr.induction with
  | literal span l =>
    rw [rename, eval, eval]
    exact .of_eq (.refl _) rfl
  | identifier span name =>
    rw [rename, eval, eval, Scope.lookup, Scope.lookup, Scope.find?_rename hρ]
    cases a.find? name with
    | none => exact .error (.error rfl)
    | some b => exact .ok rfl
  | binary span left op right ihLeft ihRight =>
    rw [rename, eval, eval]
    generalize left.eval a = x, (left.rename ρ).eval (a.rename ρ) = x' at ihLeft ⊢
    generalize right.eval a = y, (right.rename ρ).eval (a.rename ρ) = y' at ihRight ⊢
    rcases ihLeft with @⟨v, _, rfl⟩ | hf
    · dsimp only
      split
      · cases placed span (v.requireBoolean op) with
        | error f => exact .error (.refl _ f)
        | ok b =>
          dsimp only
          split
          · exact .ok rfl
          · rcases ihRight with @⟨w, _, rfl⟩ | hf
            · exact .of_eq (.refl _) rfl
            · exact .error hf
      · rcases ihRight with @⟨w, _, rfl⟩ | hf
        · exact .of_eq (.refl _) rfl
        · exact .error hf
    · exact .error hf
  | unary span op operand ih =>
    rw [rename, eval, eval]
    generalize operand.eval a = x, (operand.rename ρ).eval (a.rename ρ) = x' at ih ⊢
    rcases ih with @⟨v, _, rfl⟩ | hf
    · exact .of_eq (.refl _) rfl
    · exact .error hf
  | call span receiver method args _ _ =>
    rw [rename, eval, eval]
    exact .error (.error rfl)
  | stray s =>
    rw [rename, eval, eval, s.kindName_rename]
    exact .error (.refl _ _)

theorem evalAll_rename (args : List Expr) :
    StepsMatch SameButNames Eq (evalAll a args) (evalAll (a.rename ρ) (renameArgs ρ args)) := by
  induction args with
  | nil => exact .ok rfl
  | cons e rest ih =>
    have he := e.eval_rename hρ a
    rw [renameArgs, evalAll, evalAll]
    generalize e.eval a = x, (e.rename ρ).eval (a.rename ρ) = x' at he ⊢
    rcases he with @⟨v, _, rfl⟩ | hf
    · exact ih.map (v :: ·)
    · exact .error hf

theorem condition_rename (statement : Branching) (e : Expr) :
    StepsMatch SameButNames Eq (e.condition statement a) ((e.rename ρ).condition statement (a.rename ρ)) := by
  have he := e.eval_rename hρ a
  rw [condition, condition, e.span_rename]
  generalize e.eval a = x, (e.rename ρ).eval (a.rename ρ) = x' at he ⊢
  rcases he with @⟨v, _, rfl⟩ | hf
  · exact .of_eq (.refl _) rfl
  · exact .error hf

end Expr

end

/-! ## Calls -/

section

variable (hρ : Function.Injective ρ) (hconsole : ρ "console" = "console")

theorem Builtin.Registry.hasObject_standard (object : String) :
    standard.hasObject object = decide (object = "console") := by
  rw [← beq_eq_decide, BEq.comm]
  simp [hasObject, standard]

include hρ hconsole

theorem Builtin.Registry.hasObject_rename (object : String) :
    standard.hasObject (ρ object) = standard.hasObject object := by
  rw [hasObject_standard, hasObject_standard, decide_eq_decide]
  constructor
  · intro h
    exact hρ (h.trans hconsole.symm)
  · rintro rfl
    exact hconsole

/-- A call asks whether its receiver is the console and no variable, which is the same under the other name. -/
theorem Expr.callRecord_rename (a : Scope) (span : Span) (receiver : Expr) (method : String) (args : List Expr) :
    StepsMatch SameButNames Eq (callRecord a span receiver method args)
      (callRecord (a.rename ρ) span (receiver.rename ρ) method (renameArgs ρ args)) := by
  cases receiver with
  | identifier receiverSpan object =>
    rw [rename, callRecord, callRecord, a.isDefined_rename hρ, Builtin.Registry.hasObject_rename hρ hconsole]
    by_cases hbuiltin : (!a.isDefined object && Builtin.Registry.standard.hasObject object) = true
    · have hobject : object = "console" := by
        rw [Bool.and_eq_true, Builtin.Registry.hasObject_standard, decide_eq_true_iff] at hbuiltin
        exact hbuiltin.2
      rw [if_pos hbuiltin, if_pos hbuiltin, hobject, hconsole]
      cases Builtin.Registry.standard.method? "console" method with
      | none => exact .error (.error rfl)
      | some m => exact (evalAll_rename hρ a args).map fun values => m.action.record values
    · -- A variable has no methods, and a name that is neither is undefined.
      rw [if_neg hbuiltin, if_neg hbuiltin, Scope.lookup, Scope.lookup, a.find?_rename hρ]
      cases a.find? object with
      | none => exact .error (.error rfl)
      | some b => exact .error (.error rfl)
  | stray s =>
    rw [rename, callRecord, callRecord, kindName, kindName, s.kindName_rename]
    · exact .error (.refl _ _)
    all_goals rintro _ _ ⟨⟩
  | _ => exact .error (.refl _ _)

end

/-! ## Simple statements -/

namespace Scope

variable (hρ : Function.Injective ρ) (a : Scope) (span : Span)

include hρ

theorem declare_rename (name : String) (value : Value) (isMutable : Bool) :
    StepsMatch SameButNames (fun s t => t = s.rename ρ) (placed span (a.declare name value isMutable))
      (placed span ((a.rename ρ).declare (ρ name) value isMutable)) := by
  rw [declare, declare, a.owns_rename hρ]
  split
  · exact .error (.error rfl)
  · exact .ok (a.bind_rename ⟨name, value, isMutable⟩)

theorem currentForUpdate_rename (name : String) :
    StepsMatch SameButNames Eq (placed span (a.currentForUpdate name))
      (placed span ((a.rename ρ).currentForUpdate (ρ name))) := by
  rw [currentForUpdate, currentForUpdate, a.find?_rename hρ]
  cases a.find? name with
  | none => exact .error (.error rfl)
  | some b =>
    rcases hb : b.isMutable with _ | _
    · simp only [Option.map_some, Binding.rename, hb]
      exact .error (.error rfl)
    · simp only [Option.map_some, Binding.rename, hb]
      exact .ok rfl

theorem assign_rename (name : String) (value : Value) :
    StepsMatch SameButNames (fun s t => t = s.rename ρ) (placed span (a.assign name value))
      (placed span ((a.rename ρ).assign (ρ name) value)) := by
  have hcurrent := a.currentForUpdate_rename hρ span name
  rw [assign, assign]
  generalize a.currentForUpdate name = x, (a.rename ρ).currentForUpdate (ρ name) = x' at hcurrent ⊢
  cases x <;> cases x' <;> cases hcurrent
  · rename_i h
    exact .error h
  · exact .ok (a.set_rename hρ name value)

theorem execDeclare_rename (name : String) (isMutable : Bool) (init : Option Expr) :
    StepsMatch SameButNames (fun s t => t = s.rename ρ) (a.execDeclare span name isMutable init)
      ((a.rename ρ).execDeclare span (ρ name) isMutable (renameOptional ρ init)) := by
  cases init with
  | none => exact .error (.error rfl)
  | some e =>
    have he := e.eval_rename hρ a
    rw [renameOptional, execDeclare, execDeclare]
    generalize e.eval a = x, (e.rename ρ).eval (a.rename ρ) = x' at he ⊢
    rcases he with @⟨v, _, rfl⟩ | hf
    · exact a.declare_rename hρ span name v isMutable
    · exact .error hf

theorem execAssign_rename (target : Target) (value : Expr) (op : Token) :
    StepsMatch SameButNames (fun s t => t = s.rename ρ) (a.execAssign span target value op)
      ((a.rename ρ).execAssign span (target.rename ρ) (value.rename ρ) op) := by
  have hvalue := value.eval_rename hρ a
  have htarget := a.currentForUpdate_rename hρ target.span target.name
  rw [execAssign, execAssign]
  rw [Target.rename]
  generalize value.eval a = x, (value.rename ρ).eval (a.rename ρ) = x' at hvalue ⊢
  split
  · rcases hvalue with @⟨v, _, rfl⟩ | hf
    · exact a.assign_rename hρ span target.name v
    · exact .error hf
  · cases op.compound? with
    | none => exact .error (.refl _ _)
    | some operator =>
      dsimp only
      generalize placed target.span (a.currentForUpdate target.name) = y,
        placed target.span ((a.rename ρ).currentForUpdate (ρ target.name)) = y' at htarget ⊢
      rcases htarget with @⟨current, _, rfl⟩ | hf
      · rcases hvalue with @⟨operand, _, rfl⟩ | hf
        · dsimp only
          cases placed span (Value.arithmetic operator current operand) with
          | error f => exact .error (.refl _ f)
          | ok v => exact a.assign_rename hρ span target.name v
        · exact .error hf
      · exact .error hf

theorem execUpdate_rename (target : Target) (op : Token) :
    StepsMatch SameButNames (fun s t => t = s.rename ρ) (a.execUpdate span target op)
      ((a.rename ρ).execUpdate span (target.rename ρ) op) := by
  have htarget := a.currentForUpdate_rename hρ target.span target.name
  rw [execUpdate, execUpdate, Target.rename]
  dsimp only
  generalize placed target.span (a.currentForUpdate target.name) = y,
    placed target.span ((a.rename ρ).currentForUpdate (ρ target.name)) = y' at htarget ⊢
  rcases htarget with @⟨current, _, rfl⟩ | hf
  · cases current with
    | integer n =>
      dsimp only
      split
      · exact a.assign_rename hρ span target.name _
      · exact a.assign_rename hρ span target.name _
      · exact .error (.refl _ _)
    | _ => exact .error (.error rfl)
  · exact .error hf

theorem outputRecord_rename (level : Level) (argument : Expr) :
    StepsMatch SameButNames Eq (a.outputRecord level argument)
      ((a.rename ρ).outputRecord level (argument.rename ρ)) := by
  rw [outputRecord, outputRecord]
  cases level.severity with
  | error f => exact .error (.refl _ f)
  | ok severity => exact (argument.eval_rename hρ a).map fun v => (⟨severity, v.render⟩ : Record)

theorem expressionRecord_rename (hconsole : ρ "console" = "console") (e : Expr) :
    StepsMatch SameButNames Eq (a.expressionRecord e) ((a.rename ρ).expressionRecord (e.rename ρ)) := by
  have he := e.eval_rename hρ a
  cases e with
  | call span receiver method args =>
    exact (Expr.callRecord_rename hρ hconsole a span receiver method args).map some
  | _ => exact he.map fun _ => none

end Scope

/-! ## Runs -/

theorem State.visit_rename (st : State) (s : Stmt) :
    (st.rename ρ).visit (s.rename ρ) = (st.visit s).rename ρ := by
  simp [visit, rename, Scope.rename, Scope.depth, Frame.rename, Event.rename]

theorem State.emit_rename (st : State) (r : Record) : (st.rename ρ).emit r = (st.emit r).rename ρ := by
  simp [emit, rename, Event.rename]

/-- The states that two runs have come to, the second of them with other names. -/
abbrev Renamed (ρ : String → String) (a b : State) : Prop := b = a.rename ρ

theorem State.rescope_rename (st : State) {step step' : Except Failure Scope}
    (h : StepsMatch SameButNames (fun s t => t = s.rename ρ) step step') :
    Outcome.Match SameButNames (Renamed ρ) (st.rescope step) ((st.rename ρ).rescope step') := by
  refine Outcome.Match.ofStep h rfl ?_
  rintro a _ rfl
  exact .finished rfl

theorem State.emitIfAny_rename (st : State) {step step' : Except Failure (Option Record)}
    (h : StepsMatch SameButNames Eq step step') :
    Outcome.Match SameButNames (Renamed ρ) (st.emitIfAny step) ((st.rename ρ).emitIfAny step') := by
  refine Outcome.Match.ofStep h rfl ?_
  rintro record _ rfl
  cases record with
  | none => exact .finished rfl
  | some r => exact .finished (st.emit_rename r)

/-- Two runs that end alike, where the second starts with other names in its state: what it leaves is what the first
one leaves with other names. -/
def Mirrors (ρ : String → String) (run run' : State → Outcome) : Prop :=
  ∀ st : State, Outcome.Match SameButNames (Renamed ρ) (run st) (run' (st.rename ρ))

namespace Mirrors

variable {run run' next next' : State → Outcome}

theorem finished : Mirrors ρ .finished .finished := fun _ => .finished rfl

theorem andThen (h : Mirrors ρ run run') (hnext : Mirrors ρ next next') :
    Mirrors ρ (fun st => (run st).andThen next) fun st => (run' st).andThen next' := by
  intro st
  apply (h st).andThen
  rintro a _ rfl
  exact hnext a

theorem visit (s : Stmt) (h : Mirrors ρ run run') :
    Mirrors ρ (fun st => run (st.visit s)) fun st => run' (st.visit (s.rename ρ)) := by
  intro st
  dsimp only
  rw [st.visit_rename]
  exact h (st.visit s)

theorem inFrame (name : String) (h : Mirrors ρ run run') :
    Mirrors ρ (Outcome.inFrame name run) (Outcome.inFrame name run') := by
  intro st
  apply Outcome.Match.inFrame
  apply (h (st.push name)).imp fun _ _ hf => hf
  rintro a _ rfl
  show (⟨_, _⟩ : State) = ⟨_, _⟩
  rw [State.rename, Scope.pop_rename]
  rfl

variable (hρ : Function.Injective ρ)

include hρ

theorem loop (statement : Branching) (test : Option Expr) (limit : Nat) (h : Mirrors ρ run run') :
    Mirrors ρ (Outcome.loop (State.loopTest statement test) run limit)
      (Outcome.loop (State.loopTest statement (renameOptional ρ test)) run' limit) := by
  intro st
  refine Outcome.Match.loop limit ?_ ?_ rfl
  · rintro a _ rfl
    cases test with
    | none => exact .ok rfl
    | some e => exact e.condition_rename hρ a.scope statement
  · rintro a _ rfl
    exact h a

theorem branch (test : Expr) (h : Mirrors ρ run run') (hnext : Mirrors ρ next next') :
    Mirrors ρ (Outcome.branch test run next) (Outcome.branch (test.rename ρ) run' next') := by
  intro st
  exact .branch (test.condition_rename hρ st.scope .ifStatement) rfl (h st) (hnext st)

end Mirrors

/-! ### Statements -/

section

variable {limit : Nat}

theorem execAll_rename {statements : List Stmt}
    (h : ∀ s ∈ statements, Mirrors ρ (s.exec limit) ((s.rename ρ).exec limit)) :
    Mirrors ρ (execAll limit statements) (execAll limit (renameAll ρ statements)) := by
  induction statements with
  | nil => exact .finished
  | cons s rest ih =>
    obtain ⟨hs, hrest⟩ := List.forall_mem_cons.mp h
    exact hs.andThen (ih hrest)

theorem Block.exec_rename {body : Block}
    (h : ∀ s ∈ body.statements, Mirrors ρ (s.exec limit) ((s.rename ρ).exec limit)) :
    Mirrors ρ (body.exec limit) ((body.rename ρ).exec limit) := by
  cases body with
  | mk span statements => exact execAll_rename h

theorem execOptional_rename {s? : Option Stmt} (h : ∀ s ∈ s?, Mirrors ρ (s.exec limit) ((s.rename ρ).exec limit)) :
    Mirrors ρ (execOptional limit s?) (execOptional limit (renameOptionalStmt ρ s?)) := by
  cases s? with
  | none => exact .finished
  | some s => exact h s rfl

theorem execElse_rename {s? : Option Stmt} (h : ∀ s ∈ s?, Mirrors ρ (s.exec limit) ((s.rename ρ).exec limit))
    (hblock : ∀ body, .block body ∈ s? →
      ∀ s ∈ body.statements, Mirrors ρ (s.exec limit) ((s.rename ρ).exec limit)) :
    Mirrors ρ (execElse limit s?) (execElse limit (renameOptionalStmt ρ s?)) := by
  cases s? with
  | none => exact .finished
  | some s =>
    cases s with
    | block body => exact (Block.exec_rename (hblock body rfl)).inFrame "else"
    | _ => exact h _ rfl

/-- A statement goes the same way under other names. -/
theorem Stmt.exec_rename (hρ : Function.Injective ρ) (hconsole : ρ "console" = "console") (s : Stmt) :
    Mirrors ρ (s.exec limit) ((s.rename ρ).exec limit) := by
  induction s using Stmt.induction with
  | declare span name isMutable init =>
    intro st
    rw [rename, exec, exec, ← rename, st.visit_rename]
    exact State.rescope_rename _ (st.scope.execDeclare_rename hρ span name isMutable init)
  | assign span target value op =>
    intro st
    rw [rename, exec, exec, ← rename, st.visit_rename]
    exact State.rescope_rename _ (st.scope.execAssign_rename hρ span target value op)
  | update span target op =>
    intro st
    rw [rename, exec, exec, ← rename, st.visit_rename]
    exact State.rescope_rename _ (st.scope.execUpdate_rename hρ span target op)
  | output span level argument =>
    intro st
    rw [rename, exec, exec, ← rename, st.visit_rename]
    exact State.emitIfAny_rename _ ((st.scope.outputRecord_rename hρ level argument).map some)
  | expression span e =>
    intro st
    rw [rename, exec, exec, ← rename, st.visit_rename]
    exact State.emitIfAny_rename _ (st.scope.expressionRecord_rename hρ hconsole e)
  | block body ih => exact ((Block.exec_rename ih).inFrame "block").visit _
  | forLoop span init test update body ihInit ihUpdate ihBody =>
    have hpass := ((Block.exec_rename ihBody).inFrame "for-body").andThen (execOptional_rename ihUpdate)
    exact (((execOptional_rename ihInit).andThen (hpass.loop hρ .forLoop test limit)).inFrame "for-loop").visit _
  | whileLoop span test body ih =>
    exact (((Block.exec_rename ih).inFrame "while-body").loop hρ .whileLoop (some test) limit).visit _
  | ifElse span test thenBranch elseBranch ihThen ihElse ihBlock =>
    have hthen := (Block.exec_rename ihThen).inFrame "if-then"
    exact (hthen.branch hρ test (execElse_rename ihElse ihBlock)).visit _
  | stray e =>
    intro st
    rw [rename, exec, exec, e.kindName_rename]
    exact .failed (.refl _ _) (st.visit_rename (.stray e))

end

/-! ### Programs -/

/-- A program that starts with no frame but the global one leaves that frame alone. -/
theorem Program.leaves_global (limit : Nat) (p : Program) :
    (p.exec limit .fresh).Leaves fun st => ∃ bindings, st.scope = ⟨⟨"global", bindings⟩, []⟩ := by
  have hrule := confined_rule p.assigned limit
  apply (hrule.execAll (fun s hs => hrule.exec (p.all_assigned s hs)) .fresh).imp
  rintro ⟨⟨⟨name, bindings⟩, outer⟩, log⟩ h
  have hname : name = "global" := h.current.name
  have houter : outer = [] := List.forall₂_nil_left_iff.mp h.outer
  exact ⟨bindings, by rw [hname, houter]⟩

/-- Under other names, no two of which are one and among which the console keeps its own, a program emits the same
records and ends alike, with an error of the same code at the same place if it ends with one. The global frame that it
leaves is the same but for the names. -/
theorem names_only_identify {ρ : String → String} (hρ : Function.Injective ρ) (hconsole : ρ "console" = "console")
    (limit : Nat) (p : Program) :
    Outcome.Match SameButNames
      (fun a b => Event.records b.log = Event.records a.log ∧
        ∃ bindings, a.scope = ⟨⟨"global", bindings⟩, []⟩ ∧
          b.scope = ⟨⟨"global", bindings.map (·.rename ρ)⟩, []⟩)
      (p.exec limit .fresh) ((p.rename ρ).exec limit .fresh) := by
  have hrun : Mirrors ρ (p.exec limit) ((p.rename ρ).exec limit) :=
    execAll_rename fun s _ => s.exec_rename hρ hconsole
  have hfresh : State.fresh.rename ρ = .fresh := by
    simp [State.rename, State.fresh, Scope.rename, Scope.fresh, Frame.rename, Frame.empty]
  have hstart := hrun .fresh
  rw [hfresh] at hstart
  have hends := hstart.leaves (p.leaves_global limit) ((p.rename ρ).leaves_global limit)
  apply hends.imp fun _ _ hf => hf
  rintro a _ ⟨rfl, ⟨bindings, ha⟩, -⟩
  refine ⟨Event.records_rename ρ a.log, bindings, ha, ?_⟩
  rw [State.rename, ha]
  rfl

/-- Two variables that swap their names, one of which hides the other for a while. -/
theorem names_only_identify_swapped :
    ∃ (ρ : String → String) (p : Program) (a b : State), Function.Injective ρ ∧ ρ "console" = "console" ∧
      ρ "x" = "y" ∧ ρ "y" = "x" ∧ p.exec 1 .fresh = .finished a ∧ (p.rename ρ).exec 1 .fresh = .finished b ∧
      Event.records a.log = [⟨.info, "true"⟩, ⟨.info, "false"⟩] ∧ Event.records b.log = Event.records a.log := by
  let ρ : String → String := Equiv.swap "x" "y"
  let log (name : String) : Stmt :=
    .expression .none (.call .none (.identifier .none "console") "log" [.identifier .none name])
  let yes : Option Expr := some (.literal .none (.boolean true))
  let no : Option Expr := some (.literal .none (.boolean false))
  let p : Program := ⟨[.declare .none "x" true no,
    .block (.mk .none [.declare .none "y" false yes, .assign .none ⟨.none, "x"⟩ (.identifier .none "y") .assign,
      .declare .none "x" true no, log "y", log "x"])], .null⟩
  have hconsole : ρ "console" = "console" := Equiv.swap_apply_of_ne_of_ne (by decide) (by decide)
  have hmatch := names_only_identify (Equiv.injective (Equiv.swap "x" "y")) hconsole 1 p
  obtain ⟨a, ha⟩ : ∃ a, p.exec 1 .fresh = .finished a := ⟨_, rfl⟩
  obtain ⟨b, hb⟩ : ∃ b, (p.rename ρ).exec 1 .fresh = .finished b := by
    generalize (p.rename ρ).exec 1 .fresh = o at hmatch ⊢
    rw [ha] at hmatch
    cases hmatch
    exact ⟨_, rfl⟩
  rw [ha, hb] at hmatch
  cases hmatch with
  | finished h =>
    refine ⟨ρ, p, a, b, Equiv.injective _, hconsole, Equiv.swap_apply_left _ _, Equiv.swap_apply_right _ _, ha, hb,
      ?_, h.1⟩
    cases ha
    rfl

end TreeScript
