/-
The nodes of a tree as lists: the statements of a program at any depth, and the expressions that
stand in them. What is said of a node alone is then said of a whole program by quantifying over its
nodes. `Sound` is such a condition: it holds of the nodes of every program that a document gives.

Trees nest through lists and options. The two induction principles hide that: a node may use the
hypothesis for each member of the lists that it holds.
-/
import Mathlib.Tactic
import TreeScript.Error
import TreeScript.Tree.Basic

namespace TreeScript

/-! ## Induction over expressions -/

section

-- The linter does not see the hypotheses that are used through the other theorems of a mutual block.
set_option linter.unusedSectionVars false

variable {motive : Expr → Prop} (literal : ∀ span l, motive (.literal span l))
  (identifier : ∀ span name, motive (.identifier span name))
  (binary : ∀ span left op right, motive left → motive right → motive (.binary span left op right))
  (unary : ∀ span op operand, motive operand → motive (.unary span op operand))
  (call : ∀ span receiver method args, motive receiver → (∀ e ∈ args, motive e) →
    motive (.call span receiver method args))
  (stray : ∀ s, motive (.stray s))

include literal identifier binary unary call stray

mutual

/-- Induction over an expression; a stray statement is a leaf. -/
@[elab_as_elim]
theorem Expr.induction : ∀ e, motive e
  | .literal span l => literal span l
  | .identifier span name => identifier span name
  | .binary span left op right => binary span left op right (Expr.induction left) (Expr.induction right)
  | .unary span op operand => unary span op operand (Expr.induction operand)
  | .call span receiver method args =>
    call span receiver method args (Expr.induction receiver) (Expr.induction_mem args)
  | .stray s => stray s

theorem Expr.induction_mem : ∀ args : List Expr, ∀ e ∈ args, motive e
  | [] => by simp
  | e :: rest => List.forall_mem_cons.mpr ⟨Expr.induction e, Expr.induction_mem rest⟩

end

end

/-! ## Induction over statements -/

section

set_option linter.unusedSectionVars false

variable {motive : Stmt → Prop}
  (declare : ∀ span name isMutable init, motive (.declare span name isMutable init))
  (assign : ∀ span target value op, motive (.assign span target value op))
  (update : ∀ span target op, motive (.update span target op))
  (output : ∀ span level argument, motive (.output span level argument))
  (expression : ∀ span e, motive (.expression span e))
  (block : ∀ body : Block, (∀ s ∈ body.statements, motive s) → motive (.block body))
  (forLoop : ∀ span init test update (body : Block), (∀ s ∈ init, motive s) → (∀ s ∈ update, motive s) →
    (∀ s ∈ body.statements, motive s) → motive (.forLoop span init test update body))
  (whileLoop : ∀ span test (body : Block), (∀ s ∈ body.statements, motive s) → motive (.whileLoop span test body))
  (ifElse : ∀ span test (thenBranch : Block) elseBranch, (∀ s ∈ thenBranch.statements, motive s) →
    (∀ s ∈ elseBranch, motive s) → (∀ body, .block body ∈ elseBranch → ∀ s ∈ body.statements, motive s) →
    motive (.ifElse span test thenBranch elseBranch))
  (stray : ∀ e, motive (.stray e))

include declare assign update output expression block forLoop whileLoop ifElse stray

mutual

/-- Induction over a statement and the statements inside of it. The other branch of a condition comes with two
hypotheses, since one that is a block runs as its statements do. -/
@[elab_as_elim]
theorem Stmt.induction : ∀ s, motive s
  | .declare span name isMutable init => declare span name isMutable init
  | .assign span target value op => assign span target value op
  | .update span target op => update span target op
  | .output span level argument => output span level argument
  | .expression span e => expression span e
  | .block body => block body (Block.induction_mem body)
  | .forLoop span init test update body =>
    forLoop span init test update body (Stmt.induction_option init) (Stmt.induction_option update)
      (Block.induction_mem body)
  | .whileLoop span test body => whileLoop span test body (Block.induction_mem body)
  | .ifElse span test thenBranch elseBranch =>
    ifElse span test thenBranch elseBranch (Block.induction_mem thenBranch) (Stmt.induction_option elseBranch)
      (Stmt.induction_else elseBranch)
  | .stray e => stray e

theorem Block.induction_mem : ∀ body : Block, ∀ s ∈ body.statements, motive s
  | .mk _ statements => Stmt.induction_mem statements

theorem Stmt.induction_mem : ∀ statements : List Stmt, ∀ s ∈ statements, motive s
  | [] => by simp
  | s :: rest => List.forall_mem_cons.mpr ⟨Stmt.induction s, Stmt.induction_mem rest⟩

theorem Stmt.induction_option : ∀ s? : Option Stmt, ∀ s ∈ s?, motive s
  | none => by simp
  | some s => by
    rintro t ⟨⟩
    exact Stmt.induction s

theorem Stmt.induction_else : ∀ (s? : Option Stmt) (body : Block), .block body ∈ s? → ∀ s ∈ body.statements, motive s
  | some (.block body) => by
    rintro _ ⟨⟩
    exact Block.induction_mem body
  | none | some (.declare ..) | some (.assign ..) | some (.update ..) | some (.output ..) | some (.expression ..)
  | some (.forLoop ..) | some (.whileLoop ..) | some (.ifElse ..) | some (.stray _) => by rintro _ ⟨⟩

end

end

/-! ## The nodes of an expression -/

mutual

/-- An expression and all that are evaluated as parts of it; the receiver of a call is not. -/
def Expr.nodes : Expr → List Expr
  | .literal span l => [.literal span l]
  | .identifier span name => [.identifier span name]
  | .binary span left op right => .binary span left op right :: (left.nodes ++ right.nodes)
  | .unary span op operand => .unary span op operand :: operand.nodes
  | .call span receiver method args => .call span receiver method args :: argNodes args
  | .stray s => [.stray s]

def argNodes : List Expr → List Expr
  | [] => []
  | e :: rest => e.nodes ++ argNodes rest

end

attribute [local simp] Expr.nodes argNodes

theorem forall_argNodes {P : Expr → Prop} {args : List Expr} :
    (∀ n ∈ argNodes args, P n) ↔ ∀ e ∈ args, ∀ n ∈ e.nodes, P n := by
  induction args with
  | nil => simp
  | cons e rest ih => rw [argNodes, List.forall_mem_append, List.forall_mem_cons, ih]

/-- An expression node whose operator, literal, names and receiver are what they should be. The receiver
of a call is a name at the place of the call. -/
def Expr.SoundNode : Expr → Prop
  | .literal _ l => l.WellFormed
  | .identifier _ name => name ≠ ""
  | .binary _ _ op _ => op.isBinary
  | .unary _ op _ => op.isUnary
  | .call span receiver method _ => (∃ name, receiver = .identifier span name ∧ name ≠ "") ∧ method ≠ ""
  | .stray _ => False

/-- An expression all of whose nodes are sound. -/
def Expr.Sound (e : Expr) : Prop := ∀ n ∈ e.nodes, n.SoundNode

namespace Expr

theorem sound_literal {span : Span} {l : Literal} : (literal span l).Sound ↔ l.WellFormed := by
  simp [Sound, SoundNode]

theorem sound_identifier {span : Span} {name : String} : (identifier span name).Sound ↔ name ≠ "" := by
  simp [Sound, SoundNode]

theorem sound_binary {span : Span} {left right : Expr} {op : Token} :
    (binary span left op right).Sound ↔ op.isBinary ∧ left.Sound ∧ right.Sound := by
  unfold Sound
  rw [nodes, List.forall_mem_cons, List.forall_mem_append]
  rfl

theorem sound_unary {span : Span} {operand : Expr} {op : Token} :
    (unary span op operand).Sound ↔ op.isUnary ∧ operand.Sound := by
  unfold Sound
  rw [nodes, List.forall_mem_cons]
  rfl

theorem sound_call {span : Span} {receiver : Expr} {method : String} {args : List Expr} :
    (call span receiver method args).Sound ↔
      ((∃ name, receiver = .identifier span name ∧ name ≠ "") ∧ method ≠ "") ∧ ∀ e ∈ args, e.Sound := by
  unfold Sound
  rw [nodes, List.forall_mem_cons, forall_argNodes]
  rfl

/-- The nodes of a sound expression are sound. -/
theorem Sound.forall_nodes {e : Expr} (h : e.Sound) : ∀ n ∈ e.nodes, n.Sound := by
  induction e using Expr.induction with
  | binary span left op right ihLeft ihRight =>
    obtain ⟨-, hleft, hright⟩ := sound_binary.mp h
    rw [Expr.nodes, List.forall_mem_cons, List.forall_mem_append]
    exact ⟨h, ihLeft hleft, ihRight hright⟩
  | unary span op operand ih =>
    obtain ⟨-, hoperand⟩ := sound_unary.mp h
    rw [Expr.nodes, List.forall_mem_cons]
    exact ⟨h, ih hoperand⟩
  | call span receiver method args _ ih =>
    obtain ⟨-, hargs⟩ := sound_call.mp h
    rw [Expr.nodes, List.forall_mem_cons, forall_argNodes]
    refine ⟨h, ?_⟩
    intro e he
    exact ih e he (hargs e he)
  | _ =>
    -- The other expressions have no parts.
    intro n hn
    rw [Expr.nodes, List.mem_singleton] at hn
    rwa [hn]

end Expr

/-! ## The nodes of a statement -/

/-- The expressions that stand in a statement itself, and not in a statement inside of it. -/
def Stmt.exprs : Stmt → List Expr
  | .declare _ _ _ init => init.toList
  | .assign _ _ value _ => [value]
  | .output _ _ argument => [argument]
  | .expression _ e => [e]
  | .forLoop _ _ test _ _ => test.toList
  | .whileLoop _ test _ => [test]
  | .ifElse _ test _ _ => [test]
  | _ => []

/-- The condition that a statement tests, with the kind of statement that it is for. -/
def Stmt.condition? : Stmt → Option (Branching × Expr)
  | .forLoop _ _ test _ _ => test.map (.forLoop, ·)
  | .whileLoop _ test _ => some (.whileLoop, test)
  | .ifElse _ test _ _ => some (.ifStatement, test)
  | _ => none

theorem Stmt.mem_exprs_of_condition? {s : Stmt} {statement : Branching} {test : Expr}
    (h : s.condition? = some (statement, test)) : test ∈ s.exprs := by
  cases s with
  | forLoop span init test? update body =>
    obtain ⟨e, rfl, he⟩ := Option.map_eq_some_iff.mp h
    cases he
    exact List.mem_singleton_self _
  | whileLoop span test' body =>
    cases h
    exact List.mem_singleton_self _
  | ifElse span test' thenBranch elseBranch =>
    cases h
    exact List.mem_singleton_self _
  | _ => cases h

mutual

/-- A statement and all statements inside of it. -/
def Stmt.nodes : Stmt → List Stmt
  | .declare span name isMutable init => [.declare span name isMutable init]
  | .assign span target value op => [.assign span target value op]
  | .update span target op => [.update span target op]
  | .output span level argument => [.output span level argument]
  | .expression span e => [.expression span e]
  | .block body => .block body :: body.nodes
  | .forLoop span init test update body =>
    .forLoop span init test update body :: (optionalNodes init ++ optionalNodes update ++ body.nodes)
  | .whileLoop span test body => .whileLoop span test body :: body.nodes
  | .ifElse span test thenBranch elseBranch =>
    .ifElse span test thenBranch elseBranch :: (thenBranch.nodes ++ optionalNodes elseBranch)
  | .stray e => [.stray e]

def Block.nodes : Block → List Stmt
  | .mk _ statements => statementNodes statements

def statementNodes : List Stmt → List Stmt
  | [] => []
  | s :: rest => s.nodes ++ statementNodes rest

def optionalNodes : Option Stmt → List Stmt
  | none => []
  | some s => s.nodes

end

attribute [local simp] Stmt.nodes Block.nodes statementNodes optionalNodes

/-- The statements of a program, at any depth. -/
def Program.nodes (p : Program) : List Stmt := statementNodes p.statements

/-- A condition on nodes, of all nodes of a statement. -/
def Stmt.All (P : Stmt → Prop) (s : Stmt) : Prop := ∀ n ∈ s.nodes, P n

section

variable {P : Stmt → Prop}

theorem forall_statementNodes {statements : List Stmt} :
    (∀ n ∈ statementNodes statements, P n) ↔ ∀ s ∈ statements, s.All P := by
  induction statements with
  | nil => simp
  | cons s rest ih => rw [statementNodes, List.forall_mem_append, List.forall_mem_cons, ih, Stmt.All]

theorem forall_blockNodes {body : Block} : (∀ n ∈ body.nodes, P n) ↔ ∀ s ∈ body.statements, s.All P := by
  cases body with
  | mk span statements => rw [Block.nodes, forall_statementNodes, Block.statements]

theorem forall_optionalNodes {s? : Option Stmt} : (∀ n ∈ optionalNodes s?, P n) ↔ ∀ s ∈ s?, s.All P := by
  cases s? <;> simp [Stmt.All]

namespace Stmt

theorem all_block {body : Block} : (block body).All P ↔ P (.block body) ∧ ∀ s ∈ body.statements, s.All P := by
  rw [All, nodes, List.forall_mem_cons, forall_blockNodes]

theorem all_forLoop {span : Span} {init : Option Stmt} {test : Option Expr} {update : Option Stmt} {body : Block} :
    (forLoop span init test update body).All P ↔ P (.forLoop span init test update body) ∧
      ((∀ s ∈ init, s.All P) ∧ ∀ s ∈ update, s.All P) ∧ ∀ s ∈ body.statements, s.All P := by
  rw [All, nodes, List.forall_mem_cons, List.forall_mem_append, List.forall_mem_append, forall_optionalNodes,
    forall_optionalNodes, forall_blockNodes]

theorem all_whileLoop {span : Span} {test : Expr} {body : Block} :
    (whileLoop span test body).All P ↔ P (.whileLoop span test body) ∧ ∀ s ∈ body.statements, s.All P := by
  rw [All, nodes, List.forall_mem_cons, forall_blockNodes]

theorem all_ifElse {span : Span} {test : Expr} {thenBranch : Block} {elseBranch : Option Stmt} :
    (ifElse span test thenBranch elseBranch).All P ↔ P (.ifElse span test thenBranch elseBranch) ∧
      (∀ s ∈ thenBranch.statements, s.All P) ∧ ∀ s ∈ elseBranch, s.All P := by
  rw [All, nodes, List.forall_mem_cons, List.forall_mem_append, forall_blockNodes, forall_optionalNodes]

/-- A statement is one of its nodes. -/
theorem mem_nodes (s : Stmt) : s ∈ s.nodes := by
  cases s <;> simp

theorem All.self {s : Stmt} (h : s.All P) : P s := h s s.mem_nodes

/-- The nodes of a node are nodes. -/
theorem All.all {s : Stmt} (h : s.All P) : s.All (·.All P) := by
  induction s using Stmt.induction with
  | block body ih =>
    obtain ⟨-, hbody⟩ := all_block.mp h
    rw [all_block]
    constructor
    · exact h
    · intro s hs
      exact ih s hs (hbody s hs)
  | forLoop span init test update body ihInit ihUpdate ihBody =>
    obtain ⟨-, ⟨hinit, hupdate⟩, hbody⟩ := all_forLoop.mp h
    rw [all_forLoop]
    refine ⟨h, ⟨?_, ?_⟩, ?_⟩
    · intro s hs
      exact ihInit s hs (hinit s hs)
    · intro s hs
      exact ihUpdate s hs (hupdate s hs)
    · intro s hs
      exact ihBody s hs (hbody s hs)
  | whileLoop span test body ih =>
    obtain ⟨-, hbody⟩ := all_whileLoop.mp h
    rw [all_whileLoop]
    constructor
    · exact h
    · intro s hs
      exact ih s hs (hbody s hs)
  | ifElse span test thenBranch elseBranch ihThen ihElse _ =>
    obtain ⟨-, hthen, helse⟩ := all_ifElse.mp h
    rw [all_ifElse]
    refine ⟨h, ?_, ?_⟩
    · intro s hs
      exact ihThen s hs (hthen s hs)
    · intro s hs
      exact ihElse s hs (helse s hs)
  | _ =>
    -- A statement without statements inside of it is its only node.
    intro n hn
    rw [nodes, List.mem_singleton] at hn
    rwa [hn]

end Stmt

end

/-! ## Sound statements -/

/-- A statement node whose names, operator, severity and expressions are what they should be. The target
of an assignment is at the place of the assignment. -/
def Stmt.SoundNode (s : Stmt) : Prop :=
  (∀ e ∈ s.exprs, e.Sound) ∧
  match s with
  | .declare _ name _ _ => name ≠ ""
  | .assign span target _ op => target.span = span ∧ target.name ≠ "" ∧ op.isAssignment
  | .update span target op => target.span = span ∧ target.name ≠ "" ∧ op.isUpdate
  | .output _ level _ => level.WellFormed
  | .stray _ => False
  | _ => True

/-- A statement all of whose nodes are sound. -/
abbrev Stmt.Sound (s : Stmt) : Prop := s.All SoundNode

namespace Stmt

attribute [local simp] All SoundNode exprs

theorem sound_declare {span : Span} {name : String} {isMutable : Bool} {init : Option Expr} :
    (declare span name isMutable init).Sound ↔ (∀ e ∈ init, e.Sound) ∧ name ≠ "" := by
  simp

theorem sound_assign {span : Span} {target : Target} {value : Expr} {op : Token} :
    (assign span target value op).Sound ↔
      value.Sound ∧ target.span = span ∧ target.name ≠ "" ∧ op.isAssignment := by
  simp

theorem sound_update {span : Span} {target : Target} {op : Token} :
    (update span target op).Sound ↔ target.span = span ∧ target.name ≠ "" ∧ op.isUpdate := by
  simp

theorem sound_output {span : Span} {level : Level} {argument : Expr} :
    (output span level argument).Sound ↔ argument.Sound ∧ level.WellFormed := by
  simp

theorem sound_expression {span : Span} {e : Expr} : (expression span e).Sound ↔ e.Sound := by
  simp

theorem sound_block {body : Block} : (block body).Sound ↔ ∀ s ∈ body.statements, s.Sound := by
  refine all_block.trans (and_iff_right ?_)
  simp

theorem sound_forLoop {span : Span} {init : Option Stmt} {test : Option Expr} {update : Option Stmt} {body : Block} :
    (forLoop span init test update body).Sound ↔ (∀ e ∈ test, e.Sound) ∧
      ((∀ s ∈ init, s.Sound) ∧ ∀ s ∈ update, s.Sound) ∧ ∀ s ∈ body.statements, s.Sound := by
  refine all_forLoop.trans (and_congr_left' ?_)
  simp

theorem sound_whileLoop {span : Span} {test : Expr} {body : Block} :
    (whileLoop span test body).Sound ↔ test.Sound ∧ ∀ s ∈ body.statements, s.Sound := by
  refine all_whileLoop.trans (and_congr_left' ?_)
  simp

theorem sound_ifElse {span : Span} {test : Expr} {thenBranch : Block} {elseBranch : Option Stmt} :
    (ifElse span test thenBranch elseBranch).Sound ↔ test.Sound ∧
      (∀ s ∈ thenBranch.statements, s.Sound) ∧ ∀ s ∈ elseBranch, s.Sound := by
  refine all_ifElse.trans (and_congr_left' ?_)
  simp

end Stmt

/-! ### Sound trees are well formed -/

theorem argsWellFormed_iff {args : List Expr} : argsWellFormed args ↔ ∀ e ∈ args, e.WellFormed := by
  induction args with
  | nil => simp [argsWellFormed]
  | cons e rest ih => rw [argsWellFormed, ih, List.forall_mem_cons]

theorem statementsWellFormed_iff {statements : List Stmt} :
    statementsWellFormed statements ↔ ∀ s ∈ statements, s.WellFormed := by
  induction statements with
  | nil => simp [statementsWellFormed]
  | cons s rest ih => rw [statementsWellFormed, ih, List.forall_mem_cons]

theorem optionalExprWellFormed_iff {e? : Option Expr} : optionalExprWellFormed e? ↔ ∀ e ∈ e?, e.WellFormed := by
  cases e? <;> simp [optionalExprWellFormed]

theorem optionalStmtWellFormed_iff {s? : Option Stmt} : optionalStmtWellFormed s? ↔ ∀ s ∈ s?, s.WellFormed := by
  cases s? <;> simp [optionalStmtWellFormed]

theorem Block.wellFormed_iff {body : Block} : body.WellFormed ↔ ∀ s ∈ body.statements, s.WellFormed := by
  cases body with
  | mk span statements => rw [WellFormed, statementsWellFormed_iff, Block.statements]

theorem Expr.Sound.wellFormed {e : Expr} (h : e.Sound) : e.WellFormed := by
  induction e using Expr.induction with
  | literal span l =>
    rw [WellFormed]
    exact sound_literal.mp h
  | identifier span name =>
    rw [WellFormed]
    exact sound_identifier.mp h
  | binary span left op right ihLeft ihRight =>
    obtain ⟨hop, hleft, hright⟩ := sound_binary.mp h
    rw [WellFormed]
    exact ⟨ihLeft hleft, hop, ihRight hright⟩
  | unary span op operand ih =>
    obtain ⟨hop, hoperand⟩ := sound_unary.mp h
    rw [WellFormed]
    exact ⟨hop, ih hoperand⟩
  | call span receiver method args _ ih =>
    obtain ⟨⟨⟨name, rfl, hname⟩, hmethod⟩, hargs⟩ := sound_call.mp h
    rw [WellFormed, argsWellFormed_iff]
    refine ⟨hname, hmethod, ?_⟩
    intro e he
    exact ih e he (hargs e he)
  | stray s => exact absurd h (by simp [Sound, SoundNode])

theorem Stmt.Sound.exprs {s : Stmt} (h : s.Sound) : ∀ e ∈ s.exprs, e.WellFormed := by
  intro e he
  exact (h.self.1 e he).wellFormed

theorem Stmt.Sound.wellFormed {s : Stmt} (h : s.Sound) : s.WellFormed := by
  induction s using Stmt.induction with
  | declare span name isMutable init =>
    rw [WellFormed, optionalExprWellFormed_iff]
    refine ⟨h.self.2, ?_⟩
    intro e he
    exact h.exprs e (Option.mem_toList.mpr he)
  | assign span target value op =>
    obtain ⟨-, -, htarget, hop⟩ := h.self
    rw [WellFormed]
    exact ⟨htarget, h.exprs value (List.mem_singleton_self _), hop⟩
  | update span target op =>
    obtain ⟨-, -, htarget, hop⟩ := h.self
    rw [WellFormed]
    exact ⟨htarget, hop⟩
  | output span level argument =>
    rw [WellFormed]
    exact ⟨h.self.2, h.exprs argument (List.mem_singleton_self _)⟩
  | expression span e =>
    rw [WellFormed]
    exact h.exprs e (List.mem_singleton_self _)
  | block body ih =>
    obtain ⟨-, hbody⟩ := all_block.mp h
    rw [WellFormed, Block.wellFormed_iff]
    intro s hs
    exact ih s hs (hbody s hs)
  | forLoop span init test update body ihInit ihUpdate ihBody =>
    obtain ⟨-, ⟨hinit, hupdate⟩, hbody⟩ := all_forLoop.mp h
    rw [WellFormed, optionalStmtWellFormed_iff, optionalExprWellFormed_iff, optionalStmtWellFormed_iff,
      Block.wellFormed_iff]
    refine ⟨?_, ?_, ?_, ?_⟩
    · intro s hs
      exact ihInit s hs (hinit s hs)
    · intro e he
      exact h.exprs e (Option.mem_toList.mpr he)
    · intro s hs
      exact ihUpdate s hs (hupdate s hs)
    · intro s hs
      exact ihBody s hs (hbody s hs)
  | whileLoop span test body ih =>
    obtain ⟨-, hbody⟩ := all_whileLoop.mp h
    rw [WellFormed, Block.wellFormed_iff]
    refine ⟨h.exprs test (List.mem_singleton_self _), ?_⟩
    intro s hs
    exact ih s hs (hbody s hs)
  | ifElse span test thenBranch elseBranch ihThen ihElse _ =>
    obtain ⟨-, hthen, helse⟩ := all_ifElse.mp h
    rw [WellFormed, Block.wellFormed_iff, optionalStmtWellFormed_iff]
    refine ⟨h.exprs test (List.mem_singleton_self _), ?_, ?_⟩
    · intro s hs
      exact ihThen s hs (hthen s hs)
    · intro s hs
      exact ihElse s hs (helse s hs)
  | stray e => exact h.self.2.elim

/-- The name that a statement declares in the frame it stands in: its own if it is a declaration, or that
of the statement which a condition has as its other branch. -/
def Stmt.declared? : Stmt → Option String
  | .declare _ name _ _ => some name
  | .ifElse _ _ _ (some s) => s.declared?
  | _ => none

/-- A loop that declares no name as it goes on. -/
def Stmt.SteadyLoop : Stmt → Prop
  | .forLoop _ _ _ s? _ => s?.bind declared? = none
  | _ => True

/-- A condition that declares no name in its other branch. -/
def Stmt.SteadyBranch : Stmt → Prop
  | .ifElse _ _ _ s? => s?.bind declared? = none
  | _ => True

end TreeScript
