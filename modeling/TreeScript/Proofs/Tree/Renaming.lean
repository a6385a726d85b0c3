/-
Other names for the variables of a program. A renaming is a map from names to names; it is applied wherever a name
stands for a variable, where one is declared, read or assigned to and at the receivers of calls. Methods, texts and
places stay, and so do the kinds of all nodes.
-/
import TreeScript.Proofs.Tree.Nodes

namespace TreeScript

variable (ρ : String → String)

def Target.rename (target : Target) : Target := { target with name := ρ target.name }

mutual

/-- The expression with other names for its variables. -/
def Expr.rename : Expr → Expr
  | .literal span l => .literal span l
  | .identifier span name => .identifier span (ρ name)
  | .binary span left op right => .binary span (left.rename) op (right.rename)
  | .unary span op operand => .unary span op operand.rename
  | .call span receiver method args => .call span receiver.rename method (renameArgs args)
  | .stray s => .stray s.rename

def renameArgs : List Expr → List Expr
  | [] => []
  | e :: rest => e.rename :: renameArgs rest

def renameOptional : Option Expr → Option Expr
  | none => none
  | some e => some e.rename

/-- The statement with other names for the variables in it. -/
def Stmt.rename : Stmt → Stmt
  | .declare span name isMutable init => .declare span (ρ name) isMutable (renameOptional init)
  | .assign span target value op => .assign span (target.rename ρ) value.rename op
  | .update span target op => .update span (target.rename ρ) op
  | .output span level argument => .output span level argument.rename
  | .expression span e => .expression span e.rename
  | .block body => .block body.rename
  | .forLoop span init test update body =>
    .forLoop span (renameOptionalStmt init) (renameOptional test) (renameOptionalStmt update) body.rename
  | .whileLoop span test body => .whileLoop span test.rename body.rename
  | .ifElse span test thenBranch elseBranch =>
    .ifElse span test.rename thenBranch.rename (renameOptionalStmt elseBranch)
  | .stray e => .stray e.rename

def Block.rename : Block → Block
  | .mk span statements => .mk span (renameAll statements)

def renameAll : List Stmt → List Stmt
  | [] => []
  | s :: rest => s.rename :: renameAll rest

def renameOptionalStmt : Option Stmt → Option Stmt
  | none => none
  | some s => some s.rename

end

def Program.rename (p : Program) : Program := { p with statements := renameAll ρ p.statements }

/-! ## What a renaming leaves alone -/

mutual

theorem Expr.span_rename : ∀ e : Expr, (e.rename ρ).span = e.span
  | .literal .. | .identifier .. | .binary .. | .unary .. | .call .. => by simp [Expr.rename, Expr.span]
  | .stray s => by simp [Expr.rename, Expr.span, Stmt.span_rename s]

theorem Stmt.span_rename : ∀ s : Stmt, (s.rename ρ).span = s.span
  | .declare .. | .assign .. | .update .. | .output .. | .expression .. | .forLoop .. | .whileLoop ..
  | .ifElse .. => by simp [Stmt.rename, Stmt.span]
  | .block (.mk ..) => by simp [Stmt.rename, Block.rename, Stmt.span, Block.span]
  | .stray e => by simp [Stmt.rename, Stmt.span, Expr.span_rename e]

end

mutual

theorem Expr.kindName_rename : ∀ e : Expr, (e.rename ρ).kindName = e.kindName
  | .literal .. | .identifier .. | .binary .. | .unary .. | .call .. => by simp [Expr.rename, Expr.kindName]
  | .stray s => by simp [Expr.rename, Expr.kindName, Stmt.kindName_rename s]

theorem Stmt.kindName_rename : ∀ s : Stmt, (s.rename ρ).kindName = s.kindName
  | .declare .. | .assign .. | .update .. | .output .. | .expression .. | .block .. | .forLoop .. | .whileLoop ..
  | .ifElse .. => by simp [Stmt.rename, Stmt.kindName]
  | .stray e => by simp [Stmt.rename, Stmt.kindName, Expr.kindName_rename e]

end

end TreeScript
