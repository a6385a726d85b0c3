/-
The names that stand in a tree: those that a statement may assign to, and those that it mentions in any way,
as a variable that is read, declared or assigned to or as the receiver of a call. Both are lists that follow
from the nodes of the tree.
-/
import TreeScript.Proofs.Tree.Nodes

namespace TreeScript

/-! ## Names that are assigned to -/

namespace Stmt

/-- The name that a node itself assigns to. -/
def target? : Stmt → Option String
  | .assign _ target _ _ => some target.name
  | .update _ target _ => some target.name
  | _ => none

/-- The names that assignments and updates inside a statement are aimed at. -/
def assigned (s : Stmt) : List String := s.nodes.filterMap target?

theorem all_assigned (s : Stmt) : s.All fun n => ∀ name, n.target? = some name → name ∈ s.assigned := by
  intro n hn name hname
  exact List.mem_filterMap.mpr ⟨n, hn, hname⟩

end Stmt

/-- The names that are assigned to somewhere in a program. -/
def Program.assigned (p : Program) : List String := p.nodes.filterMap Stmt.target?

theorem Program.all_assigned (p : Program) :
    ∀ s ∈ p.statements, s.All fun n => ∀ name, n.target? = some name → name ∈ p.assigned := by
  have hnodes : ∀ n ∈ p.nodes, ∀ name, n.target? = some name → name ∈ p.assigned := fun n hn name hname =>
    List.mem_filterMap.mpr ⟨n, hn, hname⟩
  exact forall_statementNodes.mp hnodes

/-! ## Names that are mentioned -/

namespace Expr

/-- The name that a node itself mentions: of a variable, or of the receiver of a call. -/
def ownName? : Expr → Option String
  | .identifier _ name => some name
  | .call _ (.identifier _ name) _ _ => some name
  | _ => none

/-- The names that an expression mentions. -/
def names (e : Expr) : List String := e.nodes.filterMap ownName?

theorem names_binary (span : Span) (left : Expr) (op : Token) (right : Expr) :
    (binary span left op right).names = left.names ++ right.names := by
  rw [names, nodes, List.filterMap_cons_none rfl, List.filterMap_append]
  rfl

theorem names_unary (span : Span) (op : Token) (operand : Expr) : (unary span op operand).names = operand.names := by
  rw [names, nodes, List.filterMap_cons_none rfl]
  rfl

theorem names_args (args : List Expr) : (argNodes args).filterMap ownName? = args.flatMap names := by
  induction args with
  | nil => rfl
  | cons e rest ih => rw [argNodes, List.filterMap_append, ih, List.flatMap_cons, names]

/-- A call mentions its receiver and what its arguments mention. -/
theorem names_call (span receiverSpan : Span) (object method : String) (args : List Expr) :
    (call span (.identifier receiverSpan object) method args).names = object :: args.flatMap names := by
  rw [names, nodes, List.filterMap_cons, names_args]
  rfl

end Expr

namespace Stmt

/-- The names that a node mentions by itself, and not in a statement inside of it. -/
def ownNames (s : Stmt) : List String :=
  (match s with
    | .declare _ name _ _ => [name]
    | .assign _ target _ _ => [target.name]
    | .update _ target _ => [target.name]
    | _ => []) ++ s.exprs.flatMap Expr.names

end Stmt

/-- The names that statements mention. -/
def mentioned (statements : List Stmt) : List String := (statementNodes statements).flatMap Stmt.ownNames

end TreeScript
