/-
What the readers of a node complain of. Each of them complains at the position of the node, or passes on what the
reading of a part complains of: of a node under one of its keys, or of a list of nodes. Where it lacks a text to
complain with, it ends in an error that nobody reports. The readers are taken one after the other, in the order of the
kinds of nodes; which keys a kind has parts under is said in one place for all of them.
-/
import TreeScript.Proofs.Tree.Reading

namespace TreeScript

/-! ## Computations that complain -/

/-- Every error that a computation ends in satisfies a condition. -/
def Complains {α : Type} (P : Error → Prop) (x : Except Error α) : Prop := ∀ e, x = .error e → P e

namespace Complains

variable {α β : Type} {P : Error → Prop}

theorem ok (a : α) : Complains P (.ok a) := by
  rintro e ⟨⟩

theorem error {e : Error} (h : P e) : Complains P (.error e : Except Error α) := by
  rintro e' ⟨⟩
  exact h

theorem bind_of_ok {x : Except Error α} {f : α → Except Error β} (hx : Complains P x)
    (hf : ∀ a, x = .ok a → Complains P (f a)) : Complains P (x >>= f) := by
  cases x with
  | error e => exact .error (hx e rfl)
  | ok a => exact hf a rfl

theorem bind {x : Except Error α} {f : α → Except Error β} (hx : Complains P x) (hf : ∀ a, Complains P (f a)) :
    Complains P (x >>= f) :=
  hx.bind_of_ok fun a _ => hf a

theorem map {x : Except Error α} {f : α → β} (hx : Complains P x) : Complains P (x.map f) := by
  cases x with
  | error e => exact .error (hx e rfl)
  | ok a => exact .ok (f a)

theorem bind_pure {x : Except Error α} {f : α → β} (hx : Complains P x) :
    Complains P (x >>= fun a => pure (f a)) :=
  hx.bind fun a => .ok (f a)

theorem mapM {f : α → Except Error β} {l : List α} (h : ∀ a ∈ l, Complains P (f a)) : Complains P (l.mapM f) := by
  induction l with
  | nil => exact .ok []
  | cons a rest ih =>
    rw [List.forall_mem_cons] at h
    rw [List.mapM_cons]
    exact h.1.bind fun b => (ih h.2).bind_pure

end Complains

namespace Reading

/-- Every error of a reading as a statement, or as an expression, satisfies a condition. -/
def Complains (P : Error → Prop) (r : Reading) : Position → Prop
  | .statement => TreeScript.Complains P r.statement
  | .expression => TreeScript.Complains P r.expression

/-- A reading ends in an error as a statement, or as an expression. -/
def Fails (r : Reading) (e : Error) : Position → Prop
  | .statement => r.statement = .error e
  | .expression => r.expression = .error e

/-- A reading gives a statement, or an expression. -/
def Loads (r : Reading) : Position → Prop
  | .statement => ∃ s, r.statement = .ok s
  | .expression => ∃ e, r.expression = .ok e

theorem Complains.of_fails {P : Error → Prop} {r : Reading} {e : Error} {place : Position} (h : r.Complains P place)
    (he : r.Fails e place) : P e := by
  cases place <;> exact h e he

theorem Complains.imp {P Q : Error → Prop} {r : Reading} {place : Position} (h : r.Complains P place)
    (hPQ : ∀ e, P e → Q e) : r.Complains Q place := by
  cases place <;> exact fun e he => hPQ e (h e he)

/-- What loads has nothing to complain of. -/
theorem Loads.complains {P : Error → Prop} {r : Reading} {place : Position} (h : r.Loads place) :
    r.Complains P place := by
  cases place with
  | statement =>
    obtain ⟨s, hs⟩ := h
    rw [Complains, hs]
    exact .ok s
  | expression =>
    obtain ⟨e, he⟩ := h
    rw [Complains, he]
    exact .ok e

/-- Every error of a reading as a list of statements, or of expressions, satisfies a condition. -/
def ListComplains (P : Error → Prop) (r : Reading) : Position → Prop
  | .statement => TreeScript.Complains P r.statements
  | .expression => TreeScript.Complains P r.expressions

end Reading

/-! ## The parts of a node -/

namespace Node

/-- The keys under which a node of a kind has another node, and what that is to be. -/
def nodeKeys : String → List (String × Position)
  | "VarDecl" => [("init", .expression)]
  | "Assign" => [("value", .expression)]
  | "Output" => [("value", .expression)]
  | "Expression" => [("expression", .expression)]
  | "For" => [("init", .statement), ("test", .expression), ("update", .statement)]
  | "While" => [("test", .expression)]
  | "If" => [("test", .expression), ("else", .statement)]
  | "Binary" => [("left", .expression), ("right", .expression)]
  | "Unary" => [("operand", .expression)]
  | _ => []

/-- The keys under which a node of a kind has a list of other nodes, and what those are to be. -/
def listKeys : String → List (String × Position)
  | "Block" => [("body", .statement)]
  | "For" => [("body", .statement)]
  | "While" => [("body", .statement)]
  | "If" => [("then", .statement), ("else", .statement)]
  | "Call" => [("args", .expression)]
  | _ => []

/-- The key under which a node of a kind must have a list of statements. -/
def bodyKey? : String → Option String
  | "Block" => some "body"
  | "For" => some "body"
  | "While" => some "body"
  | "If" => some "then"
  | _ => none

theorem mem_listKeys_of_bodyKey? {kind key : String} (h : bodyKey? kind = some key) :
    (key, .statement) ∈ listKeys kind := by
  unfold bodyKey? at h
  split at h <;> cases h <;> decide

variable {n : Node} {P : Error → Prop}

/-- What the readings of the parts of a node complain of satisfies a condition. -/
structure PartsComplain (P : Error → Prop) (n : Node) : Prop where
  node : ∀ {key place r}, (key, place) ∈ nodeKeys n.kind → Document.field? key n.fields = some r → r.Complains P place
  list : ∀ {key place r items}, (key, place) ∈ listKeys n.kind → Document.field? key n.fields = some r →
    r.document.content = .list items → r.ListComplains P place
  body : ∀ {key r}, bodyKey? n.kind = some key → Document.field? key n.fields = some r →
    r.document.isTruthy = true → TreeScript.Complains P r.statements

theorem given?_eq_some {key : String} {r : Reading} (h : n.fields.given? key = some r) :
    Document.field? key n.fields = some r :=
  Option.eq_some_of_filter_eq_some h

/-! ## Fields -/

section

variable (hown : ∀ e : Error, e.span = some n.span ∨ e.isReported = false → P e)

include hown

theorem fail_complains {α : Type} (problem : Problem) : Complains P (problem.fail n.span : Except Error α) :=
  .error (hown _ (.inl rfl))

theorem shown_complains (text : Option String) : Complains P (shown text) := by
  cases text with
  | some s => exact .ok s
  | none => exact .error (hown _ (.inr rfl))

/-- A complaint that quotes a text. -/
theorem quoted_complains {α : Type} (text : Option String) (problem : String → Problem) :
    Complains P (shown text >>= fun s => ((problem s).fail n.span : Except Error α)) :=
  .bind (shown_complains hown text) fun _ => fail_complains hown _

theorem field_complains (key : String) : Complains P (n.field key) := by
  unfold field
  split
  · exact .ok _
  · exact fail_complains hown _

theorem field_bind_complains {α : Type} {read : Reading → Except Error α} (key : String)
    (hread : ∀ r, Document.field? key n.fields = some r → Complains P (read r)) :
    Complains P (n.field key >>= read) := by
  have hfield := field_complains hown key
  unfold field at hfield ⊢
  split at hfield
  · rename_i r h
    exact hread r h
  · exact .error (hfield _ rfl)

theorem nameField_complains (key : String) : Complains P (n.nameField key) := by
  unfold nameField
  refine .bind (field_complains hown key) fun r => ?_
  split
  · split
    · exact fail_complains hown _
    · exact .ok _
  · exact fail_complains hown _

theorem operator_complains (allowed : Token → Bool) : Complains P (n.operator allowed) := by
  unfold operator
  refine .bind (field_complains hown "op") fun r => ?_
  dsimp only
  split
  · exact .ok _
  · exact quoted_complains hown _ _

theorem declarationKind_complains : Complains P n.declarationKind := by
  unfold declarationKind
  split
  · exact .ok _
  · exact .ok _
  · exact .ok _
  · exact quoted_complains hown _ _

theorem severity_complains : Complains P n.severity := by
  unfold severity
  dsimp only
  split
  · exact .ok _
  · exact quoted_complains hown _ _

variable (hparts : n.PartsComplain P)

include hparts

theorem expression_complains {key : String} (hkey : (key, .expression) ∈ nodeKeys n.kind) :
    Complains P (n.expression key) :=
  field_bind_complains hown key fun _ h => hparts.node hkey h

omit hown in
theorem optionalExpression_complains {key : String} (hkey : (key, .expression) ∈ nodeKeys n.kind) :
    Complains P (n.expression? key) := by
  unfold expression?
  split
  · exact .ok _
  · rename_i h
    exact .map (hparts.node hkey (given?_eq_some h))

omit hown in
theorem optionalStatement_complains {key : String} (hkey : (key, .statement) ∈ nodeKeys n.kind) :
    Complains P (n.statement? key) := by
  unfold statement?
  split
  · exact .ok _
  · rename_i h
    exact .map (hparts.node hkey (given?_eq_some h))

theorem body_complains {key : String} (hkey : bodyKey? n.kind = some key) : Complains P (n.body key) := by
  unfold body
  refine field_bind_complains hown key fun r h => ?_
  split
  · rename_i htrue
    exact .bind_pure (hparts.body hkey h htrue)
  · exact .ok _

/-! ## Statements -/

theorem declaration_complains (hkind : n.kind = "VarDecl") : Complains P n.declaration := by
  unfold declaration
  refine .bind (declarationKind_complains hown) fun _ => .bind (nameField_complains hown _) fun _ => .bind_pure ?_
  exact optionalExpression_complains hparts (by rw [hkind]; decide)

theorem assignment_complains (hkind : n.kind = "Assign") : Complains P n.assignment := by
  unfold assignment
  have hvalue : Complains P (n.expression "value") := expression_complains hown hparts (by rw [hkind]; decide)
  dsimp only
  split
  · exact .bind (operator_complains hown _) fun _ => .bind (nameField_complains hown _) fun _ => .bind_pure hvalue
  · exact .bind (.ok _) fun _ => .bind (nameField_complains hown _) fun _ => .bind_pure hvalue

omit hparts in
theorem update_complains : Complains P n.update := by
  unfold update
  exact .bind (nameField_complains hown _) fun _ => .bind_pure (operator_complains hown _)

theorem output_complains (hkind : n.kind = "Output") : Complains P n.output := by
  unfold output
  refine .bind (severity_complains hown) fun _ => .bind_pure ?_
  exact expression_complains hown hparts (by rw [hkind]; decide)

theorem effect_complains (hkind : n.kind = "Expression") : Complains P n.effect := by
  unfold effect
  exact .bind_pure (expression_complains hown hparts (by rw [hkind]; decide))

theorem block_complains (hkind : n.kind = "Block") : Complains P n.block := by
  unfold block
  exact .bind_pure (body_complains hown hparts (by rw [hkind]; decide))

theorem forLoop_complains (hkind : n.kind = "For") : Complains P n.forLoop := by
  unfold forLoop
  refine .bind ?_ fun _ => .bind ?_ fun _ => .bind ?_ fun _ => .bind_pure ?_
  · exact optionalStatement_complains hparts (by rw [hkind]; decide)
  · exact optionalExpression_complains hparts (by rw [hkind]; decide)
  · exact optionalStatement_complains hparts (by rw [hkind]; decide)
  · exact body_complains hown hparts (by rw [hkind]; decide)

theorem whileLoop_complains (hkind : n.kind = "While") : Complains P n.whileLoop := by
  unfold whileLoop
  refine .bind ?_ fun _ => .bind_pure ?_
  · exact expression_complains hown hparts (by rw [hkind]; decide)
  · exact body_complains hown hparts (by rw [hkind]; decide)

omit hown in
theorem elseBranch_complains (hkind : n.kind = "If") : Complains P n.elseBranch := by
  unfold elseBranch
  split
  · exact .ok _
  · rename_i r h
    split
    · rename_i hlist
      have hstatements : r.ListComplains P .statement :=
        hparts.list (by rw [hkind]; decide) (given?_eq_some h) hlist
      exact .map hstatements
    · have hstatement : r.Complains P .statement := hparts.node (by rw [hkind]; decide) (given?_eq_some h)
      exact .map hstatement

theorem ifElse_complains (hkind : n.kind = "If") : Complains P n.ifElse := by
  unfold ifElse
  refine .bind (elseBranch_complains hparts hkind) fun _ => .bind ?_ fun _ => .bind_pure ?_
  · exact expression_complains hown hparts (by rw [hkind]; decide)
  · exact body_complains hown hparts (by rw [hkind]; decide)

theorem statement_complains : Complains P n.statement := by
  unfold statement
  split
  · rename_i hkind
    exact declaration_complains hown hparts hkind
  · rename_i hkind
    exact assignment_complains hown hparts hkind
  · exact update_complains hown
  · rename_i hkind
    exact output_complains hown hparts hkind
  · rename_i hkind
    exact effect_complains hown hparts hkind
  · rename_i hkind
    exact block_complains hown hparts hkind
  · rename_i hkind
    exact forLoop_complains hown hparts hkind
  · rename_i hkind
    exact whileLoop_complains hown hparts hkind
  · rename_i hkind
    exact ifElse_complains hown hparts hkind
  · exact fail_complains hown _

/-! ## Expressions -/

omit hparts in
theorem literal_complains : Complains P n.literal := by
  unfold literal
  split
  · exact quoted_complains hown _ _
  · exact quoted_complains hown _ _
  · exact .bind_pure (shown_complains hown _)
  · exact .ok _
  · exact quoted_complains hown _ _
  · exact .ok _
  · exact quoted_complains hown _ _
  · exact fail_complains hown _

omit hparts in
theorem identifier_complains : Complains P n.identifier := by
  unfold identifier
  exact .bind_pure (nameField_complains hown _)

theorem binary_complains (hkind : n.kind = "Binary") : Complains P n.binary := by
  unfold binary
  refine .bind ?_ fun _ => .bind (operator_complains hown _) fun _ => .bind_pure ?_
  · exact expression_complains hown hparts (by rw [hkind]; decide)
  · exact expression_complains hown hparts (by rw [hkind]; decide)

theorem unary_complains (hkind : n.kind = "Unary") : Complains P n.unary := by
  unfold unary
  refine .bind (operator_complains hown _) fun _ => .bind_pure ?_
  exact expression_complains hown hparts (by rw [hkind]; decide)

omit hparts in
theorem args_complains : Complains P n.args := by
  unfold args
  split
  · exact .ok _
  · split
    · exact .ok _
    · split
      · exact fail_complains hown _
      · exact .ok _

omit hown in
/-- The arguments that a call is found to have are read later, after its names. -/
theorem getD_args_complains (hkind : n.kind = "Call") {args : Option (Except Error (List Expr))}
    (h : n.args = .ok args) : Complains P (args.getD (.ok [])) := by
  unfold Node.args at h
  split at h
  · cases h
    exact .ok _
  · rename_i r hr
    split at h
    · rename_i hlist
      cases h
      have hexpressions : r.ListComplains P .expression := hparts.list (by rw [hkind]; decide) hr hlist
      exact hexpressions
    · split at h
      · cases h
      · cases h
        exact .ok _

theorem call_complains (hkind : n.kind = "Call") : Complains P n.call := by
  unfold call
  refine .bind_of_ok (args_complains hown) fun args hargs => ?_
  refine .bind (nameField_complains hown _) fun _ => .bind (nameField_complains hown _) fun _ => .bind_pure ?_
  exact getD_args_complains hparts hkind hargs

theorem expressionOf_complains : Complains P n.expressionOf := by
  unfold expressionOf
  split
  · exact literal_complains hown
  · exact identifier_complains hown
  · rename_i hkind
    exact binary_complains hown hparts hkind
  · rename_i hkind
    exact unary_complains hown hparts hkind
  · rename_i hkind
    exact call_complains hown hparts hkind
  · exact fail_complains hown _

end

end Node

end TreeScript
