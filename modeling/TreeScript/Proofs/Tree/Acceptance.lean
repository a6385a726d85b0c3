/-
Reading accepts the grammar of programs and nothing else. For each kind of node the reader of the kind decides whether
the fields are those of the grammar, and the readings of a finite document are exact by recursion on the document,
since a reading puts together what the readings of its parts decide. A document of the grammar is not read only if an
integer literal in it has too many digits, or if there is no room for it. Documents that contain themselves are left
out: to read one may go on without end.
-/
import TreeScript.Proofs.Integer.Decimal
import TreeScript.Proofs.Tree.Decision

namespace TreeScript

open Grammar

namespace Node

variable {W : Prop} {n : Node} {entries : Entries} (hn : n.fields.Exact W entries)

include hn

/-! ## Statements -/

theorem declarationKind_decides :
    Decides W (fun _ => WhenThere "kind" (fun d => d = .text "let" ∨ d = .text "const") entries)
      n.declarationKind := by
  unfold declarationKind
  rw [hn.datum?_eq]
  obtain ⟨-, hk⟩ | ⟨r, d, -, hk, hr⟩ := hn.find "kind"
  · rw [hk]
    exact .holds fun _ => whenThere_of_none hk
  · refine Decides.congr ?_ fun _ => (whenThere_iff hk).symm
    rw [hk]
    split
    · rename_i h
      cases h
    · rename_i h
      cases h
      exact .holds fun _ => .inl rfl
    · rename_i h
      cases h
      exact .holds fun _ => .inr rfl
    · rename_i hlet hconst h
      cases h
      have hkind : ¬ (d = .text "let" ∨ d = .text "const") := by
        rintro (rfl | rfl)
        · exact hlet rfl
        · exact hconst rfl
      exact .shown (fun _ => hkind) (fun w => (hr.written w).quoted) fun s => .fail (fun _ => hkind) rfl

theorem declaration_decides : Decides W (fun A => StatementFields A .declaration entries) n.declaration := by
  unfold declaration
  refine (Decides.bind (declarationKind_decides hn) fun _ => .bind (nameField_decides hn _) fun _ =>
    (optionalExpression_decides hn _).bind_pure).congr fun A => ?_
  constructor
  · rintro ⟨hkind, hname, hinit⟩
    exact .declaration hkind hname hinit
  · intro h
    cases h with
    | declaration hkind hname hinit => exact ⟨hkind, hname, hinit⟩

theorem assignment_decides : Decides W (fun A => StatementFields A .assignment entries) n.assignment := by
  have hop : Decides W (fun _ => HasOperator assignmentOperators entries) (n.operator Token.isAssignment) :=
    operator_decides hn Token.isAssignment
  have hrest (op : Token) :
      Decides W (fun A => HasName "target" entries ∧ ∃ d, Document.field? "value" entries = some d ∧ IsExpression A d) (do
        let name ← n.nameField "target"
        return Stmt.assign n.span ⟨n.span, name⟩ (← n.expression "value") op) :=
    .bind (nameField_decides hn _) fun _ => (expression_decides hn _).bind_pure
  have hassignment : Decides W (fun A => WhenThere "op" (IsOperator assignmentOperators) entries ∧
      HasName "target" entries ∧ ∃ d, Document.field? "value" entries = some d ∧ IsExpression A d) n.assignment := by
    unfold assignment
    dsimp only
    rw [hn.datum?_eq]
    -- Without the key the operator is `=`; a key that holds null is no such case.
    cases hd : Document.field? "op" entries with
    | none =>
      refine (hrest .assign).congr fun A => ?_
      exact ⟨fun h => ⟨whenThere_of_none hd, h⟩, And.right⟩
    | some d =>
      refine (Decides.bind hop hrest).congr fun A => and_congr_left' ?_
      rw [whenThere_iff hd, HasOperator, hd]
      simp
  refine hassignment.congr fun A => ?_
  constructor
  · rintro ⟨hop, htarget, value, hvalue, h⟩
    exact .assignment hop htarget hvalue h
  · intro h
    cases h with
    | assignment hop htarget hvalue h => exact ⟨hop, htarget, _, hvalue, h⟩

theorem update_decides : Decides W (fun A => StatementFields A .update entries) n.update := by
  unfold update
  have hop : Decides W (fun _ => HasOperator updateOperators entries) (n.operator Token.isUpdate) :=
    operator_decides hn Token.isUpdate
  refine (Decides.bind (nameField_decides hn _) fun _ => hop.bind_pure).congr fun A => ?_
  constructor
  · rintro ⟨htarget, hop⟩
    exact .update htarget hop
  · intro h
    cases h with
    | update htarget hop => exact ⟨htarget, hop⟩

theorem severity_decides :
    Decides W (fun _ => WhenThere "severity" (fun d => ∃ s ∈ d.plain, Text.lower s ∈ ["info", "warn", "error"]) entries)
      n.severity := by
  have hd {d : Document} (hd : W → d.Writable) (h : (n.fields.datum? "severity").getD (.text "info") = d) :
      Decides W (fun _ => ∃ s ∈ d.plain, Text.lower s ∈ ["info", "warn", "error"]) n.severity := by
    have hname : (∃ s ∈ d.plain, Text.lower s ∈ ["info", "warn", "error"]) ↔
        (d.plain.bind Severity.ofName?).isSome = true := by
      rw [Option.isSome_bind, Option.any_eq_true]
      simp only [Severity.isSome_ofName?, Option.mem_def]
    unfold severity
    rw [h]
    simp only [hname]
    cases d.plain.bind Severity.ofName? with
    | some severity => exact .holds fun _ => rfl
    | none => exact .shown (by simp) (fun w => (hd w).quoted) fun s => .fail (by simp) rfl
  rw [hn.datum?_eq] at hd
  obtain ⟨-, hs⟩ | ⟨r, d, -, hs, hr⟩ := hn.find "severity"
  · rw [hs] at hd
    refine (hd (d := .text "info") (fun _ => True.intro) rfl).congr fun _ => ?_
    refine ⟨fun _ => whenThere_of_none hs, fun _ => ⟨_, rfl, ?_⟩⟩
    rw [Text.lower_info]
    exact List.mem_cons_self
  · rw [hs] at hd
    refine (hd hr.written rfl).congr fun _ => ?_
    rw [whenThere_iff hs]

theorem output_decides : Decides W (fun A => StatementFields A .output entries) n.output := by
  unfold output
  refine (Decides.bind (severity_decides hn) fun _ => (expression_decides hn _).bind_pure).congr fun A => ?_
  constructor
  · rintro ⟨hseverity, value, hvalue, h⟩
    exact .output hseverity hvalue h
  · intro h
    cases h with
    | output hseverity hvalue h => exact ⟨hseverity, _, hvalue, h⟩

theorem effect_decides : Decides W (fun A => StatementFields A .effect entries) n.effect := by
  unfold effect
  refine (expression_decides hn _).bind_pure.congr fun A => ?_
  constructor
  · rintro ⟨e, hexpression, h⟩
    exact .effect hexpression h
  · intro h
    cases h with
    | effect hexpression h => exact ⟨_, hexpression, h⟩

theorem block_decides : Decides W (fun A => StatementFields A .block entries) n.block := by
  unfold block
  refine (body_decides hn _).bind_pure.congr fun A => ?_
  constructor
  · rintro ⟨body, hbody, h⟩
    exact .block hbody h
  · intro h
    cases h with
    | block hbody h => exact ⟨_, hbody, h⟩

theorem forLoop_decides : Decides W (fun A => StatementFields A .forLoop entries) n.forLoop := by
  unfold forLoop
  refine (Decides.bind (optionalStatement_decides hn _) fun _ => .bind (optionalExpression_decides hn _) fun _ =>
    .bind (optionalStatement_decides hn _) fun _ => (body_decides hn _).bind_pure).congr fun A => ?_
  constructor
  · rintro ⟨hinit, htest, hupdate, body, hbody, h⟩
    exact .forLoop hinit htest hupdate hbody h
  · intro h
    cases h with
    | forLoop hinit htest hupdate hbody h => exact ⟨hinit, htest, hupdate, _, hbody, h⟩

theorem whileLoop_decides : Decides W (fun A => StatementFields A .whileLoop entries) n.whileLoop := by
  unfold whileLoop
  refine (Decides.bind (expression_decides hn _) fun _ => (body_decides hn _).bind_pure).congr fun A => ?_
  constructor
  · rintro ⟨⟨test, htest, ht⟩, body, hbody, h⟩
    exact .whileLoop htest ht hbody h
  · intro h
    cases h with
    | whileLoop htest ht hbody h => exact ⟨⟨_, htest, ht⟩, _, hbody, h⟩

theorem elseBranch_decides : Decides W (fun A => WhenGiven "else" (IsElse A) entries) n.elseBranch := by
  unfold elseBranch
  obtain ⟨hgiven, h⟩ | ⟨r, d, hgiven, -, hr, h⟩ := hn.given "else"
  · rw [hgiven]
    exact .holds fun _ => h _
  · rw [hgiven]
    simp only [h]
    rw [hr.document, Document.content_eq hr.unlabelled]
    split
    · refine hr.statements.map.congr fun A => ?_
      constructor
      · rintro ⟨items, hd, hitems⟩
        rw [hd]
        exact .list hitems
      · intro h
        cases h with
        | list hitems => exact ⟨_, rfl, hitems⟩
        | statement h => cases h
    · rename_i hother
      refine hr.statement.map.congr fun A => ⟨.statement, ?_⟩
      intro h
      cases h with
      | list => exact (hother _ rfl).elim
      | statement h => exact h

theorem ifElse_decides : Decides W (fun A => StatementFields A .ifElse entries) n.ifElse := by
  unfold ifElse
  refine (Decides.bind (elseBranch_decides hn) fun _ => .bind (expression_decides hn _) fun _ =>
    (body_decides hn _).bind_pure).congr fun A => ?_
  constructor
  · rintro ⟨helse, ⟨test, htest, ht⟩, body, hthen, h⟩
    exact .ifElse helse htest ht hthen h
  · intro h
    cases h with
    | ifElse helse htest ht hthen h => exact ⟨helse, ⟨_, htest, ht⟩, _, hthen, h⟩

/-! ## Expressions -/

omit hn in
/-- A datum that is neither null nor a truth value is the integer that it writes, if it has a text. -/
theorem integer_decides {d : Document} (hd : W → d.Writable) (hnull : d ≠ .null) (hbool : ∀ b, d ≠ .bool b) :
    Decides W (fun A => (d ≠ .null ∧ ∀ b, d ≠ .bool b) ∧ A d)
      (do return Expr.literal n.span (.integer (← shown d.plain))) := by
  cases hplain : d.plain with
  | some s =>
    refine .ok fun A hA => ⟨⟨hnull, hbool⟩, hA d ?_⟩
    rw [Document.HasText, hplain]
    rfl
  | none =>
    refine .unwritable rfl ?_ ?_
    · intro w
      obtain ⟨s, hs⟩ := (hd w).plain
      rw [hplain] at hs
      cases hs
    · rintro ⟨-, htext⟩
      rw [Document.HasText, hplain] at htext
      cases htext

theorem literal_decides : Decides W (fun A => ExpressionFields A .literal entries) n.literal := by
  have hliteral : Decides W (fun A => LiteralFields A entries) n.literal := by
    unfold literal
    rw [hn.datum?_eq, hn.datum?_eq, hn.datum?_eq]
    obtain ⟨-, hint⟩ | ⟨r, d, -, hint, hr⟩ := hn.find "int"
    · obtain ⟨-, hstring⟩ | ⟨r, d, -, hstring, hr⟩ := hn.find "string"
      · simp only [literalFields_bool hint hstring]
        obtain ⟨-, hbool⟩ | ⟨r, d, -, hbool, hr⟩ := hn.find "bool"
        · rw [hint, hstring, hbool]
          exact .fail (by simp) rfl
        · rw [hint, hstring, hbool]
          cases d with
          | bool b => exact .holds fun _ => ⟨b, rfl⟩
          | _ => exact .shown (by simp) (fun w => (hr.written w).quoted) fun s => .fail (by simp) rfl
      · simp only [literalFields_string hint hstring]
        rw [hint, hstring]
        cases d with
        | text s => exact .holds fun _ => ⟨s, rfl⟩
        | _ => exact .shown (by simp) (fun w => (hr.written w).quoted) fun s => .fail (by simp) rfl
    · simp only [literalFields_int hint]
      rw [hint]
      cases d with
      | null => exact .fail (fun _ h => h.1.1 rfl) rfl
      | bool b => exact .fail (fun _ h => h.1.2 b rfl) rfl
      | _ => exact integer_decides hr.written nofun nofun
  refine hliteral.congr fun A => ⟨.literal, ?_⟩
  intro h
  cases h with
  | literal h => exact h

theorem identifier_decides : Decides W (fun A => ExpressionFields A .identifier entries) n.identifier := by
  unfold identifier
  refine (nameField_decides hn _).bind_pure.congr fun A => ⟨.identifier, ?_⟩
  intro h
  cases h with
  | identifier hname => exact hname

theorem binary_decides : Decides W (fun A => ExpressionFields A .binary entries) n.binary := by
  unfold binary
  have hop : Decides W (fun _ => HasOperator binaryOperators entries) (n.operator Token.isBinary) :=
    operator_decides hn Token.isBinary
  refine (Decides.bind (expression_decides hn _) fun _ => .bind hop fun _ =>
    (expression_decides hn _).bind_pure).congr fun A => ?_
  constructor
  · rintro ⟨⟨left, hleft, hl⟩, hop, right, hright, hr⟩
    exact .binary hleft hl hop hright hr
  · intro h
    cases h with
    | binary hleft hl hop hright hr => exact ⟨⟨_, hleft, hl⟩, hop, _, hright, hr⟩

theorem unary_decides : Decides W (fun A => ExpressionFields A .unary entries) n.unary := by
  unfold unary
  have hop : Decides W (fun _ => HasOperator unaryOperators entries) (n.operator Token.isUnary) :=
    operator_decides hn Token.isUnary
  refine (Decides.bind hop fun _ => (expression_decides hn _).bind_pure).congr fun A => ?_
  constructor
  · rintro ⟨hop, operand, hoperand, h⟩
    exact .unary hop hoperand h
  · intro h
    cases h with
    | unary hop hoperand h => exact ⟨hop, _, hoperand, h⟩

/-- The arguments are read last, but if they are no list that comes up at once. -/
theorem args_decides :
    Decides W (fun A => WhenThere "args" (IsArgs A) entries) (n.args >>= fun args => args.getD (.ok [])) := by
  unfold args
  obtain ⟨hf, he⟩ | ⟨r, d, hf, he, hr⟩ := hn.find "args"
  · rw [hf]
    exact .holds fun _ => whenThere_of_none he
  · rw [hf]
    simp only [whenThere_iff he]
    rw [hr.document, Document.content_eq hr.unlabelled]
    split
    · refine hr.expressions.congr fun A => ?_
      constructor
      · rintro ⟨items, hd, hitems⟩
        rw [hd]
        exact .list hitems
      · intro h
        cases h with
        | void hvoid =>
          cases hvoid
          exact ⟨[], rfl, by simp⟩
        | list hitems => exact ⟨_, rfl, hitems⟩
    · rename_i hother
      split
      · rename_i htrue
        refine .fail ?_ rfl
        intro A h
        cases h with
        | void hvoid =>
          rw [void_iff hr.unlabelled, htrue] at hvoid
          cases hvoid
        | list => exact hother _ rfl
      · rename_i hfalse
        exact .holds fun _ => .void ((void_iff hr.unlabelled).mpr (Bool.eq_false_of_not_eq_true hfalse))

theorem call_decides : Decides W (fun A => ExpressionFields A .call entries) n.call := by
  have hargs := args_decides hn
  cases h : n.args with
  | error e =>
    have hcall : n.call = .error e := by
      unfold call
      rw [h]
      rfl
    rw [h] at hargs
    rw [hcall]
    cases hargs with
    | refused he hnot =>
      refine .refused he ?_
      intro A h
      cases h with
      | call hargs _ _ => exact hnot A hargs
    | unwritable he hw hnot =>
      refine .unwritable he hw ?_
      intro h
      cases h with
      | call hargs _ _ => exact hnot hargs
  | ok args =>
    have hcall : n.call = (do
        let object ← n.nameField "object"
        let method ← n.nameField "method"
        return .call n.span (.identifier n.span object) method (← args.getD (.ok []))) := by
      unfold call
      rw [h]
      rfl
    rw [h] at hargs
    rw [hcall]
    -- The names are read between the two looks at the arguments; the grammar does not order them.
    refine (Decides.bind (nameField_decides hn _) fun _ => .bind (nameField_decides hn _) fun _ =>
      Decides.bind_pure hargs).congr fun A => ?_
    constructor
    · rintro ⟨hobject, hmethod, hargs⟩
      exact .call hargs hobject hmethod
    · intro h
      cases h with
      | call hargs hobject hmethod => exact ⟨hobject, hmethod, hargs⟩

/-! ## Nodes of all kinds -/

theorem statement_decides :
    Decides W (fun A => ∃ kind : StatementKind, n.kind = kind.name ∧ StatementFields A kind entries) n.statement := by
  -- A node of a known kind is decided by the fields of that kind alone.
  have hkind {kind : StatementKind} {x : Except Error Stmt}
      (hx : Decides W (fun A => StatementFields A kind entries) x) (h : n.kind = kind.name) :
      Decides W (fun A => ∃ kind : StatementKind, n.kind = kind.name ∧ StatementFields A kind entries) x := by
    refine hx.congr fun A => ⟨fun hfields => ⟨kind, h, hfields⟩, ?_⟩
    rintro ⟨kind', h', hfields⟩
    rwa [StatementKind.name_inj (h.symm.trans h')]
  unfold statement
  split
  · rename_i h
    exact hkind (declaration_decides hn) h
  · rename_i h
    exact hkind (assignment_decides hn) h
  · rename_i h
    exact hkind (update_decides hn) h
  · rename_i h
    exact hkind (output_decides hn) h
  · rename_i h
    exact hkind (effect_decides hn) h
  · rename_i h
    exact hkind (block_decides hn) h
  · rename_i h
    exact hkind (forLoop_decides hn) h
  · rename_i h
    exact hkind (whileLoop_decides hn) h
  · rename_i h
    exact hkind (ifElse_decides hn) h
  · refine .fail ?_ rfl
    rename_i declaration assignment update output effect block forLoop whileLoop ifElse
    rintro A ⟨kind, h, -⟩
    cases kind with
    | declaration => exact declaration h
    | assignment => exact assignment h
    | update => exact update h
    | output => exact output h
    | effect => exact effect h
    | block => exact block h
    | forLoop => exact forLoop h
    | whileLoop => exact whileLoop h
    | ifElse => exact ifElse h

theorem expressionOf_decides :
    Decides W (fun A => ∃ kind : ExpressionKind, n.kind = kind.name ∧ ExpressionFields A kind entries) n.expressionOf := by
  have hkind {kind : ExpressionKind} {x : Except Error Expr}
      (hx : Decides W (fun A => ExpressionFields A kind entries) x) (h : n.kind = kind.name) :
      Decides W (fun A => ∃ kind : ExpressionKind, n.kind = kind.name ∧ ExpressionFields A kind entries) x := by
    refine hx.congr fun A => ⟨fun hfields => ⟨kind, h, hfields⟩, ?_⟩
    rintro ⟨kind', h', hfields⟩
    rwa [ExpressionKind.name_inj (h.symm.trans h')]
  unfold expressionOf
  split
  · rename_i h
    exact hkind (literal_decides hn) h
  · rename_i h
    exact hkind (identifier_decides hn) h
  · rename_i h
    exact hkind (binary_decides hn) h
  · rename_i h
    exact hkind (unary_decides hn) h
  · rename_i h
    exact hkind (call_decides hn) h
  · refine .fail ?_ rfl
    rename_i literal identifier binary unary call
    rintro A ⟨kind, h, -⟩
    cases kind with
    | literal => exact literal h
    | identifier => exact identifier h
    | binary => exact binary h
    | unary => exact unary h
    | call => exact call h

end Node

/-! ## Readings -/

namespace Reading

variable {filename : Option String} {W : Prop}

/-- What is neither a map nor a list is no part of a program, and its reading says so. -/
theorem other_exact {d : Document} (hlabel : d.isLabelled = false) (hmap : ∀ entries, d ≠ .map entries)
    (hlist : ∀ items, d ≠ .list items) (hd : W → d.Writable) : (other d).Exact W d where
  document := rfl
  unlabelled := hlabel
  written := hd
  statement := by
    refine .unplaced ?_ rfl
    intro A h
    cases h with
    | node => exact hmap _ rfl
  expression := by
    refine .unplaced ?_ rfl
    intro A h
    cases h with
    | node => exact hmap _ rfl
  statements := by
    refine .unplaced ?_ rfl
    rintro A ⟨items, h, -⟩
    exact hlist items h
  expressions := by
    refine .unplaced ?_ rfl
    rintro A ⟨items, h, -⟩
    exact hlist items h

/-- A map is read as a node if it has a position and a kind, and its fields are those of the kind. -/
theorem node_decides {α : Type} {fields : Fields} {entries : Entries} (h : fields.Exact W entries)
    {F : (Document → Prop) → String → Prop} {build : Node → Except Error α}
    (hbuild : ∀ n : Node, n.fields.Exact W entries → Decides W (fun A => F A n.kind) (build n)) (wanted : Position) :
    Decides W (fun A => Positioned entries ∧ ∃ kind, Document.field? "node" entries = some (.text kind) ∧ F A kind)
      (node filename wanted fields build) := by
  have hspan := Fields.span_decides h filename
  -- Without a text for its kind a map is no node, wherever it is.
  have hother {d : Option Document} (hd : W → ∃ s, (d.getD .null).plain = some s) (hnot : ∀ kind, d ≠ some (.text kind)) :
      Decides W (fun A => Positioned entries ∧ ∃ kind, d = some (.text kind) ∧ F A kind) (do
        let kind ← shown (d.getD .null).plain
        ((Problem.unknownNode wanted kind).fail (← fields.span filename) : Except Error α)) := by
    have hkind (A : Document → Prop) : ¬ ∃ kind, d = some (.text kind) ∧ F A kind := by
      rintro ⟨kind, hd, -⟩
      exact hnot kind hd
    exact .shown (fun A hA => hkind A hA.2) hd fun s => hspan.bind fun _ => .fail hkind rfl
  unfold node
  rw [Fields.Exact.datum?_eq h]
  obtain ⟨-, hnode⟩ | ⟨r, d, -, hnode, hr⟩ := h.find "node"
  · rw [hnode]
    exact hother (fun _ => ⟨_, rfl⟩) nofun
  · rw [hnode]
    split
    · rename_i kind hkind
      refine (hspan.bind (Q := fun A => F A kind) fun span => hbuild ⟨kind, span, fields⟩ h).congr fun A => ?_
      rw [hkind]
      simp
    · rename_i hkind
      exact hother (fun w => (hr.written w).plain) hkind

theorem ofFields_exact {fields : Fields} {entries : Entries} (h : fields.Exact W entries)
    (hd : W → (Document.map entries).Writable) : (ofFields filename (.map entries) fields).Exact W (.map entries) where
  document := rfl
  unlabelled := rfl
  written := hd
  statement := by
    refine (node_decides h (F := fun A kind => ∃ k : StatementKind, kind = k.name ∧ StatementFields A k entries)
      (fun n hn => Node.statement_decides hn) _).congr fun A => ?_
    constructor
    · rintro ⟨hposition, _, hkind, k, rfl, hfields⟩
      exact .node hposition hkind hfields
    · intro h
      cases h with
      | node hposition hkind hfields => exact ⟨hposition, _, hkind, _, rfl, hfields⟩
  expression := by
    refine (node_decides h (F := fun A kind => ∃ k : ExpressionKind, kind = k.name ∧ ExpressionFields A k entries)
      (fun n hn => Node.expressionOf_decides hn) _).congr fun A => ?_
    constructor
    · rintro ⟨hposition, _, hkind, k, rfl, hfields⟩
      exact .node hposition hkind hfields
    · intro h
      cases h with
      | node hposition hkind hfields => exact ⟨hposition, _, hkind, _, rfl, hfields⟩
  statements := .unplaced (by simp) rfl
  expressions := .unplaced (by simp) rfl

theorem ofItems_exact {readings : List Reading} {items : List Document} (h : List.Forall₂ (Exact W) readings items)
    (hd : W → (Document.list items).Writable) : (ofItems (.list items) readings).Exact W (.list items) where
  document := rfl
  unlabelled := rfl
  written := hd
  statement := .unplaced (fun _ => nofun) rfl
  expression := .unplaced (fun _ => nofun) rfl
  statements := by
    refine (Decides.mapM (C := IsStatement) (h.imp fun _ _ hr => hr.statement)).congr fun A => ?_
    simp
  expressions := by
    refine (Decides.mapM (C := IsExpression) (h.imp fun _ _ hr => hr.expression)).congr fun A => ?_
    simp

mutual

/-- The readings of finite documents are exact. -/
theorem inside_exact : ∀ d : Document, d.Finite → (W → d.Writable) → (inside filename [] d).Exact W d
  | .map entries, h, hd => by
    rw [inside]
    exact ofFields_exact (readEntries_exact entries h hd) hd
  | .list items, h, hd => by
    rw [inside]
    exact ofItems_exact (readItems_exact items h hd) hd
  | .labelled _ _, h, _ => h.elim
  | .again _, h, _ => h.elim
  | .null, _, hd | .bool _, _, hd | .int _, _, hd | .double _, _, hd | .text _, _, hd | .date _, _, hd
  | .moment _, _, hd | .bytes _, _, hd | .pair _ _, _, hd | .set _, _, hd => other_exact rfl nofun nofun hd

theorem readItems_exact : ∀ items, itemsFinite items → (W → itemsWritable items) →
    List.Forall₂ (Exact W) (readItems filename [] items) items
  | [], _, _ => .nil
  | d :: rest, h, hd =>
    .cons (inside_exact d h.1 fun w => (hd w).1) (readItems_exact rest h.2 fun w => (hd w).2)

theorem readEntries_exact : ∀ entries, entriesFinite entries → (W → entriesWritable entries) →
    Fields.Exact W (readEntries filename [] entries) entries
  | [], _, _ => .nil
  | (_, d) :: rest, h, hd =>
    .cons ⟨rfl, inside_exact d h.1 fun w => (hd w).1.2⟩ (readEntries_exact rest h.2 fun w => (hd w).2)

end

end Reading

/-! ## Programs -/

theorem Document.Finite.field {entries : Entries} {key : String} {d : Document} (h : (Document.map entries).Finite)
    (hd : field? key entries = some d) : d.Finite := by
  obtain ⟨k, hk⟩ := field?_mem hd
  exact entriesFinite_iff.mp h _ hk

theorem Document.Writable.field {entries : Entries} {key : String} {d : Document}
    (h : (Document.map entries).Writable) (hd : field? key entries = some d) : d.Writable := by
  obtain ⟨k, hk⟩ := field?_mem hd
  exact (entriesWritable_iff.mp h _ hk).2

theorem Program.readStatements_decides (filename : Option String) {W : Prop} {d : Document} (hd : d.Finite)
    (hw : W → d.Writable) : Decides W (fun A => IsStatements A d) (readStatements filename d) := by
  have hread : (Reading.ofDocument filename d).Exact W d := Reading.inside_exact d hd hw
  unfold readStatements
  rw [Document.content_eq hread.unlabelled]
  split
  · exact .holds fun _ => .null
  · refine hread.statements.congr fun A => ?_
    constructor
    · rintro ⟨items, h, hitems⟩
      rw [h]
      exact .list hitems
    · intro h
      cases h with
      | list hitems => exact ⟨_, rfl, hitems⟩
  · rename_i hnull hlist
    refine .unplaced ?_ rfl
    intro A h
    cases h with
    | null => exact hnull rfl
    | list => exact hlist _ rfl

theorem Program.ofDocument_decides (filename : Option String) (name : Document) {d : Document} (hd : d.Finite) :
    Decides d.Writable (fun A => IsProgram A d) (ofDocument filename name d) := by
  cases d with
  | map entries =>
    have hview : (Document.map entries).view = .map entries := rfl
    unfold ofDocument
    rw [hview]
    dsimp only
    cases hp : Document.field? "program" entries with
    | none =>
      refine .unplaced ?_ rfl
      intro A h
      cases h with
      | bare h => cases h
      | map hprogram _ =>
        rw [hp] at hprogram
        cases hprogram
    | some statements =>
      refine (readStatements_decides filename (hd.field hp) fun w => w.field hp).bind_pure.congr fun A => ⟨.map hp, ?_⟩
      intro h
      cases h with
      | bare h => cases h
      | map hprogram h =>
        rw [hp] at hprogram
        cases hprogram
        exact h
  | labelled label content => exact hd.elim
  | again label => exact hd.elim
  | _ =>
    refine (readStatements_decides filename hd fun w => w).bind_pure.congr fun A => ⟨.bare, ?_⟩
    intro h
    cases h with
    | bare h => exact h

/-- What becomes of a finite document. It is read if it is a program whose integer literals have texts and there is room
for it. It is refused if it is no program, whatever integer literals may hold. Else it is too deep, or something that is
needed has no text. -/
inductive Program.Loads (hasRoom : Document → Bool) (d : Document) : Except Error Program → Prop
  | read {p : Program} (hroom : hasRoom d = true) (h : ∀ A, (∀ d : Document, d.HasText → A d) → IsProgram A d) :
    Loads hasRoom d (.ok p)
  | refused {e : Error} (hroom : hasRoom d = true) (he : e.IsRefusal) (h : ∀ A, ¬ IsProgram A d) :
    Loads hasRoom d (.error e)
  | unwritable {e : Error} (hroom : hasRoom d = true) (he : e.IsUnwritable) (hw : ¬ d.Writable)
    (h : ¬ IsProgram Document.HasText d) : Loads hasRoom d (.error e)
  | tooDeep {e : Error} (hroom : hasRoom d = false) (he : e.IsTooDeep) : Loads hasRoom d (.error e)

theorem Program.load_loads (hasRoom : Document → Bool) (filename : Option String) (name : Document) {d : Document}
    (hd : d.Finite) : Loads hasRoom d (load hasRoom filename name d) := by
  unfold load
  split
  · rename_i hroom
    have hdecides := ofDocument_decides filename name hd
    generalize ofDocument filename name d = x at hdecides
    cases hdecides with
    | ok h => exact .read hroom h
    | refused he h => exact .refused hroom he h
    | unwritable he hw h => exact .unwritable hroom he hw h
  · rename_i hroom
    exact .tooDeep (Bool.eq_false_of_not_eq_true hroom) rfl

/-- A finite document is read as a program exactly if it belongs to the grammar, its integer literals have texts, and
there is room for it. One that is not read is refused, since it does not belong to the grammar, or it has a number that
is too long for a text, or there is no room for it. So of the documents with room and without such numbers those of the
grammar are read, and the others are refused. -/
theorem loads_iff_isProgram (hasRoom : Document → Bool) (filename : Option String) (name : Document) {d : Document}
    (hd : d.Finite) :
    ((∃ p, Program.load hasRoom filename name d = .ok p) ↔ IsProgram Document.HasText d ∧ hasRoom d = true) ∧
      (∀ e, Program.load hasRoom filename name d = .error e →
        e.IsRefusal ∧ ¬ IsProgram (fun _ => True) d ∨ e.IsUnwritable ∧ ¬ d.Writable ∨
          e.IsTooDeep ∧ hasRoom d = false) ∧
      (d.Writable → hasRoom d = true →
        ((∃ p, Program.load hasRoom filename name d = .ok p) ↔ IsProgram (fun _ => True) d) ∧
          ∀ e, Program.load hasRoom filename name d = .error e → e.IsRefusal) := by
  have hloads := Program.load_loads hasRoom filename name hd
  generalize Program.load hasRoom filename name d = x at hloads
  cases hloads with
  | @read p hroom h =>
    have htext := h Document.HasText fun _ ht => ht
    have hany := h (fun _ => True) fun _ _ => True.intro
    refine ⟨⟨fun _ => ⟨htext, hroom⟩, fun _ => ⟨p, rfl⟩⟩, ?_, fun _ _ => ⟨⟨fun _ => hany, fun _ => ⟨p, rfl⟩⟩, ?_⟩⟩
    · rintro _ ⟨⟩
    · rintro _ ⟨⟩
  | @refused e hroom he h =>
    refine ⟨⟨?_, fun hp => absurd hp.1 (h _)⟩, ?_, fun _ _ => ⟨⟨?_, fun hp => absurd hp (h _)⟩, ?_⟩⟩
    · rintro ⟨_, ⟨⟩⟩
    · rintro _ ⟨⟩
      exact .inl ⟨he, h _⟩
    · rintro ⟨_, ⟨⟩⟩
    · rintro _ ⟨⟩
      exact he
  | @unwritable e hroom he hw h =>
    refine ⟨⟨?_, fun hp => absurd hp.1 h⟩, ?_, fun hwritable => absurd hwritable hw⟩
    · rintro ⟨_, ⟨⟩⟩
    · rintro _ ⟨⟩
      exact .inr (.inl ⟨he, hw⟩)
  | @tooDeep e hroom he =>
    refine ⟨⟨?_, fun hp => ?_⟩, ?_, fun _ hroom' => ?_⟩
    · rintro ⟨_, ⟨⟩⟩
    · rw [hroom] at hp
      cases hp.2
    · rintro _ ⟨⟩
      exact .inr (.inr ⟨he, hroom⟩)
    · rw [hroom] at hroom'
      cases hroom'

/-- A block whose statements are void: its body is `false`. -/
theorem loads_iff_isProgram_void_body :
    ∃ d : Document, d.Finite ∧ d.Writable ∧ IsProgram (fun _ => True) d ∧
      ∃ p, Program.load (fun _ => true) none .null d = .ok p := by
  let entries : Entries := [(.text "node", .text "Block"), (.text "body", .bool false)]
  have hfinite : (Document.list [.map entries]).Finite :=
    ⟨⟨True.intro, True.intro, True.intro⟩, True.intro⟩
  have hwritable : (Document.list [.map entries]).Writable :=
    ⟨⟨⟨True.intro, True.intro⟩, ⟨True.intro, True.intro⟩, True.intro⟩, True.intro⟩
  have hfields : StatementFields (fun _ => True) .block entries := .block rfl (.void .bool)
  have hblock : IsStatement (fun _ => True) (.map entries) := .node (.nowhere (whenThere_of_none rfl).given) rfl hfields
  have hprogram : IsProgram (fun _ => True) (.list [.map entries]) := by
    refine .bare (.list ?_)
    intro d hd
    rwa [List.mem_singleton.mp hd]
  obtain ⟨-, -, hloads⟩ := loads_iff_isProgram (fun _ => true) none .null hfinite
  exact ⟨_, hfinite, hwritable, hprogram, (hloads hwritable rfl).1.mpr hprogram⟩

/-- The statement that consists of an integer literal. -/
def Document.literalStatement (d : Document) : Document :=
  .map [(.text "node", .text "Expression"), (.text "expression", .map [(.text "node", .text "Literal"), (.text "int", d)])]

theorem isProgram_literalStatement {A : Document → Prop} {n : Int} :
    IsProgram A (.list [(Document.int n).literalStatement]) ↔ A (.int n) := by
  constructor
  · rintro (⟨⟨⟩ | h⟩ | _)
    obtain @⟨kind, _, -, hkind, hfields⟩ := h _ List.mem_cons_self
    cases hfields with
    | effect hexpression he =>
      cases hexpression
      obtain @⟨kind, _, -, hkind, hfields⟩ := he
      cases hfields with
      | literal h =>
        exact ((literalFields_int rfl).mp h).2
      | _ => exact absurd (Document.text.inj (Option.some.inj hkind)) (by decide)
    | _ => exact absurd (Document.text.inj (Option.some.inj hkind)) (by decide)
  · intro hn
    have hliteral : LiteralFields A [(.text "node", .text "Literal"), (.text "int", .int n)] :=
      (literalFields_int rfl).mpr ⟨⟨nofun, nofun⟩, hn⟩
    refine .bare (.list fun d hd => ?_)
    rw [List.mem_singleton.mp hd]
    have he : IsExpression A (.map [(.text "node", .text "Literal"), (.text "int", .int n)]) :=
      .node (.nowhere (whenThere_of_none rfl).given) rfl (.literal hliteral)
    have hfields : StatementFields A .effect [(.text "node", .text "Expression"), (.text "expression",
        .map [(.text "node", .text "Literal"), (.text "int", .int n)])] := .effect rfl he
    exact .node (.nowhere (whenThere_of_none rfl).given) rfl hfields

/-- A number that is too long stands in a literal. The grammar has it, and it is not refused, but not read. -/
theorem literalStatement_unread {n : Int} (hn : ¬ Text.IsWritable n) :
    (Document.list [(Document.int n).literalStatement]).Finite ∧
      IsProgram (fun _ => True) (.list [(Document.int n).literalStatement]) ∧
      ∃ e, Program.load (fun _ => true) none .null (.list [(Document.int n).literalStatement]) = .error e ∧
        e.IsUnwritable := by
  have hfinite : (Document.list [(Document.int n).literalStatement]).Finite :=
    ⟨⟨True.intro, ⟨True.intro, True.intro, True.intro⟩, True.intro⟩, True.intro⟩
  have hprogram : IsProgram (fun _ => True) (.list [(Document.int n).literalStatement]) :=
    isProgram_literalStatement.mpr True.intro
  refine ⟨hfinite, hprogram, ?_⟩
  have hloads := Program.load_loads (fun _ => true) none .null hfinite
  generalize Program.load _ _ _ _ = x at hloads ⊢
  cases hloads with
  | read _ h =>
    have htext : (Document.int n).HasText := isProgram_literalStatement.mp (h _ fun _ ht => ht)
    rw [Document.HasText, Document.plain_int_eq_none hn] at htext
    cases htext
  | refused _ _ h => exact absurd hprogram (h _)
  | unwritable _ he _ _ => exact ⟨_, rfl, he⟩
  | tooDeep hroom _ => cases hroom

/-- The least number that is too long, in the place of an integer literal. -/
theorem long_literal_unread :
    (Document.list [(Document.int (10 ^ Text.longestNumber)).literalStatement]).Finite ∧
      IsProgram (fun _ => True) (.list [(Document.int (10 ^ Text.longestNumber)).literalStatement]) ∧
      ∃ e, Program.load (fun _ => true) none .null
        (.list [(Document.int (10 ^ Text.longestNumber)).literalStatement]) = .error e ∧ e.IsUnwritable :=
  literalStatement_unread Text.not_isWritable_pow

end TreeScript
