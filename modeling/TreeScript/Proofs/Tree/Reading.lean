/-
Every program that a document gives is sound: all its operators fit their nodes, its literals and
names are what they should be, each call has a name for its receiver, at the place of the call, and
no node stands where it does not belong. The readings of a document are sound by recursion on the
document, since a reading only puts together what the readings of its parts give.
-/
import TreeScript.Proofs.Tree.Nodes
import TreeScript.Tree.Reading

namespace TreeScript

/-! ## Computations that may fail -/

/-- Every value that a computation gives satisfies a condition. -/
def Yields {ε α : Type} (P : α → Prop) (x : Except ε α) : Prop := ∀ a, x = .ok a → P a

namespace Yields

variable {ε α β : Type} {P : α → Prop} {Q : β → Prop}

theorem ok {a : α} (h : P a) : Yields P (.ok a : Except ε α) := by
  rintro b ⟨⟩
  exact h

theorem error {e : ε} : Yields P (.error e) := by
  rintro b ⟨⟩

theorem trivial (x : Except ε α) : Yields (fun _ => True) x := by
  intro a _
  exact True.intro

theorem bind {x : Except ε α} {f : α → Except ε β} (hx : Yields P x) (hf : ∀ a, P a → Yields Q (f a)) :
    Yields Q (x >>= f) := by
  intro b hb
  cases x with
  | error e => cases hb
  | ok a => exact hf a (hx a rfl) b hb

theorem map {x : Except ε α} {f : α → β} (hx : Yields P x) (hf : ∀ a, P a → Q (f a)) : Yields Q (x.map f) := by
  intro b hb
  cases x with
  | error e => cases hb
  | ok a =>
    cases hb
    exact hf a (hx a rfl)

/-- A computation that fails after another one. -/
theorem bind_error {x : Except ε α} {e : α → ε} : Yields Q (x >>= fun a => (.error (e a) : Except ε β)) :=
  .bind (.trivial x) fun _ _ => .error

theorem mapM {f : α → Except ε β} {l : List α} (hf : ∀ a ∈ l, Yields Q (f a)) :
    Yields (fun l => ∀ b ∈ l, Q b) (l.mapM f) := by
  induction l with
  | nil => exact .ok (by simp)
  | cons a rest ih =>
    rw [List.forall_mem_cons] at hf
    rw [List.mapM_cons]
    refine Yields.bind hf.1 ?_
    intro b hb
    refine Yields.bind (ih hf.2) ?_
    intro bs hbs
    refine Yields.ok ?_
    rw [List.forall_mem_cons]
    exact ⟨hb, hbs⟩

end Yields

/-! ## Fields -/

/-- A reading is sound if the trees that it gives are. -/
structure Reading.Sound (r : Reading) : Prop where
  statement : Yields Stmt.Sound r.statement
  expression : Yields Expr.Sound r.expression
  statements : Yields (fun l => ∀ s ∈ l, s.Sound) r.statements
  expressions : Yields (fun l => ∀ e ∈ l, e.Sound) r.expressions

/-- Fields are sound if the readings of their values are. -/
def Fields.Sound (fields : Fields) : Prop := ∀ f ∈ fields, f.2.Sound

/-- What is found under a key is the value of one of the entries. -/
theorem Document.field?_mem {α : Type} {name : String} {entries : List (Document × α)} {a : α}
    (h : field? name entries = some a) : ∃ k, (k, a) ∈ entries := by
  induction entries with
  | nil => cases h
  | cons entry rest ih =>
    obtain ⟨k, v⟩ := entry
    rw [field?] at h
    split at h
    · cases h
      exact ⟨k, List.mem_cons_self ..⟩
    · obtain ⟨k', hk⟩ := ih h
      exact ⟨k', List.mem_cons_of_mem _ hk⟩

theorem Fields.Sound.found {fields : Fields} (hf : fields.Sound) {key : String} {r : Reading}
    (h : Document.field? key fields = some r) : r.Sound := by
  obtain ⟨k, hk⟩ := Document.field?_mem h
  exact hf _ hk

theorem Fields.Sound.given {fields : Fields} (hf : fields.Sound) {key : String} {r : Reading}
    (h : fields.given? key = some r) : r.Sound :=
  hf.found (Option.eq_some_of_filter_eq_some h)

namespace Node

variable {n : Node}

theorem nameField_yields (n : Node) (key : String) : Yields (· ≠ "") (n.nameField key) := by
  unfold nameField
  refine Yields.bind (.trivial _) ?_
  intro r _
  split
  · split
    · exact .error
    · rename_i h
      exact .ok h
  · exact .error

theorem operator_yields (n : Node) (allowed : Token → Bool) :
    Yields (fun op => allowed op = true) (n.operator allowed) := by
  unfold operator
  refine Yields.bind (.trivial _) ?_
  intro r _
  dsimp only
  split
  · rename_i op hop
    split at hop
    · exact .ok (Option.filter_eq_some_iff.mp hop).2
    · cases hop
  · exact .bind_error

section

variable (hn : n.fields.Sound)

include hn

theorem field_yields (key : String) : Yields Reading.Sound (n.field key) := by
  unfold field
  split
  · rename_i h
    exact .ok (hn.found h)
  · exact .error

theorem expression_yields (key : String) : Yields Expr.Sound (n.expression key) :=
  .bind (field_yields hn key) fun _ hr => hr.expression

theorem optionalExpression_yields (key : String) : Yields (fun o => ∀ e ∈ o, e.Sound) (n.expression? key) := by
  unfold expression?
  split
  · exact .ok (by simp)
  · rename_i h
    exact .map (hn.given h).expression (by simp)

theorem optionalStatement_yields (key : String) : Yields (fun o => ∀ s ∈ o, s.Sound) (n.statement? key) := by
  unfold statement?
  split
  · exact .ok (by simp)
  · rename_i h
    exact .map (hn.given h).statement (by simp)

theorem body_yields (key : String) : Yields (fun b => ∀ s ∈ b.statements, s.Sound) (n.body key) := by
  unfold body
  refine Yields.bind (field_yields hn key) ?_
  intro r hr
  split
  · refine Yields.bind hr.statements ?_
    intro l hl
    exact .ok hl
  · exact .ok (by simp [Block.statements])

/-! ### Statements -/

theorem declaration_yields : Yields Stmt.Sound n.declaration := by
  unfold declaration
  refine Yields.bind (.trivial _) ?_
  intro isMutable _
  refine Yields.bind (nameField_yields n _) ?_
  intro name hname
  refine Yields.bind (optionalExpression_yields hn _) ?_
  intro init hinit
  refine Yields.ok ?_
  exact Stmt.sound_declare.mpr ⟨hinit, hname⟩

theorem assignment_yields : Yields Stmt.Sound n.assignment := by
  have hrest (op : Token) (hop : op.isAssignment = true) : Yields Stmt.Sound (do
      let name ← n.nameField "target"
      return .assign n.span ⟨n.span, name⟩ (← n.expression "value") op) := by
    refine Yields.bind (nameField_yields n _) ?_
    intro name hname
    refine Yields.bind (expression_yields hn _) ?_
    intro value hvalue
    refine Yields.ok ?_
    exact Stmt.sound_assign.mpr ⟨hvalue, rfl, hname, hop⟩
  unfold assignment
  dsimp only
  split
  · exact .bind (operator_yields n _) hrest
  · exact hrest .assign rfl

omit hn in
theorem update_yields : Yields Stmt.Sound n.update := by
  unfold update
  refine Yields.bind (nameField_yields n _) ?_
  intro name hname
  refine Yields.bind (operator_yields n _) ?_
  intro op hop
  refine Yields.ok ?_
  exact Stmt.sound_update.mpr ⟨rfl, hname, hop⟩

theorem output_yields : Yields Stmt.Sound n.output := by
  unfold output
  refine Yields.bind (.trivial _) ?_
  intro severity _
  refine Yields.bind (expression_yields hn _) ?_
  intro value hvalue
  refine Yields.ok ?_
  exact Stmt.sound_output.mpr ⟨hvalue, True.intro⟩

theorem effect_yields : Yields Stmt.Sound n.effect := by
  unfold effect
  refine Yields.bind (expression_yields hn _) ?_
  intro e he
  refine Yields.ok ?_
  exact Stmt.sound_expression.mpr he

theorem block_yields : Yields Stmt.Sound n.block := by
  unfold block
  refine Yields.bind (body_yields hn _) ?_
  intro body hbody
  refine Yields.ok ?_
  exact Stmt.sound_block.mpr hbody

theorem forLoop_yields : Yields Stmt.Sound n.forLoop := by
  unfold forLoop
  refine Yields.bind (optionalStatement_yields hn _) ?_
  intro init hinit
  refine Yields.bind (optionalExpression_yields hn _) ?_
  intro test htest
  refine Yields.bind (optionalStatement_yields hn _) ?_
  intro update hupdate
  refine Yields.bind (body_yields hn _) ?_
  intro body hbody
  refine Yields.ok ?_
  exact Stmt.sound_forLoop.mpr ⟨htest, ⟨hinit, hupdate⟩, hbody⟩

theorem whileLoop_yields : Yields Stmt.Sound n.whileLoop := by
  unfold whileLoop
  refine Yields.bind (expression_yields hn _) ?_
  intro test htest
  refine Yields.bind (body_yields hn _) ?_
  intro body hbody
  refine Yields.ok ?_
  exact Stmt.sound_whileLoop.mpr ⟨htest, hbody⟩

theorem elseBranch_yields : Yields (fun o => ∀ s ∈ o, s.Sound) n.elseBranch := by
  unfold elseBranch
  split
  · exact .ok (by simp)
  · rename_i h
    have hr := hn.given h
    split
    · -- A list is read as a block at the place of the condition.
      refine Yields.map hr.statements ?_
      intro l hl
      have hblock : (Stmt.block (.mk n.span l)).Sound := Stmt.sound_block.mpr hl
      simpa using hblock
    · exact .map hr.statement (by simp)

theorem ifElse_yields : Yields Stmt.Sound n.ifElse := by
  unfold ifElse
  refine Yields.bind (elseBranch_yields hn) ?_
  intro elseBranch helse
  refine Yields.bind (expression_yields hn _) ?_
  intro test htest
  refine Yields.bind (body_yields hn _) ?_
  intro body hbody
  refine Yields.ok ?_
  exact Stmt.sound_ifElse.mpr ⟨htest, hbody, helse⟩

theorem statement_yields : Yields Stmt.Sound n.statement := by
  unfold statement
  split
  · exact declaration_yields hn
  · exact assignment_yields hn
  · exact update_yields
  · exact output_yields hn
  · exact effect_yields hn
  · exact block_yields hn
  · exact forLoop_yields hn
  · exact whileLoop_yields hn
  · exact ifElse_yields hn
  · exact .error

/-! ### Expressions -/

omit hn in
theorem literal_yields : Yields Expr.Sound n.literal := by
  unfold literal
  split
  · exact .bind_error
  · exact .bind_error
  · exact .bind (.trivial _) fun _ _ => .ok (Expr.sound_literal.mpr True.intro)
  · exact .ok (Expr.sound_literal.mpr True.intro)
  · exact .bind_error
  · exact .ok (Expr.sound_literal.mpr True.intro)
  · exact .bind_error
  · exact .error

omit hn in
theorem identifier_yields : Yields Expr.Sound n.identifier := by
  unfold identifier
  refine Yields.bind (nameField_yields n _) ?_
  intro name hname
  refine Yields.ok ?_
  exact Expr.sound_identifier.mpr hname

theorem binary_yields : Yields Expr.Sound n.binary := by
  unfold binary
  refine Yields.bind (expression_yields hn _) ?_
  intro left hleft
  refine Yields.bind (operator_yields n _) ?_
  intro op hop
  refine Yields.bind (expression_yields hn _) ?_
  intro right hright
  refine Yields.ok ?_
  exact Expr.sound_binary.mpr ⟨hop, hleft, hright⟩

theorem unary_yields : Yields Expr.Sound n.unary := by
  unfold unary
  refine Yields.bind (operator_yields n _) ?_
  intro op hop
  refine Yields.bind (expression_yields hn _) ?_
  intro operand hoperand
  refine Yields.ok ?_
  exact Expr.sound_unary.mpr ⟨hop, hoperand⟩

/-- The arguments of a call, if there are any, are sound. -/
theorem args_yields : Yields (fun o => Yields (fun l => ∀ e ∈ l, e.Sound) (o.getD (.ok []))) n.args := by
  have hnone : Yields (fun l => ∀ e ∈ l, e.Sound) ((none : Option (Except Error (List Expr))).getD (.ok [])) :=
    .ok (by simp)
  unfold args
  split
  · exact .ok hnone
  · rename_i h
    split
    · exact .ok (hn.found h).expressions
    · split
      · exact .error
      · exact .ok hnone

theorem call_yields : Yields Expr.Sound n.call := by
  unfold call
  refine Yields.bind (args_yields hn) ?_
  intro args hargs
  refine Yields.bind (nameField_yields n _) ?_
  intro object hobject
  refine Yields.bind (nameField_yields n _) ?_
  intro method hmethod
  -- The arguments are read after the names, and may fail then.
  refine Yields.bind hargs ?_
  intro l hl
  refine Yields.ok ?_
  exact Expr.sound_call.mpr ⟨⟨⟨object, rfl, hobject⟩, hmethod⟩, hl⟩

theorem expressionOf_yields : Yields Expr.Sound n.expressionOf := by
  unfold expressionOf
  split
  · exact literal_yields
  · exact identifier_yields
  · exact binary_yields hn
  · exact unary_yields hn
  · exact call_yields hn
  · exact .error

end

end Node

/-! ## Documents -/

namespace Reading

variable {filename : Option String}

theorem node_yields {α : Type} {P : α → Prop} {wanted : Position} {fields : Fields}
    {build : Node → Except Error α} (h : ∀ n : Node, n.fields = fields → Yields P (build n)) :
    Yields P (node filename wanted fields build) := by
  unfold node
  split
  · exact .bind (.trivial _) fun span _ => h _ rfl
  · exact .bind (.trivial _) fun _ _ => .bind_error

theorem sound_other (d : Document) : (other d).Sound := ⟨.error, .error, .error, .error⟩

theorem sound_ofFields {d : Document} {fields : Fields} (h : fields.Sound) : (ofFields filename d fields).Sound where
  statement := node_yields fun _ hn => Node.statement_yields (hn ▸ h)
  expression := node_yields fun _ hn => Node.expressionOf_yields (hn ▸ h)
  statements := .error
  expressions := .error

theorem sound_ofItems {d : Document} {items : List Reading} (h : ∀ r ∈ items, r.Sound) : (ofItems d items).Sound where
  statement := .error
  expression := .error
  statements := .mapM fun r hr => (h r hr).statement
  expressions := .mapM fun r hr => (h r hr).expression

/-- A reading that goes on without end gives no tree. -/
theorem sound_endless : ∀ d, (endless d).Sound
  | .labelled _ content =>
    have h := sound_endless content
    ⟨h.statement, h.expression, h.statements, h.expressions⟩
  | .null | .bool _ | .int _ | .double _ | .text _ | .date _ | .moment _ | .bytes _ | .list _ | .pair _ _ | .set _
  | .map _ | .again _ => ⟨.error, .error, .error, .error⟩

theorem sound_ofEnclosing (depth : Nat) (d : Document) : (ofEnclosing filename depth d).Sound := by
  induction depth generalizing d with
  | zero => exact sound_endless d
  | succ depth ih =>
    rw [ofEnclosing]
    split
    · apply sound_ofFields
      intro f hf
      obtain ⟨entry, -, rfl⟩ := List.mem_map.mp hf
      exact ih entry.2
    · apply sound_ofItems
      intro r hr
      obtain ⟨item, -, rfl⟩ := List.mem_map.mp hr
      exact ih item
    · exact sound_endless d

mutual

/-- The reading of a document is sound, whatever the documents around it are. -/
theorem sound_inside (wholes : List (Nat × Document)) : ∀ d, (inside filename wholes d).Sound
  | .map entries => by
    rw [inside]
    exact sound_ofFields (sound_readEntries wholes entries)
  | .list items => by
    rw [inside]
    exact sound_ofItems (sound_readItems wholes items)
  | .labelled label content => by
    rw [inside]
    have h := sound_inside ((label, (Document.labelled label content).inside wholes) :: wholes) content
    exact ⟨h.statement, h.expression, h.statements, h.expressions⟩
  | .again label => by
    rw [inside]
    cases wholes.lookup label with
    | none => exact sound_other _
    | some whole => exact sound_ofEnclosing 2 whole
  | .null | .bool _ | .int _ | .double _ | .text _ | .date _ | .moment _ | .bytes _ | .pair _ _ | .set _ =>
    sound_other _

theorem sound_readItems (wholes : List (Nat × Document)) :
    ∀ items, ∀ r ∈ readItems filename wholes items, r.Sound
  | [] => by simp [readItems]
  | d :: rest => by
    rw [readItems, List.forall_mem_cons]
    exact ⟨sound_inside wholes d, sound_readItems wholes rest⟩

theorem sound_readEntries (wholes : List (Nat × Document)) :
    ∀ entries, Fields.Sound (readEntries filename wholes entries)
  | [] => by simp [readEntries, Fields.Sound]
  | (k, v) :: rest => by
    rw [readEntries, Fields.Sound, List.forall_mem_cons]
    exact ⟨sound_inside wholes v, sound_readEntries wholes rest⟩

end

end Reading

/-! ## Programs -/

theorem Program.readStatements_yields (filename : Option String) (d : Document) :
    Yields (fun l => ∀ s ∈ l, s.Sound) (readStatements filename d) := by
  unfold readStatements
  split
  · exact .ok (by simp)
  · exact (Reading.sound_inside [] d).statements
  · exact .error

/-- All statements of a program that a document gives are sound. -/
theorem Program.ofDocument_yields (filename : Option String) (name d : Document) :
    Yields (fun p => ∀ s ∈ p.statements, s.Sound) (ofDocument filename name d) := by
  unfold ofDocument
  split
  · split
    · exact .error
    · refine Yields.bind (readStatements_yields filename _) ?_
      intro l hl
      exact .ok hl
  · refine Yields.bind (readStatements_yields filename _) ?_
    intro l hl
    exact .ok hl

end TreeScript
