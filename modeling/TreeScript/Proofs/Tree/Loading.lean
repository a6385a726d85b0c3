/-
What a node that loads has inside of it: everything that stands under its keys in the place of a node, or among a list
of them, loads too. Null in the place of a node and a body that counts as false have nothing inside of them. The readers
are taken one after the other, each for all the parts that a node of its kind may have.
-/
import TreeScript.Proofs.Tree.Complaint

namespace TreeScript

/-! ## What success needs -/

/-- A computation succeeds only if a statement holds. -/
abbrev Needs {ε α : Type} (Q : Prop) (x : Except ε α) : Prop := Yields (fun _ => Q) x

/-- A list is gone through to its end only if each of its items succeeds. -/
theorem exists_ok_of_mapM {ε α β : Type} {f : α → Except ε β} {l : List α} {bs : List β} (h : l.mapM f = .ok bs) :
    ∀ a ∈ l, ∃ b, f a = .ok b := by
  have hneeds : Needs (∀ a ∈ l, ∃ b, f a = .ok b) (l.mapM f) := by
    clear h
    induction l with
    | nil => exact .ok (by simp)
    | cons a rest ih =>
      have ha : Needs (∃ b, f a = .ok b) (f a) := fun b hb => ⟨b, hb⟩
      rw [List.mapM_cons]
      refine ha.bind fun b hb => ih.bind fun bs hrest => .ok ?_
      rw [List.forall_mem_cons]
      exact ⟨hb, hrest⟩
  exact hneeds bs h

/-! ## The parts of a node -/

/-- A reading gives a list of statements, or of expressions. -/
def Reading.ListLoads (r : Reading) : Position → Prop
  | .statement => ∃ l, r.statements = .ok l
  | .expression => ∃ l, r.expressions = .ok l

/-- A map under a key loads as a node. -/
def Fields.PartLoads (fields : Fields) (key : String) (place : Position) : Prop :=
  ∀ r entries, Document.field? key fields = some r → r.document.content = .map entries → r.Loads place

/-- A list under a key loads as a list of nodes, if there is anything in it. -/
def Fields.ListLoads (fields : Fields) (key : String) (place : Position) : Prop :=
  ∀ r items, Document.field? key fields = some r → r.document.content = .list items → items ≠ [] → r.ListLoads place

/-- All nodes inside of a node of a kind load in their places. -/
structure Fields.PartsLoad (fields : Fields) (kind : String) : Prop where
  node : ∀ part ∈ Node.nodeKeys kind, fields.PartLoads part.1 part.2
  list : ∀ part ∈ Node.listKeys kind, fields.ListLoads part.1 part.2

theorem Document.isTruthy_of_content {d : Document} {items : List Document} (h : d.content = .list items)
    (hne : items ≠ []) : d.isTruthy = true := by
  have hlist : (Document.list items).isTruthy = true := by
    obtain ⟨item, rest, rfl⟩ := List.exists_cons_of_ne_nil hne
    rfl
  cases d with
  | list items' =>
    cases h
    exact hlist
  | labelled label content =>
    cases h
    exact hlist
  | _ => cases h

theorem Fields.isNull_of_given? {fields : Fields} {key : String} {r : Reading} (h : fields.given? key = none)
    (hr : Document.field? key fields = some r) : r.document = .null := by
  unfold given? at h
  rw [hr, Option.filter_eq_none_iff] at h
  have hnull := h r rfl
  cases hd : r.document <;> simp_all [Document.isNull]

namespace Node

attribute [local simp] nodeKeys listKeys

variable {n : Node}

theorem field_needs (key : String) : Yields (fun r => Document.field? key n.fields = some r) (n.field key) := by
  unfold field
  split
  · rename_i h
    exact .ok h
  · exact .error

theorem expression_needs (key : String) : Needs (n.fields.PartLoads key .expression) (n.expression key) := by
  refine .bind (field_needs key) fun r hr e he => ?_
  intro r' entries hr' _
  cases hr.symm.trans hr'
  exact ⟨e, he⟩

theorem optionalExpression_needs (key : String) : Needs (n.fields.PartLoads key .expression) (n.expression? key) := by
  unfold expression?
  split
  · rename_i hnone
    refine .ok fun r entries hr hmap => ?_
    rw [Fields.isNull_of_given? hnone hr] at hmap
    cases hmap
  · rename_i r hr
    have hloads : Needs (r.Loads .expression) r.expression := fun e he => ⟨e, he⟩
    refine hloads.map fun _ h r' entries hr' _ => ?_
    cases (given?_eq_some hr).symm.trans hr'
    exact h

theorem optionalStatement_needs (key : String) : Needs (n.fields.PartLoads key .statement) (n.statement? key) := by
  unfold statement?
  split
  · rename_i hnone
    refine .ok fun r entries hr hmap => ?_
    rw [Fields.isNull_of_given? hnone hr] at hmap
    cases hmap
  · rename_i r hr
    have hloads : Needs (r.Loads .statement) r.statement := fun s hs => ⟨s, hs⟩
    refine hloads.map fun _ h r' entries hr' _ => ?_
    cases (given?_eq_some hr).symm.trans hr'
    exact h

theorem body_needs (key : String) : Needs (n.fields.ListLoads key .statement) (n.body key) := by
  refine .bind (field_needs key) fun r hr => ?_
  split
  · have hloads : Needs (r.ListLoads .statement) r.statements := fun l hl => ⟨l, hl⟩
    refine hloads.bind fun l h => .ok fun r' items hr' _ _ => ?_
    cases hr.symm.trans hr'
    exact h
  · rename_i hfalse
    refine .ok fun r' items hr' hlist hne => ?_
    cases hr.symm.trans hr'
    exact absurd (Document.isTruthy_of_content hlist hne) hfalse

/-- A kind that has no keys for other nodes needs none of them. -/
theorem leaf_needs {α : Type} {x : Except Error α} (hnode : nodeKeys n.kind = []) (hlist : listKeys n.kind = []) :
    Needs (n.fields.PartsLoad n.kind) x := by
  refine fun _ _ => ⟨?_, ?_⟩
  · rw [hnode]
    simp
  · rw [hlist]
    simp

/-! ### Statements -/

theorem declaration_needs (hkind : n.kind = "VarDecl") : Needs (n.fields.PartsLoad n.kind) n.declaration := by
  unfold declaration
  refine .bind (.trivial _) fun _ _ => .bind (.trivial _) fun _ _ => .bind (optionalExpression_needs _) fun _ hinit =>
    .ok ?_
  rw [hkind]
  exact ⟨by simp [hinit], by simp⟩

theorem assignment_needs (hkind : n.kind = "Assign") : Needs (n.fields.PartsLoad n.kind) n.assignment := by
  have hrest (op : Token) : Needs (n.fields.PartsLoad n.kind) (do
      let name ← n.nameField "target"
      return Stmt.assign n.span ⟨n.span, name⟩ (← n.expression "value") op) := by
    refine .bind (.trivial _) fun _ _ => .bind (expression_needs _) fun _ hvalue => .ok ?_
    rw [hkind]
    exact ⟨by simp [hvalue], by simp⟩
  unfold assignment
  dsimp only
  split
  · exact .bind (.trivial _) fun op _ => hrest op
  · exact hrest .assign

theorem output_needs (hkind : n.kind = "Output") : Needs (n.fields.PartsLoad n.kind) n.output := by
  unfold output
  refine .bind (.trivial _) fun _ _ => .bind (expression_needs _) fun _ hvalue => .ok ?_
  rw [hkind]
  exact ⟨by simp [hvalue], by simp⟩

theorem effect_needs (hkind : n.kind = "Expression") : Needs (n.fields.PartsLoad n.kind) n.effect := by
  unfold effect
  refine .bind (expression_needs _) fun _ hexpression => .ok ?_
  rw [hkind]
  exact ⟨by simp [hexpression], by simp⟩

theorem block_needs (hkind : n.kind = "Block") : Needs (n.fields.PartsLoad n.kind) n.block := by
  unfold block
  refine .bind (body_needs _) fun _ hbody => .ok ?_
  rw [hkind]
  exact ⟨by simp, by simp [hbody]⟩

theorem forLoop_needs (hkind : n.kind = "For") : Needs (n.fields.PartsLoad n.kind) n.forLoop := by
  unfold forLoop
  refine .bind (optionalStatement_needs _) fun _ hinit => .bind (optionalExpression_needs _) fun _ htest =>
    .bind (optionalStatement_needs _) fun _ hupdate => .bind (body_needs _) fun _ hbody => .ok ?_
  rw [hkind]
  exact ⟨by simp [hinit, htest, hupdate], by simp [hbody]⟩

theorem whileLoop_needs (hkind : n.kind = "While") : Needs (n.fields.PartsLoad n.kind) n.whileLoop := by
  unfold whileLoop
  refine .bind (expression_needs _) fun _ htest => .bind (body_needs _) fun _ hbody => .ok ?_
  rw [hkind]
  exact ⟨by simp [htest], by simp [hbody]⟩

/-- The other branch of a condition may be one node or a list of them. -/
theorem elseBranch_needs :
    Needs (n.fields.PartLoads "else" .statement ∧ n.fields.ListLoads "else" .statement) n.elseBranch := by
  unfold elseBranch
  split
  · rename_i hnone
    refine .ok ⟨fun r entries hr hmap => ?_, fun r items hr hlist => ?_⟩
    · rw [Fields.isNull_of_given? hnone hr] at hmap
      cases hmap
    · rw [Fields.isNull_of_given? hnone hr] at hlist
      cases hlist
  · rename_i r hr
    have hfound := given?_eq_some hr
    split
    · rename_i items hlist
      have hloads : Needs (r.ListLoads .statement) r.statements := fun l hl => ⟨l, hl⟩
      refine hloads.map fun _ h => ⟨fun r' entries hr' hmap => ?_, fun r' items hr' _ _ => ?_⟩
      · cases hfound.symm.trans hr'
        rw [hlist] at hmap
        cases hmap
      · cases hfound.symm.trans hr'
        exact h
    · rename_i hother
      have hloads : Needs (r.Loads .statement) r.statement := fun s hs => ⟨s, hs⟩
      refine hloads.map fun _ h => ⟨fun r' entries hr' _ => ?_, fun r' items hr' hlist => ?_⟩
      · cases hfound.symm.trans hr'
        exact h
      · cases hfound.symm.trans hr'
        exact absurd hlist (hother items)

theorem ifElse_needs (hkind : n.kind = "If") : Needs (n.fields.PartsLoad n.kind) n.ifElse := by
  unfold ifElse
  refine .bind elseBranch_needs fun _ helse => .bind (expression_needs _) fun _ htest => .bind (body_needs _)
    fun _ hthen => .ok ?_
  rw [hkind]
  exact ⟨by simp [htest, helse.1], by simp [hthen, helse.2]⟩

theorem statement_needs : Needs (n.fields.PartsLoad n.kind) n.statement := by
  unfold statement
  split
  · rename_i hkind
    exact declaration_needs hkind
  · rename_i hkind
    exact assignment_needs hkind
  · rename_i hkind
    exact leaf_needs (by rw [hkind]; rfl) (by rw [hkind]; rfl)
  · rename_i hkind
    exact output_needs hkind
  · rename_i hkind
    exact effect_needs hkind
  · rename_i hkind
    exact block_needs hkind
  · rename_i hkind
    exact forLoop_needs hkind
  · rename_i hkind
    exact whileLoop_needs hkind
  · rename_i hkind
    exact ifElse_needs hkind
  · exact .error

/-! ### Expressions -/

theorem binary_needs (hkind : n.kind = "Binary") : Needs (n.fields.PartsLoad n.kind) n.binary := by
  unfold binary
  refine .bind (expression_needs _) fun _ hleft => .bind (.trivial _) fun _ _ => .bind (expression_needs _)
    fun _ hright => .ok ?_
  rw [hkind]
  exact ⟨by simp [hleft, hright], by simp⟩

theorem unary_needs (hkind : n.kind = "Unary") : Needs (n.fields.PartsLoad n.kind) n.unary := by
  unfold unary
  refine .bind (.trivial _) fun _ _ => .bind (expression_needs _) fun _ hoperand => .ok ?_
  rw [hkind]
  exact ⟨by simp [hoperand], by simp⟩

/-- The arguments are found first and read last. -/
theorem args_needs :
    Yields (fun args => Needs (n.fields.ListLoads "args" .expression) (args.getD (.ok []))) n.args := by
  unfold args
  split
  · rename_i hnone
    refine .ok (.ok fun r items hr => ?_)
    rw [hnone] at hr
    cases hr
  · rename_i r hr
    split
    · refine .ok fun l hl r' items hr' _ _ => ?_
      cases hr.symm.trans hr'
      exact ⟨l, hl⟩
    · rename_i hother
      split
      · exact .error
      · refine .ok (.ok fun r' items hr' hlist => ?_)
        cases hr.symm.trans hr'
        exact absurd hlist (hother items)

theorem call_needs (hkind : n.kind = "Call") : Needs (n.fields.PartsLoad n.kind) n.call := by
  unfold call
  refine .bind args_needs fun _ hargs => .bind (.trivial _) fun _ _ => .bind (.trivial _) fun _ _ =>
    .bind hargs fun _ hloads => .ok ?_
  rw [hkind]
  exact ⟨by simp, by simp [hloads]⟩

theorem expressionOf_needs : Needs (n.fields.PartsLoad n.kind) n.expressionOf := by
  unfold expressionOf
  split
  · rename_i hkind
    exact leaf_needs (by rw [hkind]; rfl) (by rw [hkind]; rfl)
  · rename_i hkind
    exact leaf_needs (by rw [hkind]; rfl) (by rw [hkind]; rfl)
  · rename_i hkind
    exact binary_needs hkind
  · rename_i hkind
    exact unary_needs hkind
  · rename_i hkind
    exact call_needs hkind
  · exact .error

end Node

end TreeScript
