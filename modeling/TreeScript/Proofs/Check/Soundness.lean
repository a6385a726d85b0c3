/-
What a check promises about the runs of a program that a document gives. Every error of a run that
lies in a literal, in the scope of a name or in the form of a call is among the findings, if the
limit on errors was not reached; a check without errors therefore rules such runs out.

The promise needs trees of the customary shape, in which no declaration stands where it is skipped or
repeated in the frame of the statements around it. Documents can give other trees. For them a check
without errors rules out malformed literals, and each of the other errors only as far as the tree
is steady.
-/
import TreeScript.Proofs.Check.Prediction

namespace TreeScript

/-! ## Customary trees -/

/-- The customary shape of a node: the other branch of a condition is a block or one more condition, and no
loop goes on with a declaration. -/
def Stmt.Customary : Stmt → Prop
  | .ifElse _ _ _ none => True
  | .ifElse _ _ _ (some (.block _)) => True
  | .ifElse _ _ _ (some (.ifElse ..)) => True
  | .ifElse _ _ _ (some _) => False
  | .forLoop _ _ _ (some (.declare ..)) _ => False
  | _ => True

namespace Stmt

/-- In customary trees, only a declaration declares a name in the frame that it stands in. -/
theorem declared?_eq_none {s : Stmt} (h : s.All Customary)
    (hs : ∀ span name isMutable init, s ≠ .declare span name isMutable init) : s.declared? = none := by
  induction s using Stmt.induction with
  | declare span name isMutable init => exact absurd rfl (hs span name isMutable init)
  | ifElse span test thenBranch elseBranch _ ihElse _ =>
    obtain ⟨hnode, -, helse⟩ := all_ifElse.mp h
    cases elseBranch with
    | none => rfl
    | some s =>
      apply ihElse s rfl (helse s rfl)
      rintro _ _ _ _ rfl
      exact hnode
  | _ => rfl

/-- The same for a statement that may be missing. -/
theorem declared?_bind_eq_none {s? : Option Stmt} (h : ∀ s ∈ s?, s.All Customary)
    (hs : ∀ span name isMutable init, s? ≠ some (.declare span name isMutable init)) :
    s?.bind declared? = none := by
  cases s? with
  | none => rfl
  | some s =>
    apply declared?_eq_none (h s rfl)
    rintro span name isMutable init rfl
    exact hs span name isMutable init rfl

theorem steadyLoop_of_customary {s : Stmt} (h : s.All Customary) : s.SteadyLoop := by
  cases s with
  | forLoop span init test update body =>
    obtain ⟨hnode, ⟨-, hupdate⟩, -⟩ := all_forLoop.mp h
    apply declared?_bind_eq_none hupdate
    rintro _ _ _ _ rfl
    exact hnode
  | _ => trivial

theorem steadyBranch_of_customary {s : Stmt} (h : s.All Customary) : s.SteadyBranch := by
  cases s with
  | ifElse span test thenBranch elseBranch =>
    obtain ⟨hnode, -, helse⟩ := all_ifElse.mp h
    apply declared?_bind_eq_none helse
    rintro _ _ _ _ rfl
    exact hnode
  | _ => trivial

end Stmt

namespace Check

/-! ## Sample documents -/

/-- The document of a node without a position. -/
def nodeDocument (kind : String) (fields : List (String × Document)) : Document :=
  .map ((.text "node", .text kind) :: fields.map fun (key, value) => (.text key, value))

/-- The literal `true`. -/
def yesDocument : Document := nodeDocument "Literal" [("bool", .bool true)]

/-- The negative of `true`, which there is none of. -/
def negationDocument : Document := nodeDocument "Unary" [("op", .text "-"), ("operand", yesDocument)]

/-- A statement that reads the variable `x`. -/
def readingDocument : Document :=
  nodeDocument "Expression" [("expression", nodeDocument "Identifier" [("name", .text "x")])]

def declarationDocument (kind : String) : Document :=
  nodeDocument "VarDecl" [("name", .text "x"), ("kind", .text kind), ("init", yesDocument)]

def assignmentDocument : Document := nodeDocument "Assign" [("target", .text "x"), ("value", yesDocument)]

/-- A loop that never stops on its own, with what it does between two passes. -/
def loopDocument (update : Document) (body : List Document) : Document :=
  nodeDocument "For" [("test", yesDocument), ("update", update), ("body", .list body)]

/-- A condition that does not come to its other branch, a declaration. -/
def skippedDocument : Document :=
  nodeDocument "If" [("test", yesDocument), ("then", .list []), ("else", declarationDocument "let")]

/-! ## Predicted errors -/

variable {filename : Option String} {name d : Document} {p : Program} {loops branches : Prop}

theorem regular_of_ofDocument (hp : Program.ofDocument filename name d = .ok p)
    (hloops : loops → ∀ n ∈ p.nodes, n.SteadyLoop) (hbranches : branches → ∀ n ∈ p.nodes, n.SteadyBranch) :
    ∀ s ∈ p.statements, s.All (Regular loops branches) := by
  intro s hs n hn
  constructor
  · exact Program.ofDocument_yields filename name d p hp s hs n hn
  · intro hl
    exact forall_statementNodes.mp (hloops hl) s hs n hn
  · intro hb
    exact forall_statementNodes.mp (hbranches hb) s hs n hn

/-- What a program fails with that a document gives, its check foretells, as far as the tree is steady. -/
theorem run_foretold_of_ofDocument (hp : Program.ofDocument filename name d = .ok p) {maxErrors : Int}
    (hfull : (Check.run p maxErrors).isFull = false) {limit : Nat} {e : Error}
    (he : (p.run limit).ending = .error e) :
    (Check.run p maxErrors).Foretells (∀ n ∈ p.nodes, n.SteadyLoop) (∀ n ∈ p.nodes, n.SteadyBranch)
      (p.run limit).final e :=
  run_foretold (regular_of_ofDocument hp id id) hfull limit he

/-- A check without errors has reported none. -/
theorem not_reports {maxErrors : Int} (h : (Check.run p maxErrors).hasErrors = false) {code message : String}
    {span : Option Span} : ¬ (Check.run p maxErrors).Reports code message span := by
  rintro ⟨e, he, herror, -⟩
  have hpos : 0 < (Check.run p maxErrors).diagnostics.toList.countP (·.isError) :=
    List.countP_pos_iff.mpr ⟨e, he, herror⟩
  rw [← counted_run p maxErrors, Collector.hasErrors_eq_false_iff.mp h] at hpos
  exact absurd hpos (lt_irrefl 0)

/-- Under a check without errors, no run ends in what such a check would have foreseen. -/
theorem not_foreseen {maxErrors : Int} (h : (Check.run p maxErrors).hasErrors = false) {st : TreeScript.State}
    {e : Error} (hf : (Check.run p maxErrors).Foretells loops branches st e) :
    ¬ e.cause.Covered loops branches ∧ (loops → e.cause.isWrongCall = false) := by
  have hother : st.failedReceiver? e.cause = none := by
    by_contra hs
    obtain ⟨span, hs⟩ := Option.ne_none_iff_exists'.mp hs
    obtain ⟨message, hm⟩ := hf.receiver span hs
    exact not_reports h hm
  have hforeseen := hf.other hother
  constructor
  · intro hc
    exact not_reports h (hforeseen.covered hc)
  · intro hl
    by_contra hw
    obtain ⟨message, hm⟩ := hforeseen.wrongCall (by simpa using hw) hl
    exact not_reports h hm

/-- Every error of a run that lies in the scope of a name, in a literal or in the form of a call is predicted by the
check of a customary program. An undefined receiver is predicted as a fault of the call, every other such error with
its code, its message and its place. From some limit on errors on no check is cut short, and one that finds no error
rules all these errors out. -/
theorem run_error_predicted (hp : Program.ofDocument filename name d = .ok p) (hshape : ∀ n ∈ p.nodes, n.Customary) :
    (∃ bound : Int, ∀ maxErrors, bound ≤ maxErrors → (Check.run p maxErrors).isFull = false) ∧
    (∀ maxErrors, (Check.run p maxErrors).isFull = false → ∀ limit e, (p.run limit).ending = .error e →
      ((p.run limit).failedReceiver? = none → e.cause.isScopeOrLiteral →
        (Check.run p maxErrors).Reports e.cause.code e.cause.message e.span) ∧
      (∀ span, (p.run limit).failedReceiver? = some span →
        ∃ message, (Check.run p maxErrors).Reports "E405" message (some span)) ∧
      (e.cause.isWrongCall → ∃ message, (Check.run p maxErrors).Reports "E405" message e.span)) ∧
    ∀ maxErrors, 1 ≤ maxErrors → (Check.run p maxErrors).hasErrors = false →
      ∀ limit e, (p.run limit).ending = .error e →
        e.cause.isScopeOrLiteral = false ∧ e.cause.isWrongCall = false := by
  have hall : ∀ n ∈ p.nodes, n.All Stmt.Customary := by
    unfold Program.nodes at hshape ⊢
    rw [forall_statementNodes] at hshape ⊢
    intro s hs
    exact (hshape s hs).all
  have hloops : ∀ n ∈ p.nodes, n.SteadyLoop := fun n hn => Stmt.steadyLoop_of_customary (hall n hn)
  have hbranches : ∀ n ∈ p.nodes, n.SteadyBranch := fun n hn => Stmt.steadyBranch_of_customary (hall n hn)
  refine ⟨exists_limit p, ?_, ?_⟩
  · intro maxErrors hfull limit e he
    have hforetold := run_foretold_of_ofDocument hp hfull he
    rw [Report.failedReceiver?_eq he]
    refine ⟨?_, hforetold.receiver, ?_⟩
    · intro hnone hcause
      exact (hforetold.other hnone).covered (Cause.covered_of_isScopeOrLiteral hloops hbranches hcause)
    · intro hwrong
      exact hforetold.wrongCall hwrong hloops
  · intro maxErrors hpos hclean limit e he
    have hfull := isFull_eq_false_of_hasErrors hpos hclean
    obtain ⟨hcovered, hcall⟩ := not_foreseen hclean (run_foretold_of_ofDocument hp hfull he)
    constructor
    · by_contra hcause
      apply hcovered
      exact Cause.covered_of_isScopeOrLiteral hloops hbranches (by simpa using hcause)
    · exact hcall hloops

/-- Reading a name that nothing declares. -/
theorem run_error_predicted_unknown_name :
    ∃ p, Program.ofDocument none .null (.list [readingDocument]) = .ok p ∧ (∀ n ∈ p.nodes, n.Customary) ∧
      (p.run 1).ending = .error ((Cause.undefinedVariable "x").at .none) ∧
      (Check.run p 20).Reports "E403" "'x' is not defined" (some .none) := by
  let p : Program := ⟨[.expression .none (.identifier .none "x")], .null⟩
  have hp : Program.ofDocument none .null (.list [readingDocument]) = .ok p := rfl
  have hshape : ∀ n ∈ p.nodes, n.Customary := by
    simp [p, Program.nodes, statementNodes, Stmt.nodes, Stmt.Customary]
  have hrun : (p.run 1).ending = .error ((Cause.undefinedVariable "x").at .none) := rfl
  exact ⟨p, hp, hshape, hrun, ((run_error_predicted hp hshape).2.1 20 rfl 1 _ hrun).1 rfl rfl⟩

/-! ## Clean checks -/

/-- A check without errors, under the usual limit, rules out malformed literals. It rules out redeclarations if no
loop declares a name as it goes on, undefined names if no condition declares one in its other branch, and assignments
to constants if both hold. -/
theorem clean_check_sound (hp : Program.ofDocument filename name d = .ok p)
    (hclean : (Check.run p Collector.defaultLimit).hasErrors = false) (limit : Nat) {e : Error}
    (he : (p.run limit).ending = .error e) :
    e.cause.code ≠ "E401" ∧
    ((∀ n ∈ p.nodes, n.SteadyLoop) → e.cause.code ≠ "E402") ∧
    ((∀ n ∈ p.nodes, n.SteadyBranch) → e.cause.code ≠ "E403") ∧
    ((∀ n ∈ p.nodes, n.SteadyLoop) → (∀ n ∈ p.nodes, n.SteadyBranch) → e.cause.code ≠ "E404") := by
  have hfull := isFull_eq_false_of_hasErrors (by decide) hclean
  obtain ⟨hcovered, -⟩ := not_foreseen hclean (run_foretold_of_ofDocument hp hfull he)
  obtain ⟨h401, h402, h403, h404⟩ := Cause.covered_of_code e.cause
  refine ⟨?_, ?_, ?_, ?_⟩
  · intro hc
    exact hcovered (h401 hc)
  · intro hl hc
    exact hcovered (h402 hc hl)
  · intro hb hc
    exact hcovered (h403 hc hb)
  · intro hl hb hc
    exact hcovered (h404 hc hl hb)

/-- A loop that goes on with a step that fails, though not for its names. -/
theorem clean_check_sound_failing_step :
    ∃ p e, Program.ofDocument none .null
        (.list [loopDocument (nodeDocument "Expression" [("expression", negationDocument)]) []]) = .ok p ∧
      (Check.run p Collector.defaultLimit).hasErrors = false ∧ (p.run 1).ending = .error e ∧
      e.cause.code ≠ "E401" ∧ e.cause.code ≠ "E402" ∧ e.cause.code ≠ "E403" ∧ e.cause.code ≠ "E404" := by
  let yes : Expr := .literal .none (.boolean true)
  let p : Program := ⟨[.forLoop .none none (some yes) (some (.expression .none (.unary .none .minus yes)))
    (.mk .none [])], .null⟩
  have hp : Program.ofDocument none .null
      (.list [loopDocument (nodeDocument "Expression" [("expression", negationDocument)]) []]) = .ok p := rfl
  have hloops : ∀ n ∈ p.nodes, n.SteadyLoop := by
    simp [p, Program.nodes, statementNodes, Stmt.nodes, optionalNodes, Block.nodes, Stmt.SteadyLoop, Stmt.declared?]
  have hbranches : ∀ n ∈ p.nodes, n.SteadyBranch := by
    simp [p, Program.nodes, statementNodes, Stmt.nodes, optionalNodes, Block.nodes, Stmt.SteadyBranch]
  have hclean : (Check.run p Collector.defaultLimit).hasErrors = false := rfl
  have hrun : (p.run 1).ending = .error ((Cause.typeMismatch (.negation .boolean)).at .none) := rfl
  obtain ⟨h401, h402, h403, h404⟩ := clean_check_sound hp hclean 1 hrun
  exact ⟨p, _, hp, hclean, hrun, h401, h402 hloops, h403 hbranches, h404 hloops hbranches⟩

/-! ### Trees that slip through -/

/-- A document whose program is checked without an error, and then fails with a code. -/
def Slips (d : Document) (code : String) : Prop :=
  ∃ p limit e, Program.ofDocument none .null d = .ok p ∧
    (Check.run p Collector.defaultLimit).hasErrors = false ∧ (p.run limit).ending = .error e ∧ e.cause.code = code

/-- Each of the three errors comes up after a check without errors: a declaration that is repeated is found twice in
one frame; one that is skipped leaves its name undefined, or lets a constant further out be assigned to; and one
that is repeated hides, from the second pass on, what the check took an assignment to be aimed at. -/
theorem clean_check_not_enough :
    Slips (.list [loopDocument (declarationDocument "let") []]) "E402" ∧
    Slips (.list [skippedDocument, readingDocument]) "E403" ∧
    Slips (.list [declarationDocument "const",
      nodeDocument "Block" [("body", .list [skippedDocument, assignmentDocument])]]) "E404" ∧
    Slips (.list [declarationDocument "let", loopDocument (declarationDocument "const") [assignmentDocument]]) "E404" ∧
    ¬ ∀ filename name d p, Program.ofDocument filename name d = .ok p →
      (Check.run p Collector.defaultLimit).hasErrors = false →
      ∀ limit e, (p.run limit).ending = .error e → e.cause.code ∉ ["E401", "E402", "E403", "E404"] := by
  -- The first pass declares the name, and the second one declares it again.
  have hrepeated : Slips (.list [loopDocument (declarationDocument "let") []]) "E402" :=
    ⟨_, 2, _, rfl, rfl, rfl, rfl⟩
  refine ⟨hrepeated, ⟨_, 0, _, rfl, rfl, rfl, rfl⟩, ⟨_, 0, _, rfl, rfl, rfl, rfl⟩,
    ⟨_, 2, _, rfl, rfl, rfl, rfl⟩, ?_⟩
  intro h
  obtain ⟨p, limit, e, hp, hclean, he, hcode⟩ := hrepeated
  have hnot := h _ _ _ _ hp hclean limit e he
  rw [hcode] at hnot
  exact hnot (by decide)

end Check

end TreeScript
