/-
What a check leaves behind. Diagnostics are only ever added, and how many errors at most is fixed by
the tree alone; the frames around the current one stay as they are, and the current one gains
at most the name that the statement declares. So a tree has a limit on errors that checking it never
reaches, and what has been reported on the way is still there at the end.
-/
import TreeScript.Check
import TreeScript.Proofs.Tree.Nodes

namespace TreeScript

/-! ## Collectors -/

namespace Collector

theorem errorCount_add (c : Collector) (d : Diagnostic) :
    (c.add d).errorCount = c.errorCount + if d.isError then 1 else 0 := by
  unfold add
  split <;> rfl

theorem isFull_eq_false_iff {c : Collector} : c.isFull = false ↔ (c.errorCount : Int) < c.maxErrors := by
  simp [isFull]

theorem hasErrors_eq_false_iff {c : Collector} : c.hasErrors = false ↔ c.errorCount = 0 := by
  simp [hasErrors]

/-- The collector with more diagnostics, in their order. -/
def addAll (c : Collector) (ds : List Diagnostic) : Collector := ds.foldl add c

theorem diagnostics_addAll (c : Collector) (ds : List Diagnostic) :
    (c.addAll ds).diagnostics.toList = c.diagnostics.toList ++ ds := by
  induction ds generalizing c with
  | nil => simp [addAll]
  | cons d rest ih =>
    show ((c.add d).addAll rest).diagnostics.toList = _
    rw [ih]
    simp [add]

theorem maxErrors_addAll (c : Collector) (ds : List Diagnostic) : (c.addAll ds).maxErrors = c.maxErrors := by
  induction ds generalizing c with
  | nil => rfl
  | cons d rest ih =>
    show ((c.add d).addAll rest).maxErrors = _
    rw [ih, add]

theorem errorCount_addAll (c : Collector) (ds : List Diagnostic) :
    (c.addAll ds).errorCount = c.errorCount + ds.countP (·.isError) := by
  induction ds generalizing c with
  | nil => rfl
  | cons d rest ih =>
    show ((c.add d).addAll rest).errorCount = _
    rw [ih, errorCount_add, List.countP_cons]
    omega

/-- A collector that comes from another by adding diagnostics, among them so many errors at most. -/
def Extends (n : Nat) (a b : Collector) : Prop := ∃ ds, ds.countP (·.isError) ≤ n ∧ b = a.addAll ds

namespace Extends

variable {a b c : Collector} {m n : Nat}

theorem refl (a : Collector) : a.Extends n a := ⟨[], Nat.zero_le n, rfl⟩

theorem trans (h : a.Extends m b) (h' : b.Extends n c) : a.Extends (m + n) c := by
  obtain ⟨ds, hds, rfl⟩ := h
  obtain ⟨ds', hds', rfl⟩ := h'
  refine ⟨ds ++ ds', ?_, ?_⟩
  · rw [List.countP_append]
    omega
  · unfold addAll
    rw [List.foldl_append]

theorem add (a : Collector) (d : Diagnostic) : a.Extends 1 (a.add d) :=
  ⟨[d], List.countP_le_length, rfl⟩

theorem errorCount_le (h : a.Extends n b) : a.errorCount ≤ b.errorCount := by
  obtain ⟨ds, -, rfl⟩ := h
  rw [errorCount_addAll]
  omega

theorem errorCount_le_add (h : a.Extends n b) : b.errorCount ≤ a.errorCount + n := by
  obtain ⟨ds, hds, rfl⟩ := h
  rw [errorCount_addAll]
  omega

theorem maxErrors_eq (h : a.Extends n b) : b.maxErrors = a.maxErrors := by
  obtain ⟨ds, -, rfl⟩ := h
  exact maxErrors_addAll a ds

/-- A diagnostic that was there stays. -/
theorem mem (h : a.Extends n b) {d : Diagnostic} (hd : d ∈ a.diagnostics.toList) : d ∈ b.diagnostics.toList := by
  obtain ⟨ds, -, rfl⟩ := h
  rw [diagnostics_addAll, List.mem_append]
  left; exact hd

/-- A collector that is not full was not full before. -/
theorem isFull_eq_false (h : a.Extends n b) (hb : b.isFull = false) : a.isFull = false := by
  have hle := h.errorCount_le
  have hmax := h.maxErrors_eq
  rw [isFull_eq_false_iff] at hb ⊢
  omega

end Extends

/-- The errors of a collector are counted right. -/
def Counted (c : Collector) : Prop := c.errorCount = c.diagnostics.toList.countP (·.isError)

theorem Extends.counted {a b : Collector} {n : Nat} (h : a.Extends n b) (ha : a.Counted) : b.Counted := by
  obtain ⟨ds, -, rfl⟩ := h
  unfold Counted
  rw [errorCount_addAll, diagnostics_addAll, List.countP_append, ha]

theorem counted_empty (maxErrors : Int) : (empty maxErrors).Counted := rfl

end Collector

/-! ## States of the checker -/

namespace Check

/-- What the names of a frame are when some are added. -/
def Names.Grows (a b : Names) : Prop := ∀ name m, a.lookup name = some m → b.lookup name = some m

/-- What a walk over a part of a tree does to the state: it reports at most `n` errors, and it declares nothing
in the current frame unless it comes with a name. -/
structure Walks (n : Nat) (declared : Option String) (a b : State) : Prop where
  outer : b.outer = a.outer
  grows : Names.Grows a.current b.current
  current : declared = none → b.current = a.current
  found : a.collector.Extends n b.collector

namespace Walks

variable {a b c : State} {m n : Nat} {d d' : Option String}

theorem refl (a : State) : Walks n none a a := ⟨rfl, fun _ _ h => h, fun _ => rfl, .refl _⟩

theorem trans (h : Walks m d a b) (h' : Walks n d' b c) : Walks (m + n) (d.or d') a c where
  outer := h'.outer.trans h.outer
  grows := by
    intro name m hm
    exact h'.grows name m (h.grows name m hm)
  current := by
    intro hd
    rw [Option.or_eq_none_iff] at hd
    rw [h'.current hd.2, h.current hd.1]
  found := h.found.trans h'.found

/-- A walk that goes on from one that declares nothing. -/
theorem step (h : Walks m none a b) (h' : Walks n d b c) : Walks (m + n) d a c := h.trans h'

theorem isFull_eq_false (h : Walks n d a b) (hb : b.isFull = false) : a.isFull = false :=
  h.found.isFull_eq_false hb

/-- A walk in a frame of its own declares nothing outside. -/
theorem inFrame (h : Walks n d a.push b) : Walks n none a b.pop := by
  have hpop : b.pop = { b with current := a.current, outer := a.outer } := by
    unfold State.pop
    rw [h.outer]
    rfl
  rw [hpop]
  exact ⟨rfl, fun _ _ h => h, fun _ => rfl, h.found⟩

end Walks

theorem State.collector_pop (st : State) : st.pop.collector = st.collector := by
  unfold pop
  split <;> rfl

theorem State.walks_report (st : State) (f : Finding) (span : Span) : Walks 1 none st (st.report f span) := by
  unfold report
  split
  · exact .refl st
  · exact ⟨rfl, fun _ _ h => h, fun _ => rfl, .add _ _⟩

theorem State.walks_declare (st : State) (name : String) (isMutable : Bool) (span : Span) :
    Walks 1 (some name) st (st.declare name isMutable span) := by
  unfold declare
  by_cases hseen : (st.current.lookup name).isSome
  · rw [if_pos hseen]
    have h := st.walks_report (.fault (.redeclaration name)) span
    exact ⟨h.outer, h.grows, fun _ => h.current rfl, h.found⟩
  · rw [if_neg hseen]
    refine ⟨rfl, ?_, ?_, .refl _⟩
    · intro other m hm
      -- The new name was not there, so it hides none of the old ones.
      have hne : other ≠ name := by
        rintro rfl
        exact hseen (Option.isSome_of_eq_some hm)
      rw [List.lookup_cons, beq_eq_false_iff_ne.mpr hne]
      exact hm
    · rintro ⟨⟩

theorem State.walks_literal (st : State) (l : Literal) (span : Span) : Walks 1 none st (st.literal l span) := by
  unfold literal
  split
  · split
    · exact .refl st
    · exact st.walks_report _ _
  · split
    · exact .refl st
    · exact st.walks_report _ _
  · exact .refl st

theorem State.walks_target (st : State) (name : String) (span : Span) : Walks 1 none st (st.target name span) := by
  unfold target
  split
  · exact st.walks_report _ _
  · exact .refl st
  · exact st.walks_report _ _

theorem State.walks_callee (st : State) (receiver : Expr) (method : String) (span : Span) :
    Walks 1 none st (st.callee receiver method span) := by
  unfold callee
  split
  · exact .refl st
  · exact st.walks_report _ _

-- What a walk does at each form, which the proofs below and those of other modules rewrite with.
attribute [local simp] expr exprs stmt stmts block

/-! ## Expressions -/

theorem walks_exprs {args : List Expr} (h : ∀ e ∈ args, ∃ n, ∀ st, Walks n none st (expr st e)) :
    ∃ n, ∀ st, Walks n none st (exprs st args) := by
  induction args with
  | nil => exact ⟨0, fun st => .refl st⟩
  | cons e rest ih =>
    rw [List.forall_mem_cons] at h
    obtain ⟨m, hm⟩ := h.1
    obtain ⟨n, hn⟩ := ih h.2
    exact ⟨m + n, fun st => (hm st).step (hn _)⟩

theorem walks_expr (e : Expr) : ∃ n, ∀ st, Walks n none st (expr st e) := by
  induction e using Expr.induction with
  | literal span l => exact ⟨1, fun st => st.walks_literal l span⟩
  | identifier span name =>
    use 1
    intro st
    rw [expr]
    split
    · exact .refl st
    · exact st.walks_report _ _
  | binary span left op right ihLeft ihRight =>
    obtain ⟨m, hm⟩ := ihLeft
    obtain ⟨n, hn⟩ := ihRight
    exact ⟨m + n, fun st => (hm st).step (hn _)⟩
  | unary span op operand ih => exact ih
  | call span receiver method args _ ih =>
    obtain ⟨n, hn⟩ := walks_exprs ih
    exact ⟨1 + (1 + n), fun st => (st.walks_report _ _).step ((State.walks_callee _ _ _ _).step (hn _))⟩
  | stray s => exact ⟨0, fun st => .refl st⟩

theorem walks_effect (e : Expr) : ∃ n, ∀ st, Walks n none st (effect st e) := by
  cases e with
  | call span receiver method args =>
    obtain ⟨n, hn⟩ := walks_exprs fun e (_ : e ∈ args) => walks_expr e
    exact ⟨1 + n, fun st => (State.walks_callee _ _ _ _).step (hn _)⟩
  | _ => exact walks_expr _

theorem walks_optionalExpr (e? : Option Expr) : ∃ n, ∀ st, Walks n none st (optionalExpr st e?) := by
  cases e? with
  | none => exact ⟨0, fun st => .refl st⟩
  | some e => exact walks_expr e

theorem walks_loopTest (span : Span) (e? : Option Expr) : ∃ n, ∀ st, Walks n none st (loopTest st span e?) := by
  cases e? with
  | none => exact ⟨1, fun st => st.walks_report _ _⟩
  | some e => exact walks_expr e

/-! ## Statements -/

theorem walks_stmts {statements : List Stmt}
    (h : ∀ s ∈ statements, ∃ n, ∀ st, Walks n s.declared? st (stmt st s)) :
    ∃ n, ∀ st, ∃ d, Walks n d st (stmts st statements) := by
  induction statements with
  | nil => exact ⟨0, fun st => ⟨none, .refl st⟩⟩
  | cons s rest ih =>
    rw [List.forall_mem_cons] at h
    obtain ⟨m, hm⟩ := h.1
    obtain ⟨n, hn⟩ := ih h.2
    use m + n
    intro st
    rw [stmts]
    -- The walk stops before a statement once the collector is full.
    split
    · exact ⟨none, .refl st⟩
    · obtain ⟨d, hd⟩ := hn (stmt st s)
      exact ⟨s.declared?.or d, (hm st).trans hd⟩

theorem walks_block {body : Block} (h : ∀ s ∈ body.statements, ∃ n, ∀ st, Walks n s.declared? st (stmt st s)) :
    ∃ n, ∀ st, Walks n none st (block st body) := by
  cases body with
  | mk span statements =>
    obtain ⟨n, hn⟩ := walks_stmts h
    use n
    intro st
    obtain ⟨d, hd⟩ := hn st.push
    exact hd.inFrame

theorem walks_optionalStmt {s? : Option Stmt} (h : ∀ s ∈ s?, ∃ n, ∀ st, Walks n s.declared? st (stmt st s)) :
    ∃ n, ∀ st, Walks n (s?.bind Stmt.declared?) st (optionalStmt st s?) := by
  cases s? with
  | none => exact ⟨0, fun st => .refl st⟩
  | some s => exact h s rfl

/-- Checking a statement reports a bounded number of errors, and declares what the statement declares. -/
theorem walks_stmt (s : Stmt) : ∃ n, ∀ st, Walks n s.declared? st (stmt st s) := by
  induction s using Stmt.induction with
  | declare span name isMutable init =>
    obtain ⟨n, hn⟩ := walks_optionalExpr init
    exact ⟨n + 1, fun st => (hn st).step (State.walks_declare _ _ _ _)⟩
  | assign span target value op =>
    obtain ⟨n, hn⟩ := walks_expr value
    exact ⟨n + 1, fun st => (hn st).step (State.walks_target _ _ _)⟩
  | update span target op => exact ⟨1, fun st => st.walks_target _ _⟩
  | output span level argument => exact walks_expr argument
  | expression span e => exact walks_effect e
  | block body ih => exact walks_block ih
  | forLoop span init test update body ihInit ihUpdate ihBody =>
    obtain ⟨k, hk⟩ := walks_optionalStmt ihInit
    obtain ⟨l, hl⟩ := walks_loopTest span test
    obtain ⟨m, hm⟩ := walks_block ihBody
    obtain ⟨n, hn⟩ := walks_optionalStmt ihUpdate
    use k + (l + (m + n))
    intro st
    exact ((hk st.push).trans ((hl _).step ((hm _).step (hn _)))).inFrame
  | whileLoop span test body ih =>
    obtain ⟨m, hm⟩ := walks_expr test
    obtain ⟨n, hn⟩ := walks_block ih
    exact ⟨m + n, fun st => (hm st).step (hn _)⟩
  | ifElse span test thenBranch elseBranch ihThen ihElse _ =>
    obtain ⟨l, hl⟩ := walks_expr test
    obtain ⟨m, hm⟩ := walks_block ihThen
    obtain ⟨n, hn⟩ := walks_optionalStmt ihElse
    use l + (m + n)
    intro st
    -- The other branch stands in the frame of the condition, and so does what it declares.
    have hdeclared : (Stmt.ifElse span test thenBranch elseBranch).declared? = elseBranch.bind Stmt.declared? := by
      cases elseBranch <;> rfl
    rw [hdeclared]
    exact (hl st).step ((hm _).step (hn _))
  | stray e => exact ⟨0, fun st => .refl st⟩

/-- Checking a program reports a bounded number of errors. -/
theorem extends_run (p : Program) : ∃ n, ∀ maxErrors, (Collector.empty maxErrors).Extends n (run p maxErrors) := by
  obtain ⟨n, hn⟩ := walks_stmts fun s (_ : s ∈ p.statements) => walks_stmt s
  use n
  intro maxErrors
  obtain ⟨d, hd⟩ := hn (.fresh maxErrors)
  exact hd.found

/-- There is a limit from which on the check of a program is never cut short. -/
theorem exists_limit (p : Program) : ∃ bound : Int, ∀ maxErrors, bound ≤ maxErrors →
    (run p maxErrors).isFull = false := by
  obtain ⟨n, hn⟩ := extends_run p
  use n + 1
  intro maxErrors h
  have hle : (run p maxErrors).errorCount ≤ 0 + n := (hn maxErrors).errorCount_le_add
  have hmax : (run p maxErrors).maxErrors = maxErrors := (hn maxErrors).maxErrors_eq
  rw [Collector.isFull_eq_false_iff, hmax]
  omega

theorem counted_run (p : Program) (maxErrors : Int) : (run p maxErrors).Counted := by
  obtain ⟨n, hn⟩ := extends_run p
  exact (hn maxErrors).counted (Collector.counted_empty maxErrors)

/-- A check without errors was not cut short, if errors are allowed at all. -/
theorem isFull_eq_false_of_hasErrors {p : Program} {maxErrors : Int} (hpos : 1 ≤ maxErrors)
    (h : (run p maxErrors).hasErrors = false) : (run p maxErrors).isFull = false := by
  obtain ⟨n, hn⟩ := extends_run p
  have hmax : (run p maxErrors).maxErrors = maxErrors := (hn maxErrors).maxErrors_eq
  rw [Collector.hasErrors_eq_false_iff] at h
  rw [Collector.isFull_eq_false_iff, hmax, h]
  omega

end Check

end TreeScript
