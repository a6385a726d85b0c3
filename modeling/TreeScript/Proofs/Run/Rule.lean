/-
What holds of the runs of all statements because every way to put runs together keeps it. A rule is a relation of two
runs of the same statement, which may be followed within different limits; a property of one run is the case in which
the other does not count. The rule says what simple statements and each way to put runs together have to fulfil, and
the induction over the tree is made here once for all of them. A contract relates the state that a run starts in to the
one that it leaves; if it holds of runs one after another, then there is a rule for it.
-/
import TreeScript.Proofs.Run.Outcome
import TreeScript.Proofs.Tree.Nodes

namespace TreeScript

/-- Whether a statement has no place for others inside of it. -/
def Stmt.isSimple : Stmt → Bool
  | .block _ | .forLoop .. | .whileLoop .. | .ifElse .. => false
  | _ => true

/-- Goes on with one of two runs, as a condition says. -/
def Outcome.branch (test : Expr) (run other : State → Outcome) (st : State) : Outcome :=
  match test.condition .ifStatement st.scope with
  | .error f => .failed f st
  | .ok true => run st
  | .ok false => other st

/-- What a `for` loop runs in its frame: it begins, and then its body and its update take turns. -/
def forRun (limit : Nat) (init : Option Stmt) (test : Option Expr) (update : Option Stmt) (body : Block) (st : State) :
    Outcome :=
  (execOptional limit init st).andThen
    (Outcome.loop (State.loopTest .forLoop test)
      (fun st => (Outcome.inFrame "for-body" (body.exec limit) st).andThen (execOptional limit update)) limit)

/-- A relation of runs of statements, all of whose nodes are of some kind, that each way to put runs together keeps. -/
structure StatementRule (kind : Stmt → Prop) (limit limit' : Nat)
    (R : (State → Outcome) → (State → Outcome) → Prop) : Prop where
  simple {s : Stmt} : kind s → s.isSimple = true → R (s.exec limit) (s.exec limit')
  finished : R .finished .finished
  andThen {run run' next next' : State → Outcome} : R run run' → R next next' →
    R (fun st => (run st).andThen next) fun st => (run' st).andThen next'
  visit {run run' : State → Outcome} {s : Stmt} : s.isSimple = false → R run run' →
    R (fun st => run (st.visit s)) fun st => run' (st.visit s)
  inFrame {run run' : State → Outcome} (name : String) : R run run' →
    R (Outcome.inFrame name run) (Outcome.inFrame name run')
  loop {run run' : State → Outcome} {s : Stmt} {statement : Branching} {test : Option Expr} : kind s →
    (∀ e ∈ test, s.condition? = some (statement, e)) → R run run' →
    R (Outcome.loop (State.loopTest statement test) run limit)
      (Outcome.loop (State.loopTest statement test) run' limit')
  branch {run run' other other' : State → Outcome} {s : Stmt} {test : Expr} : kind s →
    s.condition? = some (.ifStatement, test) → R run run' → R other other' →
    R (Outcome.branch test run other) (Outcome.branch test run' other')

namespace StatementRule

variable {kind : Stmt → Prop} {limit limit' : Nat} {R : (State → Outcome) → (State → Outcome) → Prop}
variable (h : StatementRule kind limit limit' R)

include h

theorem execAll {statements : List Stmt} (hs : ∀ s ∈ statements, R (s.exec limit) (s.exec limit')) :
    R (execAll limit statements) (execAll limit' statements) := by
  induction statements with
  | nil => exact h.finished
  | cons s rest ih =>
    obtain ⟨hs, hrest⟩ := List.forall_mem_cons.mp hs
    exact h.andThen hs (ih hrest)

theorem blockExec {body : Block} (hs : ∀ s ∈ body.statements, R (s.exec limit) (s.exec limit')) :
    R (body.exec limit) (body.exec limit') := by
  cases body with
  | mk span statements => exact h.execAll hs

theorem execOptional {s? : Option Stmt} (hs : ∀ s ∈ s?, R (s.exec limit) (s.exec limit')) :
    R (execOptional limit s?) (execOptional limit' s?) := by
  cases s? with
  | none => exact h.finished
  | some s => exact hs s rfl

/-- The other branch runs in a frame of its own if it is a block, and else as it stands. -/
theorem execElse {s? : Option Stmt} (hs : ∀ s ∈ s?, R (s.exec limit) (s.exec limit'))
    (hblock : ∀ body, .block body ∈ s? → ∀ s ∈ body.statements, R (s.exec limit) (s.exec limit')) :
    R (execElse limit s?) (execElse limit' s?) := by
  cases s? with
  | none => exact h.finished
  | some s =>
    cases s with
    | block body => exact h.inFrame "else" (h.blockExec (hblock body rfl))
    | _ => exact hs _ rfl

theorem forRun (span : Span) {init : Option Stmt} {test : Option Expr} {update : Option Stmt} {body : Block}
    (hself : kind (.forLoop span init test update body)) (hinit : ∀ s ∈ init, R (s.exec limit) (s.exec limit'))
    (hupdate : ∀ s ∈ update, R (s.exec limit) (s.exec limit'))
    (hbody : ∀ s ∈ body.statements, R (s.exec limit) (s.exec limit')) :
    R (forRun limit init test update body) (forRun limit' init test update body) := by
  have hpass := h.andThen (h.inFrame "for-body" (h.blockExec hbody)) (h.execOptional hupdate)
  have htest : ∀ e ∈ test, (Stmt.forLoop span init test update body).condition? = some (.forLoop, e) := by
    rintro e rfl
    rfl
  exact h.andThen (h.execOptional hinit) (h.loop hself htest hpass)

/-- The rule holds of every statement whose nodes are of the kind. -/
theorem exec {s : Stmt} (hs : s.All kind) : R (s.exec limit) (s.exec limit') := by
  induction s using Stmt.induction with
  | block body ih =>
    obtain ⟨-, hbody⟩ := Stmt.all_block.mp hs
    exact h.visit rfl (h.inFrame "block" (h.blockExec fun s hs => ih s hs (hbody s hs)))
  | forLoop span init test update body ihInit ihUpdate ihBody =>
    obtain ⟨hself, ⟨hinit, hupdate⟩, hbody⟩ := Stmt.all_forLoop.mp hs
    have hrun := h.forRun span hself (fun s hs => ihInit s hs (hinit s hs))
      (fun s hs => ihUpdate s hs (hupdate s hs)) fun s hs => ihBody s hs (hbody s hs)
    exact h.visit rfl (h.inFrame "for-loop" hrun)
  | whileLoop span test body ih =>
    obtain ⟨hself, hbody⟩ := Stmt.all_whileLoop.mp hs
    have hpass := h.inFrame "while-body" (h.blockExec fun s hs => ih s hs (hbody s hs))
    have htest : ∀ e ∈ some test, (Stmt.whileLoop span test body).condition? = some (.whileLoop, e) := by
      rintro e ⟨⟩
      rfl
    exact h.visit rfl (h.loop hself htest hpass)
  | ifElse span test thenBranch elseBranch ihThen ihElse ihBlock =>
    obtain ⟨hself, hthen, helse⟩ := Stmt.all_ifElse.mp hs
    have hother := h.execElse (fun s hs => ihElse s hs (helse s hs)) fun body hb s hs =>
      ihBlock body hb s hs ((Stmt.all_block.mp (helse _ hb)).2 s hs)
    have hfirst := h.inFrame "if-then" (h.blockExec fun s hs => ihThen s hs (hthen s hs))
    exact h.visit rfl (h.branch hself rfl hfirst hother)
  | _ => exact h.simple hs.self rfl

end StatementRule

/-! ## Contracts -/

/-- What a run has to do with the state it starts in: a condition on the state that it finishes in, and one on a failure
and the state that this comes up in. Another run may come before. -/
structure Contract where
  good : State → State → Prop
  bad : State → Failure → State → Prop
  refl (st : State) : good st st
  trans {st st' st'' : State} : good st st' → good st' st'' → good st st''
  trans_bad {st st' st'' : State} {f : Failure} : good st st' → bad st' f st'' → bad st f st''

namespace Contract

variable {c : Contract} {run next : State → Outcome}

def Holds (c : Contract) (run : State → Outcome) : Prop := ∀ st, (run st).Ends (c.good st) (c.bad st)

theorem finished : c.Holds .finished := fun st => c.refl st

/-- What comes after a good state is seen from the one before. -/
theorem Holds.since {st st' : State} (h : c.Holds run) (hst : c.good st st') :
    (run st').Ends (c.good st) (c.bad st) := (h st').imp (fun _ => c.trans hst) fun _ _ => c.trans_bad hst

theorem Holds.andThen (h : c.Holds run) (hnext : c.Holds next) : c.Holds fun st => (run st).andThen next := by
  intro st
  apply Outcome.ends_andThen (h st)
  intro st' hst'
  exact hnext.since hst'

theorem Holds.loop {test : State → Except Failure Bool} (htest : ∀ st f, test st = .error f → c.bad st f st)
    (limit : Nat) (h : c.Holds run) : c.Holds (Outcome.loop test run limit) := by
  intro st
  apply Outcome.ends_loop limit _ _ (c.refl st)
  · intro st' hst' _
    exact h.since hst'
  · intro st' f hst' hf
    exact c.trans_bad hst' (htest st' f hf)

theorem Holds.branch {test : Expr} {other : State → Outcome}
    (htest : ∀ st f, test.condition .ifStatement st.scope = .error f → c.bad st f st) (h : c.Holds run)
    (hother : c.Holds other) : c.Holds (Outcome.branch test run other) := by
  intro st
  unfold Outcome.branch
  cases ht : test.condition .ifStatement st.scope with
  | error f => exact htest st f ht
  | ok holds =>
    cases holds with
    | true => exact h st
    | false => exact hother st

/-- The statements of some kind keep to a contract: a frame may be opened before and closed after, a statement that is
not simple may start, and a condition may fail. -/
structure Kept (c : Contract) (kind : Stmt → Prop) (limit : Nat) : Prop where
  simple {s : Stmt} : kind s → s.isSimple = true → c.Holds (s.exec limit)
  visit {s : Stmt} (st : State) : s.isSimple = false → c.good st (st.visit s)
  pop {name : String} {st st' : State} : c.good (st.push name) st' → c.good st st'.pop
  pop_bad {name : String} {st st' : State} {f : Failure} : c.bad (st.push name) f st' → c.bad st f st'.pop
  condition {s : Stmt} {statement : Branching} {test : Expr} {st : State} {f : Failure} : kind s →
    s.condition? = some (statement, test) → test.condition statement st.scope = .error f → c.bad st f st

theorem Kept.rule {kind : Stmt → Prop} {limit : Nat} (h : c.Kept kind limit) :
    StatementRule kind limit limit fun run _ => c.Holds run where
  simple := h.simple
  finished := finished
  andThen hrun hnext := hrun.andThen hnext
  visit hsimple hrun st := hrun.since (h.visit st hsimple)
  inFrame name hrun st := Outcome.ends_inFrame ((hrun (st.push name)).imp (fun _ => h.pop) fun _ _ => h.pop_bad)
  loop {_ _ _ _ test?} hs htest hrun := by
    apply hrun.loop
    intro st f hf
    cases test? with
    | none => cases hf
    | some test => exact h.condition hs (htest test rfl) hf
  branch hs htest hrun hother := hrun.branch (fun _ _ => h.condition hs htest) hother

end Contract

end TreeScript
