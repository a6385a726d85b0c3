/-
Two runs of the same statements that go in step. They begin in two states that are alike, and as long as the names
that the statements mention mean the same in both, every test goes the same way, every step gives the same value or
fails alike, and the states stay alike. What "alike" means is left open: a relation of scopes that the operations on
scopes keep, counting the frames that both runs have opened, and a relation of logs.
-/
import TreeScript.Proofs.Run.Likeness
import TreeScript.Proofs.Tree.Names

namespace TreeScript

/-! ## Pairs of outcomes -/

/-- Two runs that end alike: both finish, both fail with the same failure, or both go on for ever. -/
inductive Outcome.Related (R : State → State → Prop) : Outcome → Outcome → Prop
  | finished {a b : State} (h : R a b) : Related R (.finished a) (.finished b)
  | failed (f : Failure) {a b : State} (h : R a b) : Related R (.failed f a) (.failed f b)
  | unfinished : Related R .unfinished .unfinished

/-- Two steps that give related results, or the same failure. -/
inductive StepsRelated {α β : Type} (R : α → β → Prop) : Except Failure α → Except Failure β → Prop
  | ok {a : α} {b : β} (h : R a b) : StepsRelated R (.ok a) (.ok b)
  | error (f : Failure) : StepsRelated R (.error f) (.error f)

/-- That is the case of outcomes that match in which the failures are equal. -/
theorem Outcome.related_iff {R : State → State → Prop} {o o' : Outcome} : Related R o o' ↔ Match Eq R o o' := by
  constructor
  · intro h
    cases h with
    | finished h => exact .finished h
    | failed f h => exact .failed rfl h
    | unfinished => exact .unfinished
  · intro h
    cases h with
    | finished h => exact .finished h
    | failed hf h =>
      cases hf
      exact .failed _ h
    | unfinished => exact .unfinished

theorem StepsRelated.stepsMatch {α β : Type} {R : α → β → Prop} {x : Except Failure α} {y : Except Failure β}
    (h : StepsRelated R x y) : StepsMatch Eq R x y := by
  cases h with
  | ok h => exact .ok h
  | error f => exact .error rfl

namespace Outcome

variable {R R' : State → State → Prop} {o o' : Outcome}

theorem Related.imp (h : Related R o o') (hR : ∀ a b, R a b → R' a b) : Related R' o o' :=
  related_iff.mpr ((related_iff.mp h).imp (fun _ _ hf => hf) hR)

theorem Related.matches {S : Failure → Failure → Prop} (h : Related R o o') (hS : ∀ f, S f f) : Match S R o o' := by
  apply (related_iff.mp h).imp ?_ fun _ _ hR => hR
  rintro f _ rfl
  exact hS f

/-- If the second run leaves what a change makes of the state that the first one leaves, then so does its outcome. -/
theorem Related.eq_always {change : State → State} (h : Related (fun a b => b = change a) o o') :
    o' = o.always change := by
  cases h with
  | finished h => rw [always, h]
  | failed f h => rw [always, h]
  | unfinished => rfl

theorem related_andThen {next next' : State → Outcome} (h : Related R o o')
    (hnext : ∀ a b, R a b → Related R (next a) (next' b)) : Related R (o.andThen next) (o'.andThen next') :=
  related_iff.mpr ((related_iff.mp h).andThen fun a b hab => related_iff.mp (hnext a b hab))

theorem related_ofStep {α β : Type} {P : α → β → Prop} {a b : State} {step : Except Failure α}
    {step' : Except Failure β} {next : α → Outcome} {next' : β → Outcome} (h : StepsRelated P step step')
    (hab : R a b) (hnext : ∀ x y, P x y → Related R (next x) (next' y)) :
    Related R (ofStep a step next) (ofStep b step' next') :=
  related_iff.mpr (.ofStep h.stepsMatch hab fun x y hxy => related_iff.mp (hnext x y hxy))

theorem related_inFrame {name name' : String} {body body' : State → Outcome} {a b : State}
    (h : Related (fun a b => R a.pop b.pop) (body (a.push name)) (body' (b.push name'))) :
    Related R (inFrame name body a) (inFrame name' body' b) := related_iff.mpr (related_iff.mp h).inFrame

/-- Two loops whose tests agree and whose bodies keep a relation keep it too. -/
theorem related_loop {test test' : State → Except Failure Bool} {body body' : State → Outcome} (limit : Nat)
    {a b : State} (htest : ∀ a b, R a b → test a = test' b) (hbody : ∀ a b, R a b → Related R (body a) (body' b))
    (h : R a b) : Related R (loop test body limit a) (loop test' body' limit b) := by
  refine related_iff.mpr (Match.loop limit ?_ ?_ h)
  · intro a b hab
    exact .of_eq (fun _ => rfl) (htest a b hab)
  · intro a b hab
    exact related_iff.mp (hbody a b hab)

theorem related_branch {test : Expr} {run other run' other' : State → Outcome} {a b : State}
    (htest : test.condition .ifStatement a.scope = test.condition .ifStatement b.scope) (hab : R a b)
    (hrun : Related R (run a) (run' b)) (hother : Related R (other a) (other' b)) :
    Related R (branch test run other a) (branch test run' other' b) :=
  related_iff.mpr (.branch (.of_eq (fun _ => rfl) htest) hab (related_iff.mp hrun) (related_iff.mp hother))

end Outcome

/-! ## Evaluation reads what is mentioned -/

section

variable {a b : Scope}

/-- An expression gives the same value, or fails alike, in two scopes in which the names that it mentions mean the
same. -/
theorem Expr.eval_congr {e : Expr} (h : ∀ name ∈ e.names, a.find? name = b.find? name) : e.eval a = e.eval b := by
  induction e using Expr.induction with
  | literal span l => rfl
  | identifier span name =>
    rw [eval, eval, Scope.lookup, Scope.lookup, h name (List.mem_singleton_self _)]
  | binary span left op right ihLeft ihRight =>
    rw [names_binary, List.forall_mem_append] at h
    rw [eval, eval, ihLeft h.1, ihRight h.2]
  | unary span op operand ih =>
    rw [names_unary] at h
    rw [eval, eval, ih h]
  | call span receiver method args _ _ => rfl
  | stray s => rfl

theorem Expr.evalAll_congr {args : List Expr} (h : ∀ e ∈ args, ∀ name ∈ e.names, a.find? name = b.find? name) :
    evalAll a args = evalAll b args := by
  induction args with
  | nil => rfl
  | cons e rest ih =>
    obtain ⟨he, hrest⟩ := List.forall_mem_cons.mp h
    rw [evalAll, evalAll, eval_congr he, ih hrest]

theorem Expr.condition_congr {statement : Branching} {e : Expr} (h : ∀ name ∈ e.names, a.find? name = b.find? name) :
    e.condition statement a = e.condition statement b := by
  rw [condition, condition, eval_congr h]

theorem Scope.outputRecord_congr {level : Level} {e : Expr} (h : ∀ name ∈ e.names, a.find? name = b.find? name) :
    a.outputRecord level e = b.outputRecord level e := by
  rw [outputRecord, outputRecord, Expr.eval_congr h]

theorem Scope.expressionRecord_congr {e : Expr} (h : ∀ name ∈ e.names, a.find? name = b.find? name) :
    a.expressionRecord e = b.expressionRecord e := by
  cases e with
  | call span receiver method args =>
    rw [expressionRecord, expressionRecord]
    cases receiver with
    | identifier receiverSpan object =>
      -- The receiver may be a variable, so its name is one of those that count.
      rw [Expr.names_call, List.forall_mem_cons] at h
      obtain ⟨hobject, hargs⟩ := h
      have hargs : ∀ e ∈ args, ∀ name ∈ e.names, a.find? name = b.find? name := fun e he name hname =>
        hargs name (List.mem_flatMap.mpr ⟨e, he, hname⟩)
      rw [Expr.callRecord, Expr.callRecord, isDefined, isDefined, lookup, lookup, hobject, Expr.evalAll_congr hargs]
    | _ => rfl
  | _ =>
    rw [expressionRecord, expressionRecord, Expr.eval_congr h]
    all_goals rintro _ _ _ _ ⟨⟩

theorem Scope.currentForUpdate_congr {name : String} (h : a.find? name = b.find? name) :
    a.currentForUpdate name = b.currentForUpdate name := by
  rw [currentForUpdate, currentForUpdate, h]

end

/-! ## Assignments write to what is mentioned -/

section

variable {a b : Scope} {P : Scope → Scope → Prop} {span : Span} {target : Target} {op : Token}

theorem Scope.assign_related {name : String} {value : Value} (h : a.find? name = b.find? name)
    (hset : P (a.set name value) (b.set name value)) :
    StepsRelated P (placed span (a.assign name value)) (placed span (b.assign name value)) := by
  rw [assign, assign, currentForUpdate_congr h]
  cases b.currentForUpdate name with
  | error cause => exact .error _
  | ok _ => exact .ok hset

/-- An assignment goes the same way in two scopes in which its target means the same and its value is the same. -/
theorem Scope.execAssign_related {value : Expr} (hvalue : value.eval a = value.eval b)
    (htarget : a.find? target.name = b.find? target.name)
    (hset : ∀ v, P (a.set target.name v) (b.set target.name v)) :
    StepsRelated P (a.execAssign span target value op) (b.execAssign span target value op) := by
  rw [execAssign, execAssign, hvalue, currentForUpdate_congr htarget]
  split
  · cases value.eval b with
    | error f => exact .error f
    | ok v => exact assign_related htarget (hset v)
  · -- An operator reads the variable before it evaluates the operand, so that is where it fails first.
    split
    · exact .error _
    · cases placed target.span (b.currentForUpdate target.name) with
      | error f => exact .error f
      | ok current =>
        cases value.eval b with
        | error f => exact .error f
        | ok operand =>
          dsimp only
          split
          · exact .error _
          · exact assign_related htarget (hset _)

theorem Scope.execUpdate_related (htarget : a.find? target.name = b.find? target.name)
    (hset : ∀ v, P (a.set target.name v) (b.set target.name v)) :
    StepsRelated P (a.execUpdate span target op) (b.execUpdate span target op) := by
  rw [execUpdate, execUpdate, currentForUpdate_congr htarget]
  split
  · exact .error _
  · split
    · exact assign_related htarget (hset _)
    · exact assign_related htarget (hset _)
    · exact .error _
  · exact .error _

end

theorem State.emitIfAny_related {R : State → State → Prop} {a b : State} (step : Except Failure (Option Record))
    (hab : R a b) (hemit : ∀ r, R (a.emit r) (b.emit r)) : Outcome.Related R (a.emitIfAny step) (b.emitIfAny step) := by
  cases step with
  | error f => exact .failed f hab
  | ok record =>
    cases record with
    | none => exact .finished hab
    | some r => exact .finished (hemit r)

/-! ## Going in step -/

/-- Two scopes that stay alike in two runs of statements that mention some names, and two logs that do. The number
says how many frames both runs have opened. -/
structure Lockstep (names : List String) (Scopes : Nat → Scope → Scope → Prop)
    (Logs : Array Event → Array Event → Prop) : Prop where
  find {k : Nat} {a b : Scope} {name : String} : Scopes k a b → name ∈ names → a.find? name = b.find? name
  owns {k : Nat} {a b : Scope} {name : String} : Scopes k a b → name ∈ names → a.owns name = b.owns name
  declare {k : Nat} {a b a' b' : Scope} {name : String} {value : Value} {isMutable : Bool} :
    Scopes k a b → name ∈ names → a.declare name value isMutable = .ok a' →
      b.declare name value isMutable = .ok b' → Scopes k a' b'
  set {k : Nat} {a b : Scope} {name : String} (value : Value) : Scopes k a b → name ∈ names →
    Scopes k (a.set name value) (b.set name value)
  push {k : Nat} {a b : Scope} (name : String) : Scopes k a b → Scopes (k + 1) (a.push name) (b.push name)
  pop {k : Nat} {a b : Scope} : Scopes (k + 1) a b → Scopes k a.pop b.pop
  visited {k : Nat} {a b : Scope} {log log' : Array Event} (s : Stmt) : Scopes k a b → Logs log log' →
    Logs (log.push (.visited ⟨s, a.depth, a.current.name⟩)) (log'.push (.visited ⟨s, b.depth, b.current.name⟩))
  emitted {log log' : Array Event} (r : Record) : Logs log log' → Logs (log.push (.emitted r)) (log'.push (.emitted r))

variable {names : List String} {Scopes : Nat → Scope → Scope → Prop} {Logs : Array Event → Array Event → Prop}

/-- Two states with scopes and logs that are alike. -/
def State.Alike (Scopes : Nat → Scope → Scope → Prop) (Logs : Array Event → Array Event → Prop) (k : Nat)
    (a b : State) : Prop := Scopes k a.scope b.scope ∧ Logs a.log b.log

/-- What runs alike from states that are alike, and leaves such states behind. -/
def KeepsStep (Scopes : Nat → Scope → Scope → Prop) (Logs : Array Event → Array Event → Prop) (run : State → Outcome) :
    Prop :=
  ∀ k a b, State.Alike Scopes Logs k a b → Outcome.Related (State.Alike Scopes Logs k) (run a) (run b)

namespace Lockstep

variable (h : Lockstep names Scopes Logs) {k : Nat}

include h

/-! ### Simple statements -/

section

variable {a b : Scope} (hab : Scopes k a b)

include hab

theorem agree {mentions : List String} (hm : ∀ name ∈ mentions, name ∈ names) :
    ∀ name ∈ mentions, a.find? name = b.find? name := fun name hname => h.find hab (hm name hname)

theorem declares {span : Span} {name : String} {value : Value} {isMutable : Bool} (hname : name ∈ names) :
    StepsRelated (Scopes k) (placed span (a.declare name value isMutable))
      (placed span (b.declare name value isMutable)) := by
  have howns := h.owns hab hname
  by_cases hbound : b.owns name = true
  · rw [Scope.declare, Scope.declare, howns, if_pos hbound, if_pos hbound]
    exact .error _
  · have ha : a.declare name value isMutable = .ok { a with current := a.current.bind ⟨name, value, isMutable⟩ } := by
      rw [Scope.declare, howns, if_neg hbound]
    have hb : b.declare name value isMutable = .ok { b with current := b.current.bind ⟨name, value, isMutable⟩ } := by
      rw [Scope.declare, if_neg hbound]
    rw [ha, hb]
    exact .ok (h.declare hab hname ha hb)

theorem execDeclare {span : Span} {name : String} {isMutable : Bool} {init : Option Expr} (hname : name ∈ names)
    (hinit : ∀ e ∈ init, ∀ name ∈ e.names, name ∈ names) :
    StepsRelated (Scopes k) (a.execDeclare span name isMutable init) (b.execDeclare span name isMutable init) := by
  cases init with
  | none => exact .error _
  | some e =>
    rw [Scope.execDeclare, Scope.execDeclare, Expr.eval_congr (h.agree hab (hinit e rfl))]
    cases e.eval b with
    | error f => exact .error f
    | ok v => exact h.declares hab hname

end

/-! ### Putting runs together -/

theorem visit {a b : State} (s : Stmt) (hab : State.Alike Scopes Logs k a b) :
    State.Alike Scopes Logs k (a.visit s) (b.visit s) := ⟨hab.1, h.visited s hab.1 hab.2⟩

omit h in
theorem rescope {a b : State} {step step' : Except Failure Scope} (hab : State.Alike Scopes Logs k a b)
    (hstep : StepsRelated (Scopes k) step step') :
    Outcome.Related (State.Alike Scopes Logs k) (a.rescope step) (b.rescope step') :=
  Outcome.related_ofStep hstep hab fun _ _ hscopes => .finished ⟨hscopes, hab.2⟩

theorem emitIfAny {a b : State} (step : Except Failure (Option Record)) (hab : State.Alike Scopes Logs k a b) :
    Outcome.Related (State.Alike Scopes Logs k) (a.emitIfAny step) (b.emitIfAny step) :=
  State.emitIfAny_related step hab fun r => ⟨hab.1, h.emitted r hab.2⟩

theorem inFrame {run : State → Outcome} (name : String) (hrun : KeepsStep Scopes Logs run) :
    KeepsStep Scopes Logs (Outcome.inFrame name run) := by
  intro k a b hab
  apply Outcome.related_inFrame
  refine (hrun (k + 1) (a.push name) (b.push name) ⟨h.push name hab.1, hab.2⟩).imp ?_
  intro a b hab
  exact ⟨h.pop hab.1, hab.2⟩

theorem loop {run : State → Outcome} (statement : Branching) {test : Option Expr} (limit : Nat)
    (htest : ∀ e ∈ test, ∀ name ∈ e.names, name ∈ names) (hrun : KeepsStep Scopes Logs run) :
    KeepsStep Scopes Logs (Outcome.loop (State.loopTest statement test) run limit) := by
  intro k a b hab
  refine Outcome.related_loop limit ?_ (hrun k) hab
  intro a b hab
  cases test with
  | none => rfl
  | some e => exact Expr.condition_congr (h.agree hab.1 (htest e rfl))

theorem branch {run other : State → Outcome} {test : Expr} (htest : ∀ name ∈ test.names, name ∈ names)
    (hrun : KeepsStep Scopes Logs run) (hother : KeepsStep Scopes Logs other) :
    KeepsStep Scopes Logs (Outcome.branch test run other) := by
  intro k a b hab
  exact Outcome.related_branch (Expr.condition_congr (h.agree hab.1 htest)) hab (hrun k a b hab) (hother k a b hab)

/-! ### Statements -/

/-- Fewer names may count. -/
theorem mono {names' : List String} (hsub : ∀ name ∈ names', name ∈ names) : Lockstep names' Scopes Logs :=
  { h with
    find := fun hab hname => h.find hab (hsub _ hname)
    owns := fun hab hname => h.owns hab (hsub _ hname)
    declare := fun hab hname => h.declare hab (hsub _ hname)
    set := fun value hab hname => h.set value hab (hsub _ hname) }

end Lockstep

/-- What the expressions of a node mention, the node mentions. -/
theorem Stmt.mem_ownNames {n : Stmt} {e : Expr} (he : e ∈ n.exprs) : ∀ name ∈ e.names, name ∈ n.ownNames := by
  intro name hname
  exact List.mem_append_right _ (List.mem_flatMap.mpr ⟨e, he, hname⟩)

theorem Lockstep.simple {limit : Nat} {s : Stmt} (h : Lockstep s.ownNames Scopes Logs) (hsimple : s.isSimple = true) :
    KeepsStep Scopes Logs (s.exec limit) := by
  cases s with
  | declare span name isMutable init =>
    intro k a b hab
    have hinit : ∀ e ∈ init, ∀ mentioned ∈ e.names, mentioned ∈ (Stmt.declare span name isMutable init).ownNames :=
      fun e he => Stmt.mem_ownNames (Option.mem_toList.mpr he)
    exact rescope (h.visit _ hab) (h.execDeclare hab.1 (List.mem_cons_self ..) hinit)
  | assign span target value op =>
    intro k a b hab
    have hvalue := Expr.eval_congr (h.agree hab.1 (Stmt.mem_ownNames (List.mem_singleton_self value)))
    have htarget : target.name ∈ (Stmt.assign span target value op).ownNames := List.mem_cons_self ..
    exact rescope (h.visit _ hab) (Scope.execAssign_related hvalue (h.find hab.1 htarget) fun v =>
      h.set v hab.1 htarget)
  | update span target op =>
    intro k a b hab
    have htarget : target.name ∈ (Stmt.update span target op).ownNames := List.mem_cons_self ..
    exact rescope (h.visit _ hab) (Scope.execUpdate_related (h.find hab.1 htarget) fun v => h.set v hab.1 htarget)
  | output span level argument =>
    intro k a b hab
    have hargument := h.agree hab.1 (Stmt.mem_ownNames (List.mem_singleton_self argument))
    rw [Stmt.exec, Stmt.exec, State.visit_scope, State.visit_scope, Scope.outputRecord_congr hargument]
    exact h.emitIfAny _ (h.visit _ hab)
  | expression span e =>
    intro k a b hab
    have he := h.agree hab.1 (Stmt.mem_ownNames (List.mem_singleton_self e))
    rw [Stmt.exec, Stmt.exec, State.visit_scope, State.visit_scope, Scope.expressionRecord_congr he]
    exact h.emitIfAny _ (h.visit _ hab)
  | stray e =>
    intro k a b hab
    exact .failed _ (h.visit _ hab)
  | block | forLoop | whileLoop | ifElse => cases hsimple

/-- Statements keep two runs in step if what each of their nodes mentions counts. -/
theorem lockstep_rule {kind : Stmt → Prop} (hframes : Lockstep [] Scopes Logs)
    (h : ∀ n, kind n → Lockstep n.ownNames Scopes Logs) (limit : Nat) :
    StatementRule kind limit limit fun run _ => KeepsStep Scopes Logs run where
  simple {s} hs := (h s hs).simple
  finished _ _ _ hab := .finished hab
  andThen hrun hnext k a b hab := Outcome.related_andThen (hrun k a b hab) (hnext k)
  visit _ hrun k _ _ hab := hrun k _ _ (hframes.visit _ hab)
  inFrame name hrun := hframes.inFrame name hrun
  loop {_ _ s _ _} hs htest hrun := (h s hs).loop _ limit
    (fun e he => Stmt.mem_ownNames (Stmt.mem_exprs_of_condition? (htest e he))) hrun
  branch {_ _ _ _ s _} hs htest hrun hother := (h s hs).branch
    (Stmt.mem_ownNames (Stmt.mem_exprs_of_condition? htest)) hrun hother

/-- Statements in order keep two runs in step if all that they mention counts. -/
theorem Lockstep.execAll_mentioned {limit : Nat} {statements : List Stmt}
    (h : Lockstep (mentioned statements) Scopes Logs) : KeepsStep Scopes Logs (execAll limit statements) := by
  have hrule : StatementRule (· ∈ statementNodes statements) limit limit fun run _ => KeepsStep Scopes Logs run := by
    apply lockstep_rule (h.mono (List.forall_mem_nil _))
    intro n hn
    exact h.mono fun name hname => List.mem_flatMap.mpr ⟨n, hn, hname⟩
  exact hrule.execAll fun s hs => hrule.exec (forall_statementNodes.mp (fun _ hn => hn) s hs)

end TreeScript
