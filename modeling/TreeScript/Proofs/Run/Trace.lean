/-
The trace of a run: what happens one after another, each time a statement starts and each time the scope becomes
another one. A start tells where in the tree the run stands, as a list of steps from a statement to one inside of it,
and the state it begins in. A scope becomes another by one move: a frame is opened or closed, a name is declared in
the current frame, or a mutable variable gets another value. The starts are the visits in the log, told apart by where
they happen, the moves lead to the scope that the run leaves, and a run without an end has a trace too.
-/
import TreeScript.Proofs.Run.Rule

namespace TreeScript

/-! ## Positions -/

/-- One step from a statement to one inside of it. -/
inductive Step where
  /-- To a statement of a block, of the body of a loop or of the first branch of a condition. -/
  | item (index : Nat)
  /-- To what a loop begins with. -/
  | init
  /-- To what a loop does between two passes. -/
  | update
  /-- To a statement of the other branch, if that is a block. -/
  | elseItem (index : Nat)
  /-- To the other branch itself, if it is no block. -/
  | otherwise
deriving DecidableEq

/-- Whether a step leads to the first statement of a body. -/
def Step.isFirst : Step → Bool
  | item 0 => true
  | elseItem 0 => true
  | _ => false

namespace Stmt

/-- The statement that a step leads to. -/
def child? (s : Stmt) (step : Step) : Option Stmt :=
  match s with
  | .block body | .whileLoop _ _ body =>
    match step with
    | .item i => body.statements[i]?
    | _ => none
  | .forLoop _ first _ next body =>
    match step with
    | .item i => body.statements[i]?
    | .init => first
    | .update => next
    | _ => none
  | .ifElse _ _ thenBranch elseBranch =>
    match step, elseBranch with
    | .item i, _ => thenBranch.statements[i]?
    | .elseItem i, some (.block body) => body.statements[i]?
    | .otherwise, some (.block _) => none
    | .otherwise, other => other
    | _, _ => none
  | _ => none

/-- The frames around a statement that are not around the one that it is in, the innermost first. -/
def opens (s : Stmt) (step : Step) : List String :=
  match s, step with
  | .block _, _ => ["block"]
  | .forLoop .., .item _ => ["for-body", "for-loop"]
  | .forLoop .., _ => ["for-loop"]
  | .whileLoop .., _ => ["while-body"]
  | .ifElse .., .item _ => ["if-then"]
  | .ifElse .., .elseItem _ => ["else"]
  | _, _ => []

/-- The statement at a position. -/
def at? (s : Stmt) : List Step → Option Stmt
  | [] => some s
  | step :: rest => (s.child? step).bind (·.at? rest)

/-- The names of the frames that a statement opens around a position, the innermost first. -/
def framesAt (s : Stmt) : List Step → List String
  | [] => []
  | step :: rest =>
    match s.child? step with
    | none => []
    | some child => child.framesAt rest ++ s.opens step

end Stmt

/-- The statement at a position in a program; the first step leads to one of the program's own statements. -/
def Program.at? (p : Program) : List Step → Option Stmt
  | .item i :: rest => p.statements[i]?.bind (·.at? rest)
  | _ => none

/-- The names of the frames around a position in a program. The program's own statements have none. -/
def Program.framesAt (p : Program) : List Step → List String
  | .item i :: rest =>
    match p.statements[i]? with
    | none => []
    | some s => s.framesAt rest
  | _ => []

/-! ## Points -/

/-- A statement that starts: its position, the statement itself, and the state it starts in. -/
structure Start where
  path : List Step
  stmt : Stmt
  state : State

namespace Start

/-- What is entered into the log when the statement starts. -/
def visit (start : Start) : Visit := ⟨start.stmt, start.state.scope.depth, start.state.scope.current.name⟩

/-- The same start, seen from one step further out. -/
def under (step : Step) (start : Start) : Start := { start with path := step :: start.path }

end Start

inductive Point where
  /-- A statement starts. -/
  | start (start : Start)
  /-- The scope has become another one. -/
  | moved (scope : Scope)

namespace Point

/-- The scope as it is then. -/
def scope : Point → Scope
  | start s => s.state.scope
  | moved scope => scope

def visit? : Point → Option Visit
  | start s => some s.visit
  | moved _ => none

def under (step : Step) : Point → Point
  | start s => start (s.under step)
  | moved scope => moved scope

@[simp]
theorem visit?_under (step : Step) (p : Point) : (p.under step).visit? = p.visit? := by
  cases p <;> rfl

theorem mem_under {s : Start} {step : Step} {points : List Point} (h : start s ∈ points.map (under step)) :
    ∃ inner, start inner ∈ points ∧ s = inner.under step := by
  obtain ⟨p, hp, hstart⟩ := List.mem_map.mp h
  cases p with
  | start inner =>
    cases hstart
    exact ⟨inner, hp, rfl⟩
  | moved scope => cases hstart

end Point

/-! ## Traces -/

/-- What comes after a run that finishes. -/
def Outcome.continued {α : Type} (o : Outcome) (next : State → List α) : List α :=
  match o with
  | finished st => next st
  | _ => []

/-- What comes up in the passes of a loop, by what does in one pass. -/
def Outcome.eachPass {α : Type} (test : State → Except Failure Bool) (body : State → Outcome)
    (pass : State → List α) : Nat → State → List α
  | 0, _ => []
  | limit + 1, st =>
    match test st with
    | .ok true => pass st ++ (body st).continued (eachPass test body pass limit)
    | _ => []

/-- The frame is closed, however the run in it ended. -/
def Outcome.closing : Outcome → List Point
  | finished st => [.moved st.scope.pop]
  | failed _ st => [.moved st.scope.pop]
  | unfinished => []

/-- The points of a run in a frame of its own. -/
def Outcome.framed (name : String) (run : State → Outcome) (inside : State → List Point) (st : State) :
    List Point :=
  .moved (st.push name).scope :: (inside (st.push name) ++ (run (st.push name)).closing)

/-- No statement starts with a frame being opened or closed. -/
theorem Outcome.visits_framed (name : String) (run : State → Outcome) (inside : State → List Point) (st : State) :
    (framed name run inside st).filterMap Point.visit? = (inside (st.push name)).filterMap Point.visit? := by
  have hclosing (o : Outcome) : o.closing.filterMap Point.visit? = [] := by
    cases o <;> rfl
  rw [framed, List.filterMap_cons_none rfl, List.filterMap_append, hclosing, List.append_nil]

theorem Outcome.mem_framed {name : String} {run : State → Outcome} {inside : State → List Point} {st : State}
    {start : Start} (h : .start start ∈ framed name run inside st) : .start start ∈ inside (st.push name) := by
  rw [framed, List.mem_cons, List.mem_append] at h
  rcases h with h | h | h
  · cases h
  · exact h
  · cases ho : run (st.push name) <;> simp [ho, closing] at h

mutual

/-- The points of a statement, beginning with its own start. -/
def Stmt.trace (limit : Nat) (s : Stmt) (before : State) : List Point :=
  let st := before.visit s
  .start ⟨[], s, before⟩ ::
    match s with
    | .declare .. | .assign .. | .update .. => (s.exec limit before).continued fun st => [.moved st.scope]
    | .output .. | .expression .. | .stray _ => []
    | .block body => Outcome.framed "block" (body.exec limit) (body.trace limit .item) st
    | .forLoop _ init test update body =>
      Outcome.framed "for-loop"
        (fun st => (execOptional limit init st).andThen
          (Outcome.loop (State.loopTest .forLoop test)
            (fun st => (Outcome.inFrame "for-body" (body.exec limit) st).andThen (execOptional limit update))
            limit))
        (fun st => optionalTrace limit .init init st ++ (execOptional limit init st).continued
          (Outcome.eachPass (State.loopTest .forLoop test)
            (fun st => (Outcome.inFrame "for-body" (body.exec limit) st).andThen (execOptional limit update))
            (fun st => Outcome.framed "for-body" (body.exec limit) (body.trace limit .item) st ++
              (Outcome.inFrame "for-body" (body.exec limit) st).continued (optionalTrace limit .update update))
            limit)) st
    | .whileLoop _ test body =>
      Outcome.eachPass (State.loopTest .whileLoop (some test)) (Outcome.inFrame "while-body" (body.exec limit))
        (Outcome.framed "while-body" (body.exec limit) (body.trace limit .item)) limit st
    | .ifElse _ test thenBranch elseBranch =>
      match test.condition .ifStatement st.scope with
      | .error _ => []
      | .ok true => Outcome.framed "if-then" (thenBranch.exec limit) (thenBranch.trace limit .item) st
      | .ok false => elseTrace limit elseBranch st

def Block.trace (limit : Nat) (b : Block) (step : Nat → Step) (st : State) : List Point :=
  match b with
  | .mk _ statements => traceAll limit step statements st

/-- The points of statements in order, each of them one step further in. -/
def traceAll (limit : Nat) (step : Nat → Step) (statements : List Stmt) (st : State) : List Point :=
  match statements with
  | [] => []
  | s :: rest => (s.trace limit st).map (.under (step 0)) ++
      (s.exec limit st).continued (traceAll limit (fun i => step (i + 1)) rest)

def optionalTrace (limit : Nat) (step : Step) (s : Option Stmt) (st : State) : List Point :=
  match s with
  | none => []
  | some s => (s.trace limit st).map (.under step)

def elseTrace (limit : Nat) (s : Option Stmt) (st : State) : List Point :=
  match s with
  | none => []
  | some (.block body) => Outcome.framed "else" (body.exec limit) (body.trace limit .elseItem) st
  | some s => (s.trace limit st).map (.under .otherwise)

end

def Program.trace (limit : Nat) (p : Program) (st : State) : List Point := traceAll limit .item p.statements st

/-! ## Runs with their traces -/

/-- The points of one of two runs, as a condition says. -/
def Outcome.branched (test : Expr) (trace other : State → List Point) (st : State) : List Point :=
  match test.condition .ifStatement st.scope with
  | .error _ => []
  | .ok true => trace st
  | .ok false => other st

/-- A relation of runs of statements, all of whose nodes are of some kind, and their traces that each way to put runs
together keeps. -/
structure TraceRule (kind : Stmt → Prop) (limit : Nat) (R : (State → Outcome) → (State → List Point) → Prop) :
    Prop where
  simple {s : Stmt} : kind s → s.isSimple = true → R (s.exec limit) (s.trace limit)
  finished : R .finished fun _ => []
  andThen {run next : State → Outcome} {trace trace' : State → List Point} : R run trace → R next trace' →
    R (fun st => (run st).andThen next) fun st => trace st ++ (run st).continued trace'
  start {run : State → Outcome} {trace : State → List Point} (s : Stmt) : R run trace →
    R (fun st => run (st.visit s)) fun st => .start ⟨[], s, st⟩ :: trace (st.visit s)
  under {run : State → Outcome} {trace : State → List Point} (step : Step) : R run trace →
    R run fun st => (trace st).map (.under step)
  inFrame {run : State → Outcome} {trace : State → List Point} (name : String) : R run trace →
    R (Outcome.inFrame name run) (Outcome.framed name run trace)
  loop {run : State → Outcome} {trace : State → List Point} (statement : Branching) (test : Option Expr) : R run trace →
    R (Outcome.loop (State.loopTest statement test) run limit)
      (Outcome.eachPass (State.loopTest statement test) run trace limit)
  branch {run other : State → Outcome} {trace trace' : State → List Point} (test : Expr) : R run trace →
    R other trace' → R (Outcome.branch test run other) (Outcome.branched test trace trace')

namespace TraceRule

variable {kind : Stmt → Prop} {limit : Nat} {R : (State → Outcome) → (State → List Point) → Prop}
variable (h : TraceRule kind limit R)

include h

theorem execAll {statements : List Stmt} (hs : ∀ s ∈ statements, R (s.exec limit) (s.trace limit))
    (step : Nat → Step) : R (execAll limit statements) (traceAll limit step statements) := by
  induction statements generalizing step with
  | nil => exact h.finished
  | cons s rest ih =>
    obtain ⟨hs, hrest⟩ := List.forall_mem_cons.mp hs
    exact h.andThen (h.under (step 0) hs) (ih hrest fun i => step (i + 1))

theorem blockExec {body : Block} (hs : ∀ s ∈ body.statements, R (s.exec limit) (s.trace limit)) (step : Nat → Step) :
    R (body.exec limit) (body.trace limit step) := by
  cases body with
  | mk span statements => exact h.execAll hs step

theorem execOptional {s? : Option Stmt} (hs : ∀ s ∈ s?, R (s.exec limit) (s.trace limit)) (step : Step) :
    R (execOptional limit s?) (optionalTrace limit step s?) := by
  cases s? with
  | none => exact h.finished
  | some s => exact h.under step (hs s rfl)

theorem execElse {s? : Option Stmt} (hs : ∀ s ∈ s?, R (s.exec limit) (s.trace limit))
    (hblock : ∀ body, .block body ∈ s? → ∀ s ∈ body.statements, R (s.exec limit) (s.trace limit)) :
    R (execElse limit s?) (elseTrace limit s?) := by
  cases s? with
  | none => exact h.finished
  | some s =>
    cases s with
    | block body => exact h.inFrame "else" (h.blockExec (hblock body rfl) .elseItem)
    | _ => exact h.under .otherwise (hs _ rfl)

/-- The rule holds of every statement whose nodes are of the kind. -/
theorem exec {s : Stmt} (hs : s.All kind) : R (s.exec limit) (s.trace limit) := by
  induction s using Stmt.induction with
  | block body ih =>
    obtain ⟨-, hbody⟩ := Stmt.all_block.mp hs
    exact h.start (.block body) (h.inFrame "block" (h.blockExec (fun s hs => ih s hs (hbody s hs)) .item))
  | forLoop span init test update body ihInit ihUpdate ihBody =>
    obtain ⟨-, ⟨hinit, hupdate⟩, hbody⟩ := Stmt.all_forLoop.mp hs
    have hfirst := h.execOptional (fun s hs => ihInit s hs (hinit s hs)) .init
    have hpass := h.andThen (h.inFrame "for-body" (h.blockExec (fun s hs => ihBody s hs (hbody s hs)) .item))
      (h.execOptional (fun s hs => ihUpdate s hs (hupdate s hs)) .update)
    exact h.start (.forLoop span init test update body)
      (h.inFrame "for-loop" (h.andThen hfirst (h.loop .forLoop test hpass)))
  | whileLoop span test body ih =>
    obtain ⟨-, hbody⟩ := Stmt.all_whileLoop.mp hs
    have hpass := h.inFrame "while-body" (h.blockExec (fun s hs => ih s hs (hbody s hs)) .item)
    exact h.start (.whileLoop span test body) (h.loop .whileLoop (some test) hpass)
  | ifElse span test thenBranch elseBranch ihThen ihElse ihBlock =>
    obtain ⟨-, hthen, helse⟩ := Stmt.all_ifElse.mp hs
    have hfirst := h.inFrame "if-then" (h.blockExec (fun s hs => ihThen s hs (hthen s hs)) .item)
    have hother := h.execElse (fun s hs => ihElse s hs (helse s hs)) fun body hb s hs =>
      ihBlock body hb s hs ((Stmt.all_block.mp (helse _ hb)).2 s hs)
    exact h.start (.ifElse span test thenBranch elseBranch) (h.branch test hfirst hother)
  | _ => exact h.simple hs.self rfl

end TraceRule

/-! ## Moves -/

/-- One thing that happens to a scope. -/
inductive Scope.Move : Scope → Scope → Prop
  | push (s : Scope) (name : String) : Move s (s.push name)
  | pop (s : Scope) : Move s s.pop
  | declare {s s' : Scope} {name : String} {value : Value} {isMutable : Bool}
      (h : s.declare name value isMutable = .ok s') : Move s s'
  | assign {s s' : Scope} {name : String} {value : Value} (h : s.assign name value = .ok s') : Move s s'

/-- Points that lead from one scope to another: statements start in the scope as it is, and it becomes another one by
a move each time. -/
inductive Scope.Moves : Scope → List Point → Scope → Prop
  | done (s : Scope) : Moves s [] s
  | start {s last : Scope} {start : Start} {rest : List Point} (h : start.state.scope = s) (hrest : Moves s rest last) :
    Moves s (.start start :: rest) last
  | move {s s' last : Scope} {rest : List Point} (h : Move s s') (hrest : Moves s' rest last) :
    Moves s (.moved s' :: rest) last

namespace Scope.Moves

variable {s s' s'' : Scope} {points rest : List Point}

theorem single (h : Move s s') : Moves s [.moved s'] s' := .move h (.done s')

theorem append (h : Moves s points s') (hrest : Moves s' rest s'') : Moves s (points ++ rest) s'' := by
  induction h with
  | done s => exact hrest
  | start hstart _ ih => exact .start hstart (ih hrest)
  | move hmove _ ih => exact .move hmove (ih hrest)

theorem under (h : Moves s points s') (step : Step) : Moves s (points.map (.under step)) s' := by
  induction h with
  | done s => exact .done s
  | start hstart _ ih => exact .start hstart ih
  | move hmove _ ih => exact .move hmove ih

/-- What comes after points that lead somewhere leads on from there. -/
theorem of_append (h : Moves s (points ++ rest) s'') : ∃ s', Moves s points s' ∧ Moves s' rest s'' := by
  induction points generalizing s with
  | nil => exact ⟨s, .done s, h⟩
  | cons p points ih =>
    cases h with
    | start hstart h =>
      obtain ⟨s', hpoints, hrest⟩ := ih h
      exact ⟨s', .start hstart hpoints, hrest⟩
    | move hmove h =>
      obtain ⟨s', hpoints, hrest⟩ := ih h
      exact ⟨s', .move hmove hpoints, hrest⟩

theorem of_cons {p : Point} (h : Moves s (p :: rest) s'') : Moves p.scope rest s'' := by
  cases h with
  | start hstart h =>
    subst hstart
    exact h
  | move _ h => exact h

end Scope.Moves

/-! ## The trace and the run -/

/-- The points of a run from one state to its end: they lead to the scope that it leaves, and those of them that are
starts are the visits that it enters into the log. -/
def Outcome.HasTrace (o : Outcome) (st : State) (points : List Point) : Prop :=
  ∃ last, Scope.Moves st.scope points last ∧ o.Leaves fun st' =>
    st'.scope = last ∧ Event.visits st'.log = Event.visits st.log ++ points.filterMap Point.visit?

/-- What has these points wherever it starts. -/
def Traced (run : State → Outcome) (trace : State → List Point) : Prop := ∀ st, (run st).HasTrace st (trace st)

namespace Outcome.HasTrace

variable {o : Outcome} {st st' : State} {points : List Point}

/-- Nothing starts, and the scope stays. -/
theorem nil (h : o.Leaves fun st' => st'.scope = st.scope ∧ Event.visits st'.log = Event.visits st.log) :
    o.HasTrace st [] := by
  refine ⟨st.scope, .done _, h.imp ?_⟩
  rintro st' ⟨hscope, hvisits⟩
  exact ⟨hscope, hvisits.trans (List.append_nil _).symm⟩

/-- A statement starts, and then the run goes on. -/
theorem start {s : Stmt} (h : o.HasTrace (st.visit s) points) : o.HasTrace st (.start ⟨[], s, st⟩ :: points) := by
  obtain ⟨last, hmoves, hlast⟩ := h
  refine ⟨last, .start rfl hmoves, hlast.imp ?_⟩
  rintro st' ⟨hscope, hvisits⟩
  refine ⟨hscope, ?_⟩
  rw [hvisits, State.visit, Event.visits_push_visited, List.append_assoc]
  rfl

end Outcome.HasTrace

namespace Traced

variable {run next : State → Outcome} {trace trace' : State → List Point} {limit : Nat}

theorem finished : Traced .finished fun _ => [] := fun _ => .nil ⟨rfl, rfl⟩

theorem under (h : Traced run trace) (step : Step) : Traced run fun st => (trace st).map (.under step) := by
  intro st
  obtain ⟨last, hmoves, hlast⟩ := h st
  refine ⟨last, hmoves.under step, ?_⟩
  simpa [List.filterMap_map, Function.comp_def] using hlast

theorem andThen (h : Traced run trace) (hnext : Traced next trace') :
    Traced (fun st => (run st).andThen next) fun st => trace st ++ (run st).continued trace' := by
  intro st
  obtain ⟨last, hmoves, hlast⟩ := h st
  dsimp only
  cases ho : run st with
  | finished between =>
    rw [ho] at hlast
    obtain ⟨rfl, hvisits⟩ := hlast
    obtain ⟨last, hmoves', hlast'⟩ := hnext between
    refine ⟨last, hmoves.append hmoves', hlast'.imp ?_⟩
    rintro st' ⟨hscope, hvisits'⟩
    refine ⟨hscope, ?_⟩
    rw [hvisits', hvisits, List.append_assoc, Outcome.continued, List.filterMap_append]
  | failed f between =>
    rw [ho] at hlast
    refine ⟨last, hmoves.append (.done _), ?_⟩
    simpa [Outcome.andThen, Outcome.continued] using hlast
  | unfinished => exact ⟨last, hmoves.append (.done _), trivial⟩

theorem inFrame (name : String) (h : Traced run trace) :
    Traced (Outcome.inFrame name run) (Outcome.framed name run trace) := by
  intro st
  obtain ⟨last, hmoves, hlast⟩ := h (st.push name)
  have hopen : Scope.Move st.scope (st.push name).scope := .push st.scope name
  have hframed := Outcome.visits_framed name run trace st
  unfold Outcome.framed at hframed ⊢
  unfold Outcome.inFrame
  cases ho : run (st.push name) with
  | finished st' =>
    rw [ho] at hlast hframed
    obtain ⟨rfl, hvisits⟩ := hlast
    rw [← hframed] at hvisits
    exact ⟨st'.scope.pop, .move hopen (hmoves.append (.single (.pop _))), rfl, hvisits⟩
  | failed f st' =>
    -- A failure closes the frame as well.
    rw [ho] at hlast hframed
    obtain ⟨rfl, hvisits⟩ := hlast
    rw [← hframed] at hvisits
    exact ⟨st'.scope.pop, .move hopen (hmoves.append (.single (.pop _))), rfl, hvisits⟩
  | unfinished => exact ⟨last, .move hopen (hmoves.append (.done _)), trivial⟩

theorem loop (test : State → Except Failure Bool) (limit : Nat) (h : Traced run trace) :
    Traced (Outcome.loop test run limit) (Outcome.eachPass test run trace limit) := by
  induction limit with
  | zero => exact fun st => ⟨st.scope, .done _, trivial⟩
  | succ limit ih =>
    intro st
    rw [Outcome.loop, Outcome.eachPass]
    cases test st with
    | error f => exact .nil ⟨rfl, rfl⟩
    | ok holds =>
      cases holds with
      | false => exact .nil ⟨rfl, rfl⟩
      | true => exact (h.andThen ih) st

/-- A step that makes another scope in one move. -/
theorem rescope (step : Scope → Except Failure Scope)
    (h : ∀ scope scope', step scope = .ok scope' → Scope.Move scope scope') :
    Traced (fun st => st.rescope (step st.scope)) fun st =>
      (st.rescope (step st.scope)).continued fun st => [.moved st.scope] := by
  intro st
  dsimp only
  cases hstep : step st.scope with
  | error f => exact .nil ⟨rfl, rfl⟩
  | ok scope => exact ⟨scope, .single (h _ _ hstep), rfl, (List.append_nil _).symm⟩

/-- A step that may emit a record makes no other scope. -/
theorem emitIfAny (step : State → Except Failure (Option Record)) :
    Traced (fun st => st.emitIfAny (step st)) fun _ => [] := by
  intro st
  apply Outcome.HasTrace.nil
  apply State.ends_emitIfAny
  · intro _
    exact ⟨rfl, rfl⟩
  · intro r _
    exact ⟨rfl, Event.visits_push_emitted st.log r⟩
  · intro _ _
    exact ⟨rfl, rfl⟩

/-- One of two runs, or the failure of the condition. -/
theorem branch {other : State → Outcome} (test : Expr) (h : Traced run trace) (hother : Traced other trace') :
    Traced (Outcome.branch test run other) (Outcome.branched test trace trace') := by
  intro st
  unfold Outcome.branch Outcome.branched
  cases test.condition .ifStatement st.scope with
  | error f => exact .nil ⟨rfl, rfl⟩
  | ok holds =>
    cases holds with
    | true => exact h st
    | false => exact hother st

end Traced

/-- A simple statement starts, and makes another scope in one move or none at all. -/
theorem Stmt.exec_traced_of_isSimple {limit : Nat} {s : Stmt} (hsimple : s.isSimple = true) :
    Traced (s.exec limit) (s.trace limit) := by
  cases s with
  | declare span name isMutable init =>
    have hstep := Traced.rescope (fun scope => scope.execDeclare span name isMutable init) fun scope scope' hok => by
      obtain ⟨_, v, -, -, hv⟩ := Scope.execDeclare_eq_ok hok
      exact .declare hv
    intro st
    rw [exec, trace, exec]
    exact (hstep (st.visit _)).start
  | assign span target value op =>
    have hstep := Traced.rescope (fun scope => scope.execAssign span target value op) fun scope scope' hok => by
      obtain ⟨v, hv⟩ := Scope.execAssign_eq_ok hok
      exact .assign hv
    intro st
    rw [exec, trace, exec]
    exact (hstep (st.visit _)).start
  | update span target op =>
    have hstep := Traced.rescope (fun scope => scope.execUpdate span target op) fun scope scope' hok => by
      obtain ⟨v, hv⟩ := Scope.execUpdate_eq_ok hok
      exact .assign hv
    intro st
    rw [exec, trace, exec]
    exact (hstep (st.visit _)).start
  | output span level argument =>
    intro st
    exact (Traced.emitIfAny (fun st => (st.scope.outputRecord level argument).map some) (st.visit _)).start
  | expression span e =>
    intro st
    exact (Traced.emitIfAny (fun st => st.scope.expressionRecord e) (st.visit _)).start
  | stray e =>
    intro st
    exact Outcome.HasTrace.start (o := .failed _ (st.visit (.stray e))) (.nil ⟨rfl, rfl⟩)
  | block | forLoop | whileLoop | ifElse => cases hsimple

/-- The trace of a run that is put together is put together of the traces of its parts. -/
theorem traced_rule (limit : Nat) : TraceRule (fun _ => True) limit Traced where
  simple _ hsimple := Stmt.exec_traced_of_isSimple hsimple
  finished := .finished
  andThen h hnext := h.andThen hnext
  start s h st := (h (st.visit s)).start
  under step h := h.under step
  inFrame name h := h.inFrame name
  loop statement test h := h.loop (State.loopTest statement test) limit
  branch test h hother := h.branch test hother

/-- The trace of a program is that of its run. -/
theorem Program.exec_traced {limit : Nat} (p : Program) : Traced (p.exec limit) (p.trace limit) :=
  (traced_rule limit).execAll (fun _ _ => (traced_rule limit).exec fun _ _ => trivial) .item

end TreeScript
