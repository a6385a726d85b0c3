/-
A `for` loop is the `while` loop that it stands for: a block that begins as the loop does and then repeats the body, in
a block of its own, and the update as long as the condition holds. The loop runs its update in the frame of the loop.
In the other form that frame has one more inside of it for each pass, which stays empty unless the update declares
something there. An empty frame changes nothing of what names mean or of where they are written to, and a body that
runs on top of it does not notice; neither do the names of frames matter to a run.
-/
import TreeScript.Proofs.Run.Confinement
import TreeScript.Proofs.Run.Output

namespace TreeScript

/-! ## Frames without their names -/

def Frame.nameless (f : Frame) : Frame := { f with name := "" }

theorem Frame.eq_of_nameless {f f' : Frame} (h : f'.nameless = f.nameless) (hname : f'.name = f.name) : f' = f := by
  cases f
  cases f'
  cases h
  cases hname
  rfl

theorem frames_eq_of_nameless {fs fs' : List Frame} (h : fs'.map Frame.nameless = fs.map Frame.nameless)
    (hnames : fs'.map (·.name) = fs.map (·.name)) : fs' = fs := by
  induction fs generalizing fs' with
  | nil => exact List.map_eq_nil_iff.mp h
  | cons f rest ih =>
    cases fs' with
    | nil => cases h
    | cons f' rest' =>
      obtain ⟨hf, hrest⟩ := List.cons.inj h
      obtain ⟨hname, hnames⟩ := List.cons.inj hnames
      rw [Frame.eq_of_nameless hf hname, ih hrest hnames]

/-- The frames of a scope, of which nothing but the bindings counts. -/
def Scope.nameless (s : Scope) : List Frame := s.frames.map Frame.nameless

namespace Scope

variable (s : Scope) (name : String)

theorem find?_nameless : s.find? name = s.nameless.findSome? (·.find? name) := by
  rw [find?, nameless, List.findSome?_map]
  rfl

theorem nameless_set (value : Value) : (s.set name value).nameless = setFirst name value s.nameless := by
  rw [nameless, frames_set, nameless]
  induction s.frames with
  | nil => rfl
  | cons f rest ih =>
    have hown : f.nameless.owns name = f.owns name := rfl
    rw [List.map_cons, setFirst, setFirst, hown, ← ih]
    split <;> rfl

/-- Scopes that differ in the names of their frames still do so when a frame is closed. -/
theorem nameless_pop {a b : Scope} (h : b.nameless = a.nameless) : b.pop.nameless = a.pop.nameless := by
  obtain ⟨current, outer⟩ := a
  obtain ⟨current', outer'⟩ := b
  obtain ⟨-, houter⟩ := List.cons.inj h
  cases outer with
  | nil =>
    cases outer' with
    | nil => exact h
    | cons f rest => cases houter
  | cons f rest =>
    cases outer' with
    | nil => cases houter
    | cons f' rest' => exact houter

/-- Scopes with the same frames but for their names are the same if those are too. -/
theorem eq_of_nameless {a b : Scope} (h : b.nameless = a.nameless)
    (hnames : b.frames.map (·.name) = a.frames.map (·.name)) : b = a := by
  have hframes : b.frames = a.frames := frames_eq_of_nameless h hnames
  obtain ⟨current, outer⟩ := a
  obtain ⟨current', outer'⟩ := b
  cases hframes
  rfl

end Scope

/-! ## Empty frames -/

/-- The second frames are the first ones with some empty frames in addition, below as many others as `k` says. -/
inductive Padded (n : Nat) : Nat → List Frame → List Frame → Prop
  | base {fs : List Frame} (h : fs ≠ []) : Padded n 0 fs (List.replicate n (Frame.empty "") ++ fs)
  | under {k : Nat} {fs fs' : List Frame} (f : Frame) (h : Padded n k fs fs') : Padded n (k + 1) (f :: fs) (f :: fs')

namespace Padded

variable {n k : Nat} {fs fs' : List Frame}

theorem findSome? (h : Padded n k fs fs') (name : String) :
    fs.findSome? (·.find? name) = fs'.findSome? (·.find? name) := by
  induction h with
  | base _ =>
    have hempty : (List.replicate n (Frame.empty "")).findSome? (·.find? name) = none := by
      rw [List.findSome?_eq_none_iff]
      intro f hf
      rw [List.eq_of_mem_replicate hf]
      rfl
    rw [List.findSome?_append, hempty, Option.none_or]
  | under f _ ih => rw [List.findSome?_cons, List.findSome?_cons, ih]

theorem setFirst (h : Padded n k fs fs') (name : String) (value : Value) :
    Padded n k (Scope.setFirst name value fs) (Scope.setFirst name value fs') := by
  induction h with
  | @base fs hfs =>
    -- The empty frames do not own the name, so the value goes to the same frame.
    have hpast : ∀ m, Scope.setFirst name value (List.replicate m (Frame.empty "") ++ fs) =
        List.replicate m (Frame.empty "") ++ Scope.setFirst name value fs := by
      intro m
      induction m with
      | zero => rfl
      | succ m ih => exact congrArg (Frame.empty "" :: ·) ih
    rw [hpast]
    apply base
    intro hnil
    cases fs with
    | nil => exact hfs rfl
    | cons f rest =>
      rw [Scope.setFirst] at hnil
      split at hnil <;> cases hnil
  | under f h ih =>
    rw [Scope.setFirst, Scope.setFirst]
    split
    · exact .under _ h
    · exact .under f ih

theorem eq (h : Padded 0 k fs fs') : fs' = fs := by
  induction h with
  | base _ => rfl
  | under f _ ih => rw [ih]

theorem ne_nil (h : Padded n k fs fs') : fs ≠ [] ∧ fs' ≠ [] := by
  cases h with
  | base h => exact ⟨h, by simp [h]⟩
  | under f h => exact ⟨List.cons_ne_nil _ _, List.cons_ne_nil _ _⟩

theorem base_iff : Padded n 0 fs fs' ↔ fs ≠ [] ∧ fs' = List.replicate n (Frame.empty "") ++ fs := by
  constructor
  · intro h
    cases h with
    | base h => exact ⟨h, rfl⟩
  · rintro ⟨h, rfl⟩
    exact .base h

theorem cons_iff {f f' : Frame} : Padded n (k + 1) (f :: fs) (f' :: fs') ↔ f' = f ∧ Padded n k fs fs' := by
  constructor
  · intro h
    cases h with
    | under f h => exact ⟨rfl, h⟩
  · rintro ⟨rfl, h⟩
    exact .under _ h

end Padded

/-! ## Runs on top of empty frames -/

/-- Two logs of runs that have emitted the same. -/
def SameRecords (log log' : Array Event) : Prop := Event.records log' = Event.records log

namespace SameRecords

variable {log log' : Array Event}

theorem visited_right (h : SameRecords log log') (v : Visit) : SameRecords log (log'.push (.visited v)) := by
  rwa [SameRecords, Event.records_push_visited]

theorem visited (h : SameRecords log log') (v v' : Visit) :
    SameRecords (log.push (.visited v)) (log'.push (.visited v')) := by
  rwa [SameRecords, Event.records_push_visited, Event.records_push_visited]

theorem emitted (h : SameRecords log log') (r : Record) :
    SameRecords (log.push (.emitted r)) (log'.push (.emitted r)) := by
  rw [SameRecords, Event.records_push_emitted, Event.records_push_emitted, h]

end SameRecords

/-- The scopes of two runs, the second of which has `n` empty frames more, below `k` others. -/
def PaddedScopes (n k : Nat) (a b : Scope) : Prop := Padded n k a.nameless b.nameless

namespace PaddedScopes

variable {n k : Nat} {a b : Scope}

theorem find? (h : PaddedScopes n k a b) (name : String) : a.find? name = b.find? name := by
  rw [a.find?_nameless, b.find?_nameless, Padded.findSome? h]

theorem set (h : PaddedScopes n k a b) (name : String) (value : Value) :
    PaddedScopes n k (a.set name value) (b.set name value) := by
  rw [PaddedScopes, Scope.nameless_set, Scope.nameless_set]
  exact Padded.setFirst h name value

theorem succ_iff : PaddedScopes n (k + 1) a b ↔
    b.current.nameless = a.current.nameless ∧
      Padded n k (a.outer.map Frame.nameless) (b.outer.map Frame.nameless) := Padded.cons_iff

theorem push (h : PaddedScopes n k a b) (name name' : String) : PaddedScopes n (k + 1) (a.push name) (b.push name') :=
  Padded.under _ h

theorem pop (h : PaddedScopes n (k + 1) a b) : PaddedScopes n k a.pop b.pop := by
  obtain ⟨-, houter⟩ := succ_iff.mp h
  obtain ⟨current, outer⟩ := a
  obtain ⟨current', outer'⟩ := b
  cases outer with
  | nil => exact absurd rfl houter.ne_nil.1
  | cons f rest =>
    cases outer' with
    | nil => exact absurd rfl houter.ne_nil.2
    | cons f' rest' => exact houter

end PaddedScopes

/-- Within a frame that both have, two runs go in step. -/
theorem lockstep_of_padded (names : List String) (n : Nat) :
    Lockstep names (fun k => PaddedScopes n (k + 1)) SameRecords where
  find h _ := h.find? _
  owns {_ a b name} h _ := by
    obtain ⟨hcurrent, -⟩ := PaddedScopes.succ_iff.mp h
    show a.current.nameless.owns name = b.current.nameless.owns name
    rw [hcurrent]
  declare {_ _ _ _ _ name value isMutable} h _ ha hb := by
    obtain ⟨hcurrent, houter⟩ := PaddedScopes.succ_iff.mp h
    obtain ⟨-, rfl⟩ := Scope.declare_eq_ok ha
    obtain ⟨-, rfl⟩ := Scope.declare_eq_ok hb
    exact PaddedScopes.succ_iff.mpr ⟨congrArg (Frame.bind · ⟨name, value, isMutable⟩) hcurrent, houter⟩
  set value h _ := h.set _ value
  push _ h := h.push _ _
  pop h := h.pop
  visited _ _ h := h.visited _ _
  emitted r h := h.emitted r

/-- What goes the same way with `n` empty frames more, if these are not the current ones. -/
abbrev KeepsPadding (n : Nat) (run : State → Outcome) : Prop :=
  KeepsStep (fun k => PaddedScopes n (k + 1)) SameRecords run

theorem padded_rule (n limit : Nat) : StatementRule (fun _ => True) limit limit fun run _ => KeepsPadding n run :=
  lockstep_rule (lockstep_of_padded [] n) (fun s _ => lockstep_of_padded s.ownNames n) limit

theorem Stmt.keepsPadding (n limit : Nat) (s : Stmt) : KeepsPadding n (s.exec limit) :=
  (padded_rule n limit).exec fun _ _ => trivial

theorem Block.keepsPadding (n limit : Nat) (body : Block) : KeepsPadding n (body.exec limit) :=
  (padded_rule n limit).blockExec fun s _ => s.keepsPadding n limit

/-- The states of two runs that have emitted the same, the second of which has `n` empty frames more. -/
abbrev PaddedStates (n k : Nat) : State → State → Prop := State.Alike (PaddedScopes n) SameRecords k

section

variable {n k limit : Nat} {a b : State}

theorem PaddedStates.visit (h : PaddedStates n k a b) (s s' : Stmt) : PaddedStates n k (a.visit s) (b.visit s') :=
  ⟨h.1, h.2.visited _ _⟩

theorem PaddedStates.visit_right (h : PaddedStates n k a b) (s : Stmt) : PaddedStates n k a (b.visit s) :=
  ⟨h.1, h.2.visited_right _⟩

/-- What goes in step within a frame that both runs have does so in one that they open. -/
theorem PaddedStates.inFrame (name name' : String) {run : State → Outcome} (h : PaddedStates n k a b)
    (hrun : KeepsPadding n run) :
    Outcome.Related (PaddedStates n k) (Outcome.inFrame name run a) (Outcome.inFrame name' run b) := by
  apply Outcome.related_inFrame
  refine (hrun k (a.push name) (b.push name') ⟨h.1.push name name', h.2⟩).imp ?_
  intro a b h
  exact ⟨h.1.pop, h.2⟩

/-- A statement that declares nothing in the current frame goes the same way in an empty one on top of it. -/
theorem Stmt.exec_padded (s : Stmt) (hdeclared : s.declared? = none) (h : PaddedStates n 0 a b) :
    Outcome.Related (PaddedStates n 0) (s.exec limit a) (s.exec limit b) := by
  induction s using Stmt.induction generalizing a b with
  | declare => cases hdeclared
  | assign span target value op =>
    have hvalue : value.eval a.scope = value.eval b.scope := Expr.eval_congr fun name _ => h.1.find? name
    exact Lockstep.rescope (h.visit _ _) (Scope.execAssign_related hvalue (h.1.find? _) fun v => h.1.set _ v)
  | update span target op =>
    exact Lockstep.rescope (h.visit _ _) (Scope.execUpdate_related (h.1.find? _) fun v => h.1.set _ v)
  | output span level argument =>
    have hrecord : a.scope.outputRecord level argument = b.scope.outputRecord level argument :=
      Scope.outputRecord_congr fun name _ => h.1.find? name
    rw [exec, exec, State.visit_scope, State.visit_scope, hrecord]
    exact State.emitIfAny_related _ (h.visit _ _) fun r => ⟨h.1, (h.visit _ _).2.emitted r⟩
  | expression span e =>
    have hrecord : a.scope.expressionRecord e = b.scope.expressionRecord e :=
      Scope.expressionRecord_congr fun name _ => h.1.find? name
    rw [exec, exec, State.visit_scope, State.visit_scope, hrecord]
    exact State.emitIfAny_related _ (h.visit _ _) fun r => ⟨h.1, (h.visit _ _).2.emitted r⟩
  | stray e => exact .failed _ (h.visit _ _)
  | block body => exact (h.visit _ _).inFrame "block" "block" (body.keepsPadding n limit)
  | forLoop span init test update body =>
    have hrun : KeepsPadding n (forRun limit init test update body) :=
      (padded_rule n limit).forRun span trivial (fun s _ => s.keepsPadding n limit)
        (fun s _ => s.keepsPadding n limit) fun s _ => s.keepsPadding n limit
    exact (h.visit _ _).inFrame "for-loop" "for-loop" hrun
  | whileLoop span test body =>
    refine Outcome.related_loop limit ?_ ?_ (h.visit _ _)
    · intro a b h
      exact Expr.condition_congr fun name _ => h.1.find? name
    · intro a b h
      exact h.inFrame "while-body" "while-body" (body.keepsPadding n limit)
  | ifElse span test thenBranch elseBranch _ ihElse =>
    have htest : test.condition .ifStatement a.scope = test.condition .ifStatement b.scope :=
      Expr.condition_congr fun name _ => h.1.find? name
    have hother (a b : State) (h : PaddedStates n 0 a b) :
        Outcome.Related (PaddedStates n 0) (execElse limit elseBranch a) (execElse limit elseBranch b) := by
      cases elseBranch with
      | none => exact .finished h
      | some s =>
        cases s with
        | block body => exact h.inFrame "else" "else" (body.keepsPadding n limit)
        -- Any other statement runs in the current frame, in which it must declare nothing either.
        | _ => exact ihElse _ rfl hdeclared h
    have hst := h.visit (.ifElse span test thenBranch elseBranch) (.ifElse span test thenBranch elseBranch)
    have hfirst := hst.inFrame "if-then" "if-then" (thenBranch.keepsPadding n limit)
    exact Outcome.related_branch htest hst hfirst (hother _ _ hst)

end

/-! ## The other form of a loop -/

/-- The block that a `for` loop stands for, with the nodes that the loop does not have itself at some place. -/
def Stmt.whileForm (place : Span) (init : Option Stmt) (test : Option Expr) (update : Option Stmt) (body : Block) :
    Stmt :=
  .block (.mk place (init.toList ++
    [.whileLoop place (test.getD (.literal place (.boolean true))) (.mk place (.block body :: update.toList))]))

/-- What a run has in common with one in which the frames have other names. -/
def State.SameBindings (a b : State) : Prop := b.scope.nameless = a.scope.nameless ∧ SameRecords a.log b.log

/-- What an error says apart from its message. -/
def Error.gist (e : Error) : String × Option String × Option Span := (e.cause.code, e.cause.subject, e.span)

/-- Failures that differ in their messages at most. -/
abbrev SameGist : Failure → Failure → Prop := Failure.SameIn Error.gist

namespace State.SameBindings

variable {a b : State}

theorem eval (h : a.SameBindings b) (e : Expr) : e.eval a.scope = e.eval b.scope := by
  refine Expr.eval_congr fun name _ => ?_
  rw [a.scope.find?_nameless, b.scope.find?_nameless, h.1]

/-- One more frame in the second run is an empty frame more. -/
theorem push (h : a.SameBindings b) (name : String) : PaddedStates 1 0 a (b.push name) := by
  refine ⟨?_, h.2⟩
  show Padded 1 0 a.scope.nameless (Frame.empty "" :: b.scope.nameless)
  rw [h.1]
  exact .base (List.cons_ne_nil _ _)

/-- It is gone when that frame is closed. -/
theorem of_push (h : PaddedStates 1 0 a b) : a.SameBindings b.pop := by
  obtain ⟨⟨⟨current, outer⟩, log⟩, hlog⟩ := b, h.2
  have hframes : outer.map Frame.nameless = a.scope.nameless := (List.cons.inj (Padded.base_iff.mp h.1).2).2
  cases outer with
  | nil => cases hframes
  | cons f rest => exact ⟨hframes, hlog⟩

theorem pop (h : a.SameBindings b) : a.pop.SameBindings b.pop := ⟨Scope.nameless_pop h.1, h.2⟩

end State.SameBindings

/-! ### The condition -/

/-- A condition that is not there is as good as one that holds. -/
theorem State.SameBindings.loopTest {a b : State} (h : a.SameBindings b) (test : Option Expr) (place : Span) :
    StepsMatch SameGist Eq (State.loopTest .forLoop test a)
      (State.loopTest .whileLoop (some (test.getD (.literal place (.boolean true)))) b) := by
  cases test with
  | none => exact .ok rfl
  | some e =>
    show StepsMatch SameGist Eq (e.condition .forLoop a.scope) (e.condition .whileLoop b.scope)
    rw [Expr.condition, Expr.condition, h.eval e]
    cases e.eval b.scope with
    | error f => exact .error (.refl _ f)
    | ok v =>
      cases v with
      | boolean holds => exact .ok rfl
      | _ => exact .error (.error rfl)

/-! ### One pass -/

/-- A pass of the one loop and a pass of the other do the same. -/
theorem State.SameBindings.pass {limit : Nat} {update : Option Stmt} {a b : State} (h : a.SameBindings b)
    (hdeclared : update.bind Stmt.declared? = none) (place : Span) (body : Block) :
    Outcome.Match SameGist State.SameBindings
      ((Outcome.inFrame "for-body" (body.exec limit) a).andThen (execOptional limit update))
      (Outcome.inFrame "while-body" ((Block.mk place (.block body :: update.toList)).exec limit) b) := by
  have hblock := ((h.push "while-body").visit_right (.block body)).inFrame "for-body" "block"
    (body.keepsPadding 1 limit)
  have hnext (a b : State) (h : PaddedStates 1 0 a b) :
      Outcome.Related (PaddedStates 1 0) (execOptional limit update a) (execOptional limit update b) := by
    cases update with
    | none => exact .finished h
    | some s => exact s.exec_padded hdeclared h
  have hpass : (Block.mk place (.block body :: update.toList)).exec limit (b.push "while-body") =
      (Outcome.inFrame "block" (body.exec limit) ((b.push "while-body").visit (.block body))).andThen
        (execOptional limit update) := by
    rw [Block.exec, execAll_cons, Stmt.exec]
    congr 1
    funext st
    exact execAll_toList limit update st
  apply Outcome.Match.always_right
  rw [hpass]
  exact ((Outcome.related_andThen hblock hnext).imp fun _ _ => of_push).matches (.refl _)

/-! ### The loop -/

theorem State.SameBindings.loop {limit : Nat} {update : Option Stmt} {a b : State} (h : a.SameBindings b)
    (hdeclared : update.bind Stmt.declared? = none) (place : Span) (test : Option Expr) (body : Block) :
    Outcome.Match SameGist State.SameBindings
      (Outcome.loop (State.loopTest .forLoop test)
        (fun st => (Outcome.inFrame "for-body" (body.exec limit) st).andThen (execOptional limit update)) limit a)
      ((Stmt.whileLoop place (test.getD (.literal place (.boolean true)))
        (.mk place (.block body :: update.toList))).exec limit b) := by
  apply Outcome.Match.loop limit
  · intro a b h
    exact h.loopTest test place
  · intro a b h
    exact h.pass hdeclared place body
  · exact ⟨h.1, h.2.visited_right _⟩

/-- A `for` loop and the block that it stands for do the same, up to the names of frames. -/
theorem Stmt.forLoop_sameBindings (limit : Nat) (span place : Span) (init : Option Stmt) (test : Option Expr)
    (update : Option Stmt) (body : Block) (hdeclared : update.bind declared? = none) (st : State) :
    Outcome.Match SameGist State.SameBindings ((forLoop span init test update body).exec limit st)
      ((whileForm place init test update body).exec limit st) := by
  have hinit : KeepsPadding 0 (execOptional limit init) :=
    (padded_rule 0 limit).execOptional fun s _ => s.keepsPadding 0 limit
  let start := (st.visit (forLoop span init test update body)).push "for-loop"
  let start' := (st.visit (whileForm place init test update body)).push "block"
  have hstart : PaddedStates 0 1 start start' :=
    ⟨.under _ (.base (List.cons_ne_nil _ _)), SameRecords.visited rfl _ _⟩
  have hbegun : Outcome.Match SameGist State.SameBindings (execOptional limit init start)
      (execOptional limit init start') :=
    ((hinit 0 start start' hstart).imp fun _ _ h => ⟨h.1.eq, h.2⟩).matches (.refl _)
  have hrun : Outcome.Match SameGist State.SameBindings (forRun limit init test update body start)
      (execAll limit (init.toList ++ [.whileLoop place (test.getD (.literal place (.boolean true)))
        (.mk place (.block body :: update.toList))]) start') := by
    rw [execAll_append, execAll_toList]
    apply hbegun.andThen
    intro a b h
    rw [show execAll limit [_] b = _ from execAll_toList limit (some _) b]
    exact h.loop hdeclared place test body
  exact .inFrame (hrun.imp (fun _ _ hf => hf) fun _ _ => .pop)

/-- A `for` loop whose update declares nothing in the frame of the loop and the block that it stands for end alike, with
errors that differ in their messages at most. They emit the same records and leave the same scope. -/
theorem for_eq_while (limit : Nat) (span place : Span) (init : Option Stmt) (test : Option Expr)
    (update : Option Stmt) (body : Block) (hdeclared : update.bind Stmt.declared? = none) (st : State) :
    Outcome.Match SameGist (fun a b => b.scope = a.scope ∧ Event.records b.log = Event.records a.log)
      ((Stmt.forLoop span init test update body).exec limit st)
      ((Stmt.whileForm place init test update body).exec limit st) := by
  have hnames (s : Stmt) : (s.exec limit st).Leaves fun st' =>
      st'.scope.frames.map (·.name) = st.scope.frames.map (·.name) :=
    (Stmt.exec_confined s.all_assigned st).imp fun _ h => becomes_names h.frames
  have hrun := Stmt.forLoop_sameBindings limit span place init test update body hdeclared st
  apply (hrun.leaves (hnames _) (hnames _)).imp fun _ _ hf => hf
  rintro a b ⟨⟨hscope, hrecords⟩, ha, hb⟩
  exact ⟨Scope.eq_of_nameless hscope (hb.trans ha.symm), hrecords⟩

/-- A loop that counts, with a variable of its own in each pass. -/
theorem for_eq_while_counting :
    ∃ (init : Option Stmt) (test : Option Expr) (update : Option Stmt) (body : Block) (a b : State),
      update.bind Stmt.declared? = none ∧
      (Stmt.forLoop .none init test update body).exec 3 .fresh = .finished a ∧
      (Stmt.whileForm .none init test update body).exec 3 .fresh = .finished b ∧
      b.scope = a.scope ∧ Event.records b.log = [⟨.info, "0"⟩, ⟨.info, "1"⟩] := by
  let i : Expr := .identifier .none "i"
  let init : Stmt := .declare .none "i" true (some (.literal .none (.integer "0")))
  let test : Expr := .binary .none i .lt (.literal .none (.integer "2"))
  let update : Stmt := .update .none ⟨.none, "i"⟩ .increment
  let body : Block := .mk .none [.declare .none "k" false (some i),
    .expression .none (.call .none (.identifier .none "console") "log" [.identifier .none "k"])]
  have hmatch := for_eq_while 3 .none .none (some init) (some test) (some update) body rfl .fresh
  obtain ⟨a, ha⟩ : ∃ a, (Stmt.forLoop .none (some init) (some test) (some update) body).exec 3 .fresh = .finished a :=
    ⟨_, rfl⟩
  have hrecords : Event.records a.log = [⟨.info, "0"⟩, ⟨.info, "1"⟩] := by
    cases ha
    rfl
  generalize hb : (Stmt.whileForm .none (some init) (some test) (some update) body).exec 3 .fresh = o at hmatch
  rw [ha] at hmatch
  cases hmatch with
  | finished h => exact ⟨some init, some test, some update, body, a, _, rfl, ha, hb, h.1, h.2.trans hrecords⟩

end TreeScript
