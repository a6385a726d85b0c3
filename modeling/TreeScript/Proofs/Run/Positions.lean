/-
Where in the tree a run stands each time a statement starts. The frames that are open then are those that the position
alone says, on top of the ones from before the run with what became of them; the first statement of a block, of a
branch or of a pass of a loop finds an empty frame; and when a run ends, all frames from before are there again.
-/
import TreeScript.Proofs.Run.Confinement
import TreeScript.Proofs.Run.Trace

namespace TreeScript

/-! ## The place of a start -/

variable {written : List String}

/-- A start of a statement inside of `s`, in a run of `s` from `st`: the statement is the one at its position; it runs
in the frames that the position says, on top of the frames from before with what became of them; and the first
statement of a body finds an empty frame. -/
structure Start.Placed (written : List String) (s : Stmt) (st : State) (start : Start) : Prop where
  stmt : s.at? start.path = some start.stmt
  frames : ∃ opened below, start.state.scope.frames = opened ++ below ∧
    opened.map (·.name) = s.framesAt start.path ∧
    List.Forall₂ (Frame.Becomes written fun _ => True) st.scope.frames below
  fresh : ∀ step, start.path.getLast? = some step → step.isFirst = true → start.state.scope.current.bindings = []

namespace Start.Placed

/-- The statement that runs is the first to start. -/
theorem root (s : Stmt) (st : State) : (⟨[], s, st⟩ : Start).Placed written s st := by
  refine ⟨rfl, ⟨[], st.scope.frames, rfl, rfl, becomes_refl _⟩, ?_⟩
  rintro _ ⟨⟩

variable {s child : Stmt} {st st' : State} {start : Start} {step : Step}

/-- The run may have begun earlier. -/
theorem since (h : start.Placed written s st') (hst : st.scope.Becomes written (fun _ => True) st'.scope) :
    start.Placed written s st := by
  obtain ⟨opened, below, hframes, hnames, hbelow⟩ := h.frames
  exact ⟨h.stmt, ⟨opened, below, hframes, hnames, becomes_trans hst.frames hbelow⟩, h.fresh⟩

/-- A start in a child is one in the statement around it, which has opened the frames of the step. -/
theorem under (h : start.Placed written child st') (hchild : s.child? step = some child)
    (hst : List.Forall₂ (Frame.Becomes written fun _ => True) ((s.opens step).map .empty ++ st.scope.frames)
      st'.scope.frames)
    (hfirst : step.isFirst = true → start.path = [] → start.state.scope.current.bindings = []) :
    (start.under step).Placed written s st := by
  obtain ⟨opened, below, hframes, hnames, hbelow⟩ := h.frames
  refine ⟨?_, ?_, ?_⟩
  · rw [Start.under, Stmt.at?, hchild]
    exact h.stmt
  · -- What lies below the frames of the child are those that the step opens, and then those from before.
    obtain ⟨upper, lower, rfl, hupper, hlower⟩ := becomes_append (becomes_trans hst hbelow)
    refine ⟨opened ++ upper, lower, ?_, ?_, hlower⟩
    · rw [Start.under, hframes, List.append_assoc]
    · have hsteps : upper.map (·.name) = s.opens step := by
        rw [becomes_names hupper, List.map_map]
        exact List.map_id _
      rw [Start.under, Stmt.framesAt, hchild, List.map_append, hnames, hsteps]
  · intro last hlast hisFirst
    cases hpath : start.path with
    | nil =>
      rw [Start.under, hpath, List.getLast?_singleton] at hlast
      cases hlast
      exact hfirst hisFirst hpath
    | cons head rest =>
      rw [Start.under, hpath, List.getLast?_cons_cons, ← hpath] at hlast
      exact h.fresh last hlast hisFirst

end Start.Placed

/-! ### The starts of a run -/

section

variable {limit : Nat} {start : Start} {st : State}

theorem Outcome.mem_continued {α : Type} {a : α} {o : Outcome} {next : State → List α} (h : a ∈ o.continued next) :
    ∃ st, o = .finished st ∧ a ∈ next st := by
  cases o with
  | finished st => exact ⟨st, rfl, h⟩
  | failed f st => cases h
  | unfinished => cases h

/-- A start in a loop is one in some pass, which begins after the passes before. -/
theorem Outcome.mem_eachPass {α : Type} {a : α} {test : State → Except Failure Bool} {run : State → Outcome}
    {pass : State → List α} (hrun : Confined written (fun _ => True) run) (h : a ∈ eachPass test run pass limit st) :
    ∃ st', st.scope.Becomes written (fun _ => True) st'.scope ∧ a ∈ pass st' := by
  induction limit generalizing st with
  | zero => cases h
  | succ limit ih =>
    rw [Outcome.eachPass] at h
    split at h
    · rcases List.mem_append.mp h with h | h
      · exact ⟨st, .refl _, h⟩
      · obtain ⟨between, hpass, h⟩ := Outcome.mem_continued h
        obtain ⟨st', hst', h⟩ := ih h
        exact ⟨st', (hrun.of_finished hpass).trans hst', h⟩
    · cases h

/-- All that starts in a run of a statement is placed in it, and only the statement itself is at its own position. -/
def Stmt.StartsPlaced (written : List String) (limit : Nat) (s : Stmt) : Prop :=
  ∀ st start, .start start ∈ s.trace limit st → start.Placed written s st ∧ (start.path = [] → start.state = st)

/-- The starts of statements in order: each is placed in one of them, and the first of all begins where the run does. -/
theorem traceAll_placed {statements : List Stmt} {step : Nat → Step}
    (hrun : ∀ s ∈ statements, Confined written (fun _ => True) (s.exec limit))
    (hs : ∀ s ∈ statements, s.StartsPlaced written limit) (h : .start start ∈ traceAll limit step statements st) :
    ∃ i s, ∃ inner : Start, statements[i]? = some s ∧ start = inner.under (step i) ∧ inner.Placed written s st ∧
      (i = 0 → inner.path = [] → inner.state = st) := by
  -- The steps to the statements that are left count on from the first one, and their runs begin in another state.
  induction statements generalizing step st with
  | nil => cases h
  | cons s rest ih =>
    obtain ⟨hrun, hrunRest⟩ := List.forall_mem_cons.mp hrun
    obtain ⟨hs, hrest⟩ := List.forall_mem_cons.mp hs
    rw [traceAll] at h
    rcases List.mem_append.mp h with h | h
    · obtain ⟨inner, hinner, rfl⟩ := Point.mem_under h
      obtain ⟨hplaced, hroot⟩ := hs st inner hinner
      exact ⟨0, s, inner, rfl, rfl, hplaced, fun _ => hroot⟩
    · obtain ⟨between, hfirst, h⟩ := Outcome.mem_continued h
      obtain ⟨i, t, inner, ht, hstart, hplaced, -⟩ := ih hrunRest hrest h
      exact ⟨i + 1, t, inner, ht, hstart, hplaced.since (hrun.of_finished hfirst), fun hi => by cases hi⟩

section

variable {s : Stmt}

/-- The starts in a body that runs in a frame of its own. -/
theorem Block.starts_placed {body : Block} {step : Nat → Step} {st' : State} {name : String}
    (h : .start start ∈ body.trace limit step (st'.push name))
    (hrun : ∀ t ∈ body.statements, Confined written (fun _ => True) (t.exec limit))
    (hs : ∀ t ∈ body.statements, t.StartsPlaced written limit) (hchild : ∀ i, s.child? (step i) = body.statements[i]?)
    (hfirst : ∀ i, (step i).isFirst = true → i = 0)
    (hst : ∀ i, List.Forall₂ (Frame.Becomes written fun _ => True) ((s.opens (step i)).map .empty ++ st.scope.frames)
      (st'.push name).scope.frames) :
    start.Placed written s st ∧ start.path ≠ [] := by
  cases body with
  | mk span statements =>
    obtain ⟨i, t, inner, ht, rfl, hplaced, hroot⟩ := traceAll_placed hrun hs h
    refine ⟨hplaced.under ((hchild i).trans ht) (hst i) ?_, List.cons_ne_nil _ _⟩
    intro hisFirst hpath
    rw [hroot (hfirst i hisFirst) hpath]
    rfl

/-- The starts of a child that is no part of a body. -/
theorem Stmt.StartsPlaced.under {child : Stmt} {step : Step} {st' : State} (hs : child.StartsPlaced written limit)
    (h : .start start ∈ (child.trace limit st').map (Point.under step)) (hchild : s.child? step = some child)
    (hfirst : step.isFirst = false)
    (hst : List.Forall₂ (Frame.Becomes written fun _ => True) ((s.opens step).map .empty ++ st.scope.frames)
      st'.scope.frames) : start.Placed written s st ∧ start.path ≠ [] := by
  obtain ⟨inner, hinner, rfl⟩ := Point.mem_under h
  refine ⟨(hs st' inner hinner).1.under hchild hst ?_, List.cons_ne_nil _ _⟩
  rw [hfirst]
  rintro ⟨⟩

/-- A statement is the first to start in its own run, and what else starts is inside of it. -/
theorem Stmt.startsPlaced_cons {inside : List Point}
    (h : ∀ start, .start start ∈ inside → start.Placed written s st ∧ start.path ≠ []) (start : Start)
    (hstart : .start start ∈ Point.start ⟨[], s, st⟩ :: inside) :
    start.Placed written s st ∧ (start.path = [] → start.state = st) := by
  rcases List.mem_cons.mp hstart with hself | hinside
  · cases hself
    exact ⟨.root s st, fun _ => rfl⟩
  · obtain ⟨hplaced, hpath⟩ := h start hinside
    exact ⟨hplaced, fun hroot => absurd hroot hpath⟩

theorem Step.eq_zero_of_item_isFirst (i : Nat) (h : (Step.item i).isFirst = true) : i = 0 := by
  cases i with
  | zero => rfl
  | succ i => cases h

theorem Step.eq_zero_of_elseItem_isFirst (i : Nat) (h : (Step.elseItem i).isFirst = true) : i = 0 := by
  cases i with
  | zero => rfl
  | succ i => cases h

end

/-- All that starts in a run of a statement is placed in it. -/
theorem Stmt.starts_placed {s : Stmt} (h : s.All fun n => ∀ name, n.target? = some name → name ∈ written) :
    s.StartsPlaced written limit := by
  have hrule := confined_rule written limit
  induction s using Stmt.induction with
  | block body ih =>
    obtain ⟨-, hbody⟩ := all_block.mp h
    intro st
    rw [trace]
    apply startsPlaced_cons
    intro start hstart
    exact Block.starts_placed (Outcome.mem_framed hstart) (fun t ht => hrule.exec (hbody t ht))
      (fun t ht => ih t ht (hbody t ht)) (fun _ => rfl) Step.eq_zero_of_item_isFirst (fun _ => becomes_refl _)
  | forLoop span init test update body ihInit ihUpdate ihBody =>
    obtain ⟨-, ⟨hinit, hupdate⟩, hbody⟩ := all_forLoop.mp h
    have hfirst : Confined written (fun _ => True) (execOptional limit init) :=
      hrule.execOptional fun t ht => hrule.exec (hinit t ht)
    have hnext : Confined written (fun _ => True) (execOptional limit update) :=
      hrule.execOptional fun t ht => hrule.exec (hupdate t ht)
    have hpass : Confined written (fun _ => True) (Outcome.inFrame "for-body" (body.exec limit)) :=
      Block.exec_confined limit "for-body" hbody
    intro st
    rw [trace]
    apply startsPlaced_cons
    intro start hstart
    rcases List.mem_append.mp (Outcome.mem_framed hstart) with hstart | hstart
    · cases init with
      | none => cases hstart
      | some first => exact (ihInit first rfl (hinit first rfl)).under hstart rfl rfl (becomes_refl _)
    · obtain ⟨entered, hentered, hstart⟩ := Outcome.mem_continued hstart
      obtain ⟨st', hst', hstart⟩ := Outcome.mem_eachPass (hpass.andThen hnext) hstart
      -- Between the passes the frame of the loop is the current one, with what became of it.
      have hloop := (hfirst.of_finished hentered).trans hst'
      rcases List.mem_append.mp hstart with hstart | hstart
      · exact Block.starts_placed (Outcome.mem_framed hstart) (fun t ht => hrule.exec (hbody t ht))
          (fun t ht => ihBody t ht (hbody t ht)) (fun _ => rfl) Step.eq_zero_of_item_isFirst
          (fun _ => .cons (.refl _) hloop.frames)
      · obtain ⟨passed, hpassed, hstart⟩ := Outcome.mem_continued hstart
        cases update with
        | none => cases hstart
        | some next =>
          exact (ihUpdate next rfl (hupdate next rfl)).under hstart rfl rfl
            (hloop.trans (hpass.of_finished hpassed)).frames
  | whileLoop span test body ih =>
    obtain ⟨-, hbody⟩ := all_whileLoop.mp h
    have hpass : Confined written (fun _ => True) (Outcome.inFrame "while-body" (body.exec limit)) :=
      Block.exec_confined limit "while-body" hbody
    intro st
    rw [trace]
    apply startsPlaced_cons
    intro start hstart
    obtain ⟨st', hst', hstart⟩ := Outcome.mem_eachPass hpass hstart
    exact Block.starts_placed (Outcome.mem_framed hstart) (fun t ht => hrule.exec (hbody t ht))
      (fun t ht => ih t ht (hbody t ht)) (fun _ => rfl) Step.eq_zero_of_item_isFirst
      (fun _ => .cons (.refl _) hst'.frames)
  | ifElse span test thenBranch elseBranch ihThen ihElse ihBlock =>
    obtain ⟨-, hthen, helse⟩ := all_ifElse.mp h
    intro st
    rw [trace]
    apply startsPlaced_cons
    intro start hstart
    split at hstart
    · cases hstart
    · exact Block.starts_placed (Outcome.mem_framed hstart) (fun t ht => hrule.exec (hthen t ht))
        (fun t ht => ihThen t ht (hthen t ht)) (fun _ => rfl) Step.eq_zero_of_item_isFirst (fun _ => becomes_refl _)
    · cases elseBranch with
      | none => cases hstart
      | some other =>
        cases other with
        | block body =>
          obtain ⟨-, hbody⟩ := all_block.mp (helse _ rfl)
          exact Block.starts_placed (Outcome.mem_framed hstart) (fun t ht => hrule.exec (hbody t ht))
            (fun t ht => ihBlock body rfl t ht (hbody t ht)) (fun _ => rfl) Step.eq_zero_of_elseItem_isFirst
            (fun _ => becomes_refl _)
        -- Any other statement has no frame of its own.
        | _ => exact (ihElse _ rfl (helse _ rfl)).under hstart rfl rfl (becomes_refl _)
  | declare | assign | update =>
    intro st
    rw [trace]
    apply startsPlaced_cons
    intro start hstart
    obtain ⟨_, -, hmoved⟩ := Outcome.mem_continued hstart
    cases List.mem_singleton.mp hmoved
  | output | expression | stray =>
    intro st
    apply startsPlaced_cons
    rintro start ⟨⟩

end

/-! ## Frames and positions -/

/-- The starts in a program are placed in its statements, one step further in. -/
theorem Program.starts_placed {limit : Nat} {p : Program} {st : State} {start : Start}
    (h : .start start ∈ p.trace limit st) :
    ∃ i s, ∃ inner : Start, p.statements[i]? = some s ∧ start = inner.under (.item i) ∧
      inner.Placed p.assigned s st := by
  obtain ⟨i, s, inner, hs, hstart, hplaced, -⟩ := traceAll_placed
    (fun s hs => (confined_rule p.assigned limit).exec (p.all_assigned s hs))
    (fun s hs => Stmt.starts_placed (p.all_assigned s hs)) h
  exact ⟨i, s, inner, hs, hstart, hplaced⟩

section

variable {limit : Nat} {p : Program} {st : State} {start : Start}

theorem Program.at?_start (h : .start start ∈ p.trace limit st) : p.at? start.path = some start.stmt := by
  obtain ⟨i, s, inner, hs, rfl, hplaced⟩ := starts_placed h
  rw [Start.under, Program.at?, hs]
  exact hplaced.stmt

/-- The frames at a start are those of its position, and below them those from before the run. -/
theorem Program.frames_start (h : .start start ∈ p.trace limit st) :
    start.state.scope.frames.map (·.name) = p.framesAt start.path ++ st.scope.frames.map (·.name) := by
  obtain ⟨i, s, inner, hs, rfl, hplaced⟩ := starts_placed h
  obtain ⟨opened, below, hframes, hnames, hbelow⟩ := hplaced.frames
  rw [Start.under, Program.framesAt, hs, hframes, List.map_append, hnames, becomes_names hbelow]

theorem Program.depth_start (h : .start start ∈ p.trace limit st) :
    start.visit.depth = st.scope.depth + (p.framesAt start.path).length := by
  have hlength := congrArg List.length (frames_start h)
  simp only [Scope.frames, List.map_cons, List.length_append, List.length_cons, List.length_map] at hlength
  simp only [Start.visit, Scope.depth]
  omega

theorem Program.scopeName_start (h : .start start ∈ p.trace limit st) :
    start.visit.scopeName = (p.framesAt start.path).headD st.scope.current.name := by
  have hframes := frames_start h
  rw [Scope.frames, Scope.frames, List.map_cons, List.map_cons] at hframes
  cases hnames : p.framesAt start.path with
  | nil =>
    rw [hnames] at hframes
    exact (List.cons.inj hframes).1
  | cons name rest =>
    rw [hnames] at hframes
    exact (List.cons.inj hframes).1

theorem Program.bindings_start (h : .start start ∈ p.trace limit st) {outer : List Step} {step : Step}
    (hpath : start.path = outer ++ [step]) (houter : outer ≠ []) (hstep : step.isFirst = true) :
    start.state.scope.current.bindings = [] := by
  obtain ⟨i, s, inner, hs, rfl, hplaced⟩ := starts_placed h
  apply hplaced.fresh step _ hstep
  cases outer with
  | nil => exact absurd rfl houter
  | cons first rest =>
    have hinner : inner.path = rest ++ [step] := (List.cons.inj hpath).2
    rw [hinner, List.getLast?_concat]

end

/-- When a run ends, with a failure or without one, the frames are those from before, in their order. At each start the
depth and the names of the frames follow from the position alone, and the first statement of a block, of a branch or of
a pass of a loop finds an empty frame. -/
theorem frames_follow_positions (limit : Nat) :
    (∀ (s : Stmt) (st : State), (s.exec limit st).Leaves fun st' =>
      List.Forall₂ (fun f f' => f'.name = f.name ∧ ∀ name m, f.mutability? name = some m → f'.mutability? name = some m)
        st.scope.frames st'.scope.frames) ∧
    ∀ (p : Program) (st : State),
      ((p.exec limit st).Leaves fun st' =>
        Event.visits st'.log = Event.visits st.log ++ (p.trace limit st).filterMap Point.visit?) ∧
      ∀ start, .start start ∈ p.trace limit st →
        p.at? start.path = some start.stmt ∧
        start.visit.depth = st.scope.depth + (p.framesAt start.path).length ∧
        start.visit.scopeName = (p.framesAt start.path).headD st.scope.current.name ∧
        start.state.scope.frames.map (·.name) = p.framesAt start.path ++ st.scope.frames.map (·.name) ∧
        ∀ outer step, start.path = outer ++ [step] → outer ≠ [] → step.isFirst = true →
          start.state.scope.current.bindings = [] := by
  constructor
  · intro s st
    apply (s.exec_confined s.all_assigned st).imp
    intro st' h
    apply h.frames.imp
    intro f f' hf
    exact ⟨hf.name, hf.keeps⟩
  · intro p st
    obtain ⟨_, -, hvisits⟩ := p.exec_traced st
    refine ⟨hvisits.imp fun _ h => h.2, ?_⟩
    intro start h
    refine ⟨p.at?_start h, p.depth_start h, p.scopeName_start h, p.frames_start h, ?_⟩
    intro outer step
    exact p.bindings_start h

/-- Counts to two, and declares a constant in each pass. -/
def countingProgram : Program :=
  ⟨[.forLoop .none (some (.declare .none "i" true (some (.literal .none (.integer "0")))))
    (some (.binary .none (.identifier .none "i") .lt (.literal .none (.integer "2"))))
    (some (.update .none ⟨.none, "i"⟩ .increment))
    (.mk .none [.declare .none "k" false (some (.identifier .none "i"))])], .null⟩

/-- The second pass of a loop. -/
theorem frames_follow_positions_second_pass :
    ∃ start : Start, .start start ∈ countingProgram.trace 3 .fresh ∧ start.path = [.item 0, .item 0] ∧
      start.visit.depth = 2 ∧ start.visit.scopeName = "for-body" ∧ start.state.scope.current.bindings = [] := by
  let declaration : Stmt := .declare .none "k" false (some (.identifier .none "i"))
  obtain ⟨st, hstart⟩ : ∃ st, (countingProgram.trace 3 .fresh)[11]? =
      some (.start ⟨[.item 0, .item 0], declaration, st⟩) := ⟨_, rfl⟩
  have hmem := List.mem_of_getElem? hstart
  obtain ⟨-, hdepth, hname, -, hempty⟩ := ((frames_follow_positions 3).2 countingProgram .fresh).2 _ hmem
  exact ⟨_, hmem, rfl, hdepth, hname, hempty [.item 0] (.item 0) rfl (List.cons_ne_nil _ _) rfl⟩

end TreeScript
