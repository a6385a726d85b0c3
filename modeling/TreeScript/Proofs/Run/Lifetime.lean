/-
What a run may write to, and what it never does. A statement writes to the frames that it finds only what its
assignments and its own declaration say. A frame lives from where it is opened to where it is closed, which shows in
the depths of the scopes alone; and as long as it lives, its constants keep the values they were declared with, over
all runs that share the scope.
-/
import TreeScript.Proofs.Run.Confinement
import TreeScript.Proofs.Run.Trace

namespace TreeScript

/-! ## Bindings of frames that live -/

namespace Scope

/-- Whether the frame that has so many frames below it has a binding. -/
def Binds (s : Scope) (below : Nat) (b : Binding) : Prop :=
  ∃ inner f outer, s.frames = inner ++ f :: outer ∧ outer.length = below ∧ f.find? b.name = some b

variable {s s' : Scope} {below : Nat} {b : Binding}

theorem Becomes.binds {written : List String} {declared : String → Prop} (h : s.Becomes written declared s')
    (hkept : b.isMutable = true → b.name ∉ written) (hb : s.Binds below b) : s'.Binds below b := by
  obtain ⟨inner, f, outer, hframes, hlength, hb⟩ := hb
  have hafter := h.frames
  rw [hframes] at hafter
  obtain ⟨upper, lower, hframes', -, hlower⟩ := becomes_append hafter
  cases hlower with
  | cons hf hrest => exact ⟨upper, _, _, hframes', hrest.length_eq ▸ hlength, hf.values b.name b hb hkept⟩

theorem Binds.push (hb : s.Binds below b) (name : String) : (s.push name).Binds below b := by
  obtain ⟨inner, f, outer, hframes, hlength, hb⟩ := hb
  refine ⟨.empty name :: inner, f, outer, ?_, hlength, hb⟩
  rw [List.cons_append, ← hframes]
  rfl

theorem Binds.pop (hb : s.Binds below b) (hlives : below ≤ s.pop.depth) : s.pop.Binds below b := by
  obtain ⟨current, outer⟩ := s
  cases outer with
  | nil => exact hb
  | cons f rest =>
    obtain ⟨inner, g, outer, hframes, hlength, hb⟩ := hb
    cases inner with
    | nil =>
      -- The frame that is closed has all others below it.
      obtain ⟨-, rfl⟩ := List.cons.inj hframes
      subst hlength
      exact absurd hlives (Nat.not_succ_le_self _)
    | cons _ inner => exact ⟨inner, g, outer, (List.cons.inj hframes).2, hlength, hb⟩

/-- What is declared is bound in the current frame. -/
theorem binds_declare {name : String} {value : Value} {isMutable : Bool} (h : s.declare name value isMutable = .ok s') :
    s'.Binds s.depth ⟨name, value, isMutable⟩ := by
  obtain ⟨hnew, rfl⟩ := declare_eq_ok h
  refine ⟨[], _, s.outer, rfl, rfl, ?_⟩
  rw [Frame.find?_bind hnew, if_pos rfl]

/-- A frame that is still there after a move still has its constants. -/
theorem Move.binds (h : Move s s') (hconst : b.isMutable = false) (hlives : below ≤ s'.depth) (hb : s.Binds below b) :
    s'.Binds below b := by
  have hkept {written : List String} : b.isMutable = true → b.name ∉ written := by
    rw [hconst]
    rintro ⟨⟩
  cases h with
  | push name => exact hb.push name
  | pop => exact hb.pop hlives
  | declare h => exact (Becomes.declare h trivial : s.Becomes [] (fun _ => True) s').binds hkept hb
  | assign h => exact (Becomes.assign h (List.mem_singleton_self _) : s.Becomes _ (fun _ => True) s').binds hkept hb

/-- A constant keeps its value as long as its frame lives. -/
theorem Moves.binds {last : Scope} {points : List Point} (h : Moves s points last) (hconst : b.isMutable = false)
    (hlives : ∀ p ∈ points, below ≤ p.scope.depth) (hb : s.Binds below b) : ∀ p ∈ points, p.scope.Binds below b := by
  induction h with
  | done => exact fun _ => by rintro ⟨⟩
  | start hstart _ ih =>
    obtain ⟨-, hrest⟩ := List.forall_mem_cons.mp hlives
    subst hstart
    exact List.forall_mem_cons.mpr ⟨hb, ih hrest hb⟩
  | move hmove _ ih =>
    obtain ⟨hfirst, hrest⟩ := List.forall_mem_cons.mp hlives
    have hnext := hmove.binds hconst hfirst hb
    exact List.forall_mem_cons.mpr ⟨hnext, ih hrest hnext⟩

end Scope

/-! ## Sessions -/

/-- The trace of programs that run one after another in one scope, each within a limit of its own. The next one runs
after a failure as well, but not after a run without an end. -/
def Session.trace (runs : List (Nat × Program)) (session : State) : List Point :=
  match runs with
  | [] => []
  | (limit, p) :: rest => p.trace limit session ++
      match p.exec limit session with
      | .finished st => trace rest st
      | .failed _ st => trace rest st
      | .unfinished => []

theorem Session.exists_moves (runs : List (Nat × Program)) (session : State) :
    ∃ last, Scope.Moves session.scope (trace runs session) last := by
  induction runs generalizing session with
  | nil => exact ⟨session.scope, .done _⟩
  | cons run rest ih =>
    obtain ⟨limit, p⟩ := run
    obtain ⟨last, hmoves, hlast⟩ := p.exec_traced session
    rw [trace]
    cases ho : p.exec limit session with
    | finished st =>
      rw [ho] at hlast
      obtain ⟨rfl, -⟩ := hlast
      obtain ⟨last, hrest⟩ := ih st
      exact ⟨last, hmoves.append hrest⟩
    | failed f st =>
      -- The next program runs in the scope that the failure has left.
      rw [ho] at hlast
      obtain ⟨rfl, -⟩ := hlast
      obtain ⟨last, hrest⟩ := ih st
      exact ⟨last, hmoves.append hrest⟩
    | unfinished => exact ⟨last, hmoves.append (.done _)⟩

/-- From any point of a session on, constants last as long as their frames. -/
theorem Session.trace_binds {runs : List (Nat × Program)} {session : State} {before during rest : List Point}
    {p : Point} {below : Nat} {b : Binding} (h : trace runs session = before ++ p :: (during ++ rest))
    (hconst : b.isMutable = false) (hb : p.scope.Binds below b) (hlives : ∀ q ∈ during, below ≤ q.scope.depth) :
    ∀ q ∈ during, q.scope.Binds below b := by
  obtain ⟨last, hmoves⟩ := exists_moves runs session
  rw [h] at hmoves
  obtain ⟨between, -, hmoves⟩ := hmoves.of_append
  obtain ⟨_, hduring, -⟩ := hmoves.of_cons.of_append
  exact hduring.binds hconst hlives hb

/-! ## What a run may write -/

/-- A constant starts with the value of its initializer. -/
theorem Stmt.binds_of_exec_const {limit : Nat} {span : Span} {name : String} {init : Option Expr} {st st' : State}
    (h : (declare span name false init).exec limit st = .finished st') :
    ∃ e v, init = some e ∧ e.eval st.scope = .ok v ∧ st'.scope.Binds st.scope.depth ⟨name, v, false⟩ := by
  rw [exec, State.rescope, State.visit_scope] at h
  cases hstep : st.scope.execDeclare span name false init with
  | error f =>
    rw [hstep] at h
    cases h
  | ok scope =>
    rw [hstep] at h
    cases h
    obtain ⟨e, v, hinit, hv, hdeclare⟩ := Scope.execDeclare_eq_ok hstep
    exact ⟨e, v, hinit, hv, Scope.binds_declare hdeclare⟩

/-- A statement writes to no frame but the current one and to no variable that it does not assign to. A constant starts
with the value of its initializer, and over any runs in one scope it has that value as long as its frame lives. -/
theorem writes_confined :
    (∀ (limit : Nat) (s : Stmt) (st : State), (s.exec limit st).Leaves fun st' =>
      List.Forall₂ (fun f f' => ∀ name, f'.mutability? name = f.mutability? name) st.scope.outer st'.scope.outer ∧
      (∀ name m, st.scope.current.mutability? name = some m → st'.scope.current.mutability? name = some m) ∧
      (∀ name, st.scope.current.mutability? name = none → st'.scope.current.mutability? name ≠ none →
        s.declared? = some name) ∧
      List.Forall₂ (fun f f' => ∀ name b, f.find? name = some b → ¬ (b.isMutable = true ∧ name ∈ s.assigned) →
        f'.find? name = some b) st.scope.frames st'.scope.frames) ∧
    (∀ limit span name init st st', (Stmt.declare span name false init).exec limit st = .finished st' →
      ∃ e v, init = some e ∧ e.eval st.scope = .ok v ∧ st'.scope.Binds st.scope.depth ⟨name, v, false⟩) ∧
    ∀ (runs : List (Nat × Program)) (session : State) (before during rest : List Point) (p : Point) (below : Nat)
      (b : Binding), Session.trace runs session = before ++ p :: (during ++ rest) → b.isMutable = false →
      p.scope.Binds below b → (∀ q ∈ during, below ≤ q.scope.depth) → ∀ q ∈ during, q.scope.Binds below b := by
  refine ⟨?_, ?_, ?_⟩
  · intro limit s st
    apply (s.exec_confined s.all_assigned st).imp
    intro st' h
    refine ⟨h.outer.imp fun f f' hf => hf.mutability?_eq, h.current.keeps, h.current.gains, ?_⟩
    apply h.frames.imp
    intro f f' hf name b hb hkept
    exact hf.values name b hb fun hm hw => hkept ⟨hm, hw⟩
  · intro limit span name init st st' h
    exact Stmt.binds_of_exec_const h
  · intro runs session before during rest p below b h
    exact Session.trace_binds h

/-- A constant, an attempt to assign to it, and a variable of its name in a block. -/
def shadowingRuns : List (Nat × Program) :=
  [(1, ⟨[.declare .none "c" false (some (.literal .none (.boolean true)))], .null⟩),
    (1, ⟨[.assign .none ⟨.none, "c"⟩ (.literal .none (.boolean false)) .assign], .null⟩),
    (1, ⟨[.block (.mk .none [.declare .none "c" true (some (.literal .none (.boolean false)))])], .null⟩)]

/-- The constant is the same in the block and after it. -/
theorem writes_confined_shadowed_constant :
    ∃ before inside after, Session.trace shadowingRuns .fresh = before ++ [inside, after] ∧
      inside.scope.current.find? "c" = some ⟨"c", .boolean false, true⟩ ∧
      inside.scope.Binds 0 ⟨"c", .boolean true, false⟩ ∧ after.scope.Binds 0 ⟨"c", .boolean true, false⟩ := by
  obtain ⟨first, declared, during, inside, after, htrace, hconst, hinside⟩ :
      ∃ first declared during inside after, Session.trace shadowingRuns .fresh =
        [first] ++ declared :: ((during ++ [inside, after]) ++ []) ∧
        declared.scope = ⟨⟨"global", [⟨"c", .boolean true, false⟩]⟩, []⟩ ∧
        inside.scope.current.find? "c" = some ⟨"c", .boolean false, true⟩ :=
    ⟨_, _, [_, _, _, _], _, _, rfl, rfl, rfl⟩
  have hb : declared.scope.Binds 0 ⟨"c", .boolean true, false⟩ := by
    rw [hconst]
    exact ⟨[], _, [], rfl, rfl, rfl⟩
  have hlives := writes_confined.2.2 _ _ _ _ _ _ 0 _ htrace rfl hb fun _ _ => Nat.zero_le _
  refine ⟨first :: declared :: during, inside, after, ?_, hinside, hlives inside (by simp), hlives after (by simp)⟩
  rw [htrace]
  simp

end TreeScript
