/-
What a run may change in the frames that it starts in. It opens and closes frames of its own, and when it ends,
with or without a failure, the frames from before are all there again. They have kept their names and their
bindings; a value is another only if its variable is mutable and is assigned to somewhere in the tree, and a new
name is in the current frame only if the statement itself declares it there. `Scope.Becomes` says so of two
scopes; it composes, every way to put runs together keeps it, and the induction over statements puts it all
together.
-/
import TreeScript.Proofs.Run.Rule
import TreeScript.Proofs.Tree.Names

namespace TreeScript

variable {written : List String} {declared declared' : String → Prop}

/-! ## Frames -/

/-- A frame and what it may become while no names but those `written` are assigned to and, in the frame itself, none
but those `declared` are declared. -/
structure Frame.Becomes (written : List String) (declared : String → Prop) (f f' : Frame) : Prop where
  name : f'.name = f.name
  keeps : ∀ name m, f.mutability? name = some m → f'.mutability? name = some m
  gains : ∀ name, f.mutability? name = none → f'.mutability? name ≠ none → declared name
  values : ∀ name b, f.find? name = some b → (b.isMutable = true → name ∉ written) → f'.find? name = some b

namespace Frame.Becomes

variable {f f' f'' : Frame}

theorem refl (f : Frame) : f.Becomes written declared f :=
  ⟨rfl, fun _ _ h => h, fun _ hnone hsome => absurd hnone hsome, fun _ _ h _ => h⟩

theorem trans (h : f.Becomes written declared f') (h' : f'.Becomes written declared f'') :
    f.Becomes written declared f'' where
  name := h'.name.trans h.name
  keeps := by
    intro name m hm
    exact h'.keeps name m (h.keeps name m hm)
  gains := by
    intro name hnone hsome
    by_cases hbetween : f'.mutability? name = none
    · exact h'.gains name hbetween hsome
    · exact h.gains name hnone hbetween
  values := by
    intro name b hb hw
    exact h'.values name b (h.values name b hb hw) hw

theorem imp (h : f.Becomes written declared f') (hd : ∀ name, declared name → declared' name) :
    f.Becomes written declared' f' :=
  { h with gains := fun name hnone hsome => hd name (h.gains name hnone hsome) }

/-- Where nothing is declared, the names stay as they are. -/
theorem mutability?_eq (h : f.Becomes written (fun _ => False) f') (name : String) :
    f'.mutability? name = f.mutability? name := by
  cases hm : f.mutability? name with
  | none =>
    by_contra hsome
    exact h.gains name hm hsome
  | some m => exact h.keeps name m hm

/-- A declaration. -/
theorem bind {b : Binding} (hnew : f.owns b.name = false) (hd : declared b.name) :
    f.Becomes written declared (f.bind b) := by
  have hother {name : String} {m : Bool} (hm : f.mutability? name = some m) : b.name ≠ name := by
    rintro rfl
    rw [Frame.owns_eq, hm] at hnew
    cases hnew
  refine ⟨rfl, ?_, ?_, ?_⟩
  · intro name m hm
    rw [mutability?_bind hnew, if_neg (hother hm), hm]
  · intro name hnone hsome
    rw [mutability?_bind hnew, hnone] at hsome
    by_cases heq : b.name = name
    · rwa [← heq]
    · simp [heq] at hsome
  · intro name c hc _
    have hm : f.mutability? name = some c.isMutable := by rw [mutability?, hc, Option.map_some]
    rw [find?_bind hnew, if_neg (hother hm), hc]

/-- A value that replaces that of a mutable variable. -/
theorem set {b : Binding} {name : String} {value : Value} (hb : f.find? name = some b) (hm : b.isMutable = true)
    (hw : name ∈ written) : f.Becomes written declared (f.set name value) := by
  refine ⟨rfl, ?_, ?_, ?_⟩
  · intro other m h
    rw [mutability?_set, h]
  · intro other hnone hsome
    rw [mutability?_set] at hsome
    exact absurd hnone hsome
  · intro other c hc hother
    -- The name that is written has another value now, so `other` is not that name.
    have hne : other ≠ name := by
      rintro rfl
      obtain rfl : b = c := Option.some.inj (hb.symm.trans hc)
      exact hother hm hw
    rw [find?_set, hc]
    simp [hne]

end Frame.Becomes

/-! ## Frames in a row -/

section

variable {fs fs' fs'' : List Frame}

theorem becomes_refl (fs : List Frame) : List.Forall₂ (Frame.Becomes written declared) fs fs :=
  List.forall₂_same.mpr fun f _ => .refl f

theorem becomes_trans (h : List.Forall₂ (Frame.Becomes written declared) fs fs')
    (h' : List.Forall₂ (Frame.Becomes written declared) fs' fs'') :
    List.Forall₂ (Frame.Becomes written declared) fs fs'' := by
  induction h generalizing fs'' with
  | nil => exact h'
  | cons hf _ ih =>
    cases h' with
    | cons hf' hrest' => exact .cons (hf.trans hf') (ih hrest')

theorem becomes_names (h : List.Forall₂ (Frame.Becomes written declared) fs fs') :
    fs'.map (·.name) = fs.map (·.name) := by
  induction h with
  | nil => rfl
  | cons hf _ ih => rw [List.map_cons, List.map_cons, hf.name, ih]

/-- The frames that become others one by one fall into two parts as those do. -/
theorem becomes_append (h : List.Forall₂ (Frame.Becomes written declared) (fs ++ fs') fs'') :
    ∃ upper lower, fs'' = upper ++ lower ∧ List.Forall₂ (Frame.Becomes written declared) fs upper ∧
      List.Forall₂ (Frame.Becomes written declared) fs' lower := by
  refine ⟨fs''.take fs.length, fs''.drop fs.length, (List.take_append_drop _ _).symm, ?_, ?_⟩
  · exact (List.forall₂_take_append _ _ _ h.flip).flip
  · exact (List.forall₂_drop_append _ _ _ h.flip).flip

/-- A value replaces that of a mutable variable in the first frame that binds the name. -/
theorem becomes_setFirst {b : Binding} {name : String} {value : Value} (hb : fs.findSome? (·.find? name) = some b)
    (hm : b.isMutable = true) (hw : name ∈ written) :
    List.Forall₂ (Frame.Becomes written declared) fs (Scope.setFirst name value fs) := by
  induction fs with
  | nil => exact .nil
  | cons f rest ih =>
    rw [List.findSome?_cons] at hb
    rw [Scope.setFirst]
    cases hf : f.find? name with
    | none =>
      rw [hf] at hb
      rw [if_neg (by simp [Frame.owns, hf])]
      exact .cons (.refl f) (ih hb)
    | some c =>
      -- This is the frame that is written to; those around it stay.
      rw [hf] at hb
      cases hb
      rw [if_pos (by simp [Frame.owns, hf])]
      exact .cons (.set hf hm hw) (becomes_refl rest)

end

/-! ## Scopes -/

/-- A scope and what it may become: names are declared in the current frame only. -/
structure Scope.Becomes (written : List String) (declared : String → Prop) (s s' : Scope) : Prop where
  current : s.current.Becomes written declared s'.current
  outer : List.Forall₂ (Frame.Becomes written fun _ => False) s.outer s'.outer

namespace Scope.Becomes

variable {s s' s'' : Scope}

theorem refl (s : Scope) : s.Becomes written declared s := ⟨.refl _, becomes_refl _⟩

theorem trans (h : s.Becomes written declared s') (h' : s'.Becomes written declared s'') :
    s.Becomes written declared s'' := ⟨h.current.trans h'.current, becomes_trans h.outer h'.outer⟩

theorem imp (h : s.Becomes written declared s') (hd : ∀ name, declared name → declared' name) :
    s.Becomes written declared' s' := ⟨h.current.imp hd, h.outer⟩

theorem frames (h : s.Becomes written declared s') :
    List.Forall₂ (Frame.Becomes written declared) s.frames s'.frames :=
  .cons h.current (h.outer.imp fun _ _ hf => hf.imp fun _ => False.elim)

theorem declare {name : String} {value : Value} {isMutable : Bool} (h : s.declare name value isMutable = .ok s')
    (hd : declared name) : s.Becomes written declared s' := by
  obtain ⟨hnew, rfl⟩ := declare_eq_ok h
  exact ⟨.bind hnew hd, becomes_refl _⟩

theorem assign {name : String} {value : Value} (h : s.assign name value = .ok s') (hw : name ∈ written) :
    s.Becomes written declared s' := by
  obtain ⟨b, hb, hm⟩ := mutable_of_assign h
  -- An assignment declares nothing, neither in the current frame nor in the others.
  have hframes : List.Forall₂ (Frame.Becomes written fun _ => False) s.frames s'.frames := by
    rw [assign_eq_ok h, frames_set]
    exact becomes_setFirst hb hm hw
  cases hframes with
  | cons hcurrent houter => exact ⟨hcurrent.imp fun _ => False.elim, houter⟩

/-- Whatever is declared in a frame is gone with it. -/
theorem pop {name : String} (h : (s.push name).Becomes written declared s') : s.Becomes written declared' s'.pop := by
  obtain ⟨current, outer⟩ := s'
  cases h.outer with
  | cons hf hrest => exact ⟨hf.imp fun _ => False.elim, hrest⟩

end Scope.Becomes

/-! ## Runs -/

/-- What changes no more, from wherever it starts, than assignments to names and declarations of names allow. -/
def Confined (written : List String) (declared : String → Prop) (run : State → Outcome) : Prop :=
  ∀ st, (run st).Leaves fun st' => st.scope.Becomes written declared st'.scope

/-- The same as a contract: it does not matter whether the run fails. -/
def confinement (written : List String) (declared : String → Prop) : Contract where
  good st st' := st.scope.Becomes written declared st'.scope
  bad st _ st' := st.scope.Becomes written declared st'.scope
  refl st := .refl st.scope
  trans := .trans
  trans_bad := .trans

namespace Confined

variable {run next : State → Outcome} {limit : Nat}

theorem holds (h : Confined written declared run) : (confinement written declared).Holds run := h

theorem imp (h : Confined written declared run) (hd : ∀ name, declared name → declared' name) :
    Confined written declared' run := by
  intro st
  apply (h st).imp
  intro st' h
  exact h.imp hd

theorem of_finished {st st' : State} (h : Confined written declared run) (hrun : run st = .finished st') :
    st.scope.Becomes written declared st'.scope := by
  have hst := h st
  rwa [hrun] at hst

theorem andThen (h : Confined written declared run) (hnext : Confined written declared next) :
    Confined written declared fun st => (run st).andThen next := h.holds.andThen hnext.holds

theorem inFrame (name : String) (h : Confined written declared run) :
    Confined written declared' (Outcome.inFrame name run) := by
  intro st
  apply Outcome.ends_inFrame
  apply (h (st.push name)).imp
  intro st' h
  exact h.pop

theorem loop (test : State → Except Failure Bool) (limit : Nat) (h : Confined written declared run) :
    Confined written declared (Outcome.loop test run limit) :=
  h.holds.loop (fun st _ _ => Scope.Becomes.refl st.scope) limit

theorem rescope (s : Stmt) (step : Scope → Except Failure Scope)
    (h : ∀ scope scope', step scope = .ok scope' → scope.Becomes written declared scope') :
    Confined written declared fun st => (st.visit s).rescope (step st.scope) := by
  intro st
  apply State.ends_rescope
  · intro scope' hok
    exact h st.scope scope' hok
  · intro _ _
    exact .refl _

theorem emitIfAny (s : Stmt) (step : Scope → Except Failure (Option Record)) :
    Confined written declared fun st => (st.visit s).emitIfAny (step st.scope) := by
  intro st
  apply State.ends_emitIfAny
  · intro _
    exact .refl _
  · intro _ _
    exact .refl _
  · intro _ _
    exact .refl _

end Confined

/-! ## Statements -/

/-- No matter what is declared. -/
theorem Confined.anywhere {run : State → Outcome} (h : Confined written declared run) :
    Confined written (fun _ => True) run := h.imp fun _ _ => True.intro

/-- What a simple statement changes is what it assigns to and what it declares. -/
theorem Stmt.exec_confined_of_isSimple {limit : Nat} {s : Stmt} (hsimple : s.isSimple = true)
    (h : ∀ name, s.target? = some name → name ∈ written) :
    Confined written (fun name => s.declared? = some name) (s.exec limit) := by
  cases s with
  | declare span name isMutable init =>
    apply Confined.rescope (.declare span name isMutable init) fun scope => scope.execDeclare span name isMutable init
    intro scope scope' hok
    obtain ⟨_, v, -, -, hv⟩ := Scope.execDeclare_eq_ok hok
    exact .declare hv rfl
  | assign span target value op =>
    apply Confined.rescope (.assign span target value op) fun scope => scope.execAssign span target value op
    intro scope scope' hok
    obtain ⟨v, hv⟩ := Scope.execAssign_eq_ok hok
    exact .assign hv (h _ rfl)
  | update span target op =>
    apply Confined.rescope (.update span target op) fun scope => scope.execUpdate span target op
    intro scope scope' hok
    obtain ⟨v, hv⟩ := Scope.execUpdate_eq_ok hok
    exact .assign hv (h _ rfl)
  | output span level argument =>
    exact Confined.emitIfAny (.output span level argument) fun scope => (scope.outputRecord level argument).map some
  | expression span e => exact Confined.emitIfAny (.expression span e) fun scope => scope.expressionRecord e
  | stray e =>
    intro st
    exact .refl _
  | block | forLoop | whileLoop | ifElse => cases hsimple

/-- Whatever the statements declare, they assign to no other names. -/
theorem confinement_kept (written : List String) (limit : Nat) :
    (confinement written fun _ => True).Kept (fun n => ∀ name, n.target? = some name → name ∈ written) limit where
  simple h hsimple := (Stmt.exec_confined_of_isSimple hsimple h).anywhere
  visit st _ := Scope.Becomes.refl st.scope
  pop := Scope.Becomes.pop
  pop_bad := Scope.Becomes.pop
  condition {_ _ _ st _} _ _ _ := Scope.Becomes.refl st.scope

theorem confined_rule (written : List String) (limit : Nat) :
    StatementRule (fun n => ∀ name, n.target? = some name → name ∈ written) limit limit
      fun run _ => Confined written (fun _ => True) run := (confinement_kept written limit).rule

/-- The statements of a body that runs in a frame of its own. -/
theorem Block.exec_confined {body : Block} (limit : Nat) (name : String)
    (h : ∀ s ∈ body.statements, s.All fun n => ∀ name, n.target? = some name → name ∈ written) :
    Confined written declared (Outcome.inFrame name (body.exec limit)) := by
  have hrule := confined_rule written limit
  exact Confined.inFrame name (hrule.blockExec fun s hs => hrule.exec (h s hs))

/-- A statement changes no more than its assignments and its own declaration allow. -/
theorem Stmt.exec_confined {limit : Nat} {s : Stmt}
    (h : s.All fun n => ∀ name, n.target? = some name → name ∈ written) :
    Confined written (fun name => s.declared? = some name) (s.exec limit) := by
  have hrule := confined_rule written limit
  induction s using Stmt.induction with
  | block body ih =>
    intro st
    exact Block.exec_confined limit "block" (all_block.mp h).2 (st.visit (.block body))
  | forLoop span init test update body =>
    obtain ⟨-, ⟨hinit, hupdate⟩, hbody⟩ := all_forLoop.mp h
    have hpass := (Block.exec_confined limit "for-body" hbody).andThen
      (hrule.execOptional fun s hs => hrule.exec (hupdate s hs))
    have hloop := (hrule.execOptional fun s hs => hrule.exec (hinit s hs)).andThen
      (hpass.loop (State.loopTest .forLoop test) limit)
    intro st
    exact hloop.inFrame "for-loop" (st.visit (.forLoop span init test update body))
  | whileLoop span test body =>
    intro st
    exact (Block.exec_confined limit "while-body" (all_whileLoop.mp h).2).loop
      (State.loopTest .whileLoop (some test)) limit (st.visit (.whileLoop span test body))
  | ifElse span test thenBranch elseBranch ihThen ihElse ihBlock =>
    obtain ⟨-, hthen, helse⟩ := all_ifElse.mp h
    intro st
    rw [exec]
    split
    · exact .refl _
    · exact Block.exec_confined limit "if-then" hthen (st.visit _)
    · cases elseBranch with
      | none => exact .refl _
      | some s =>
        cases s with
        | block body => exact Block.exec_confined limit "else" (all_block.mp (helse _ rfl)).2 (st.visit _)
        -- Any other statement runs as it stands, so that what it declares lands in the current frame.
        | _ => exact ihElse _ rfl (helse _ rfl) (st.visit _)
  | _ => exact exec_confined_of_isSimple rfl h.self

end TreeScript
