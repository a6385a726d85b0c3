/-
A run depends on nothing but the names that its statements mention. If two scopes agree on those names, in what each
of them means and in whether the current frame owns it, then the same statements go the same way in both: they
emit the same records, they end alike, and the scopes that they leave agree again. All else may differ, the frames
further out and how many there are, the variables that are not mentioned, and the bindings that are hidden.

The frames that both runs have opened are the same in both, frame by frame. Only the frames from before the runs
differ, and to those the runs come back.
-/
import TreeScript.Proofs.Run.Lockstep

namespace TreeScript

variable {names : List String}

/-! ## Scopes that agree on some names -/

/-- Two scopes in which some names have the same bindings, with the same values and the same mutability, or none, and
belong to the current frames of both or of neither. -/
structure Scope.AgreesOn (names : List String) (a b : Scope) : Prop where
  means : ∀ name ∈ names, a.find? name = b.find? name
  owned : ∀ name ∈ names, a.owns name = b.owns name

namespace Scope.AgreesOn

variable {a b a' b' : Scope}

theorem declare {name : String} {value : Value} {isMutable : Bool} (h : a.AgreesOn names b)
    (ha : a.declare name value isMutable = .ok a') (hb : b.declare name value isMutable = .ok b') :
    a'.AgreesOn names b' := by
  constructor
  · intro other hother
    rw [find?_declare ha, find?_declare hb, h.means other hother]
  · intro other hother
    rw [owns_declare ha, owns_declare hb, h.owned other hother]

theorem set (h : a.AgreesOn names b) (name : String) (value : Value) :
    (a.set name value).AgreesOn names (b.set name value) := by
  constructor
  · intro other hother
    rw [find?_set, find?_set, h.means other hother]
  · intro other hother
    rw [owns_set, owns_set, h.owned other hother]

end Scope.AgreesOn

/-! ### What is visible of a scope -/

/-- The bindings of a frame that some names can mean. -/
def Frame.visible (names : List String) (f : Frame) : List Binding := f.bindings.filter (·.name ∈ names)

/-- What some names can mean in a scope: the bindings of other names do not count, and neither do the frames around the
current one that bind none of these names. -/
def Scope.visible (names : List String) (s : Scope) : List Binding × List (List Binding) :=
  (s.current.visible names, (s.outer.map (·.visible names)).filter (!·.isEmpty))

theorem Frame.find?_visible {name : String} (hname : name ∈ names) (f : Frame) :
    f.find? name = (f.visible names).find? (·.name == name) := by
  unfold find? visible
  rw [List.find?_filter]
  congr 1
  funext b
  by_cases hb : b.name = name
  · simp [hb, hname]
  · simp [hb]

theorem findSome?_visible {name : String} (hname : name ∈ names) (fs : List Frame) :
    fs.findSome? (·.find? name) =
      ((fs.map (·.visible names)).filter (!·.isEmpty)).findSome? (·.find? (·.name == name)) := by
  induction fs with
  | nil => rfl
  | cons f rest ih =>
    rw [List.findSome?_cons, List.map_cons, Frame.find?_visible hname]
    cases hf : f.visible names with
    | nil => exact ih
    | cons b bs =>
      rw [List.filter_cons_of_pos (by simp), List.findSome?_cons, ih]

/-- Two scopes of which the same is visible agree. -/
theorem Scope.agreesOn_of_visible {a b : Scope} (h : a.visible names = b.visible names) : a.AgreesOn names b := by
  obtain ⟨hcurrent, houter⟩ := Prod.mk.inj h
  constructor
  · intro name hname
    unfold find? frames
    rw [List.findSome?_cons, List.findSome?_cons, Frame.find?_visible hname, Frame.find?_visible hname, hcurrent,
      findSome?_visible hname, findSome?_visible hname, houter]
  · intro name hname
    unfold owns Frame.owns
    rw [Frame.find?_visible hname, Frame.find?_visible hname, hcurrent]

/-! ## The frames of two runs -/

/-- The scopes of two runs, each of which has opened some frames, the same ones, on top of the frames it began in. -/
inductive Scope.Paired (names : List String) : Nat → Scope → Scope → Prop
  | start {a b : Scope} (h : a.AgreesOn names b) : Paired names 0 a b
  | inside {k : Nat} {a b : Scope} (f : Frame) (h : Paired names k a b) :
    Paired names (k + 1) ⟨f, a.frames⟩ ⟨f, b.frames⟩

namespace Scope

theorem find?_inside (f : Frame) (s : Scope) (name : String) :
    (⟨f, s.frames⟩ : Scope).find? name = (f.find? name).or (s.find? name) := by
  unfold find?
  rw [frames, List.findSome?_cons]
  cases f.find? name <;> rfl

theorem set_inside (f : Frame) (s : Scope) (name : String) (value : Value) :
    (⟨f, s.frames⟩ : Scope).set name value =
      if f.owns name then ⟨f.set name value, s.frames⟩ else ⟨f, (s.set name value).frames⟩ := by
  rw [frames_set]
  rfl

namespace Paired

variable {k : Nat} {a b a' b' : Scope}

theorem agreesOn (h : Paired names k a b) : a.AgreesOn names b := by
  induction h with
  | start h => exact h
  | inside f _ ih =>
    constructor
    · intro name hname
      rw [find?_inside, find?_inside, ih.means name hname]
    · intro _ _
      rfl

theorem declare {name : String} {value : Value} {isMutable : Bool} (h : Paired names k a b)
    (ha : a.declare name value isMutable = .ok a') (hb : b.declare name value isMutable = .ok b') :
    Paired names k a' b' := by
  cases h with
  | start h => exact .start (h.declare ha hb)
  | inside f h =>
    obtain ⟨-, rfl⟩ := declare_eq_ok ha
    obtain ⟨-, rfl⟩ := declare_eq_ok hb
    exact .inside _ h

theorem set (h : Paired names k a b) (name : String) (value : Value) :
    Paired names k (a.set name value) (b.set name value) := by
  induction h with
  | start h => exact .start (h.set name value)
  | inside f h ih =>
    -- The frame that is written to is the same in both runs, or an older one of each.
    rw [set_inside, set_inside]
    split
    · exact .inside _ h
    · exact .inside f ih

theorem pop (h : Paired names (k + 1) a b) : Paired names k a.pop b.pop := by
  cases h with
  | inside f h => exact h

end Paired

end Scope

/-! ## What two runs emit -/

/-- What two runs have come to from two states: their scopes agree on some names, and they have emitted the same. -/
def State.SameSince (names : List String) (start start' st st' : State) : Prop :=
  st.scope.AgreesOn names st'.scope ∧ ∃ emitted, Event.records st.log = Event.records start.log ++ emitted ∧
    Event.records st'.log = Event.records start'.log ++ emitted

/-- Two runs of statements that mention no other names go in step. -/
theorem lockstep_of_mentioned (names : List String) (before before' : Array Event) :
    Lockstep names (Scope.Paired names) fun log log' => ∃ emitted, Event.records log = Event.records before ++ emitted ∧
      Event.records log' = Event.records before' ++ emitted where
  find h hname := h.agreesOn.means _ hname
  owns h hname := h.agreesOn.owned _ hname
  declare h _ ha hb := h.declare ha hb
  set value h _ := h.set _ value
  push name h := .inside _ h
  pop h := h.pop
  visited s _ h := by
    rw [Event.records_push_visited, Event.records_push_visited]
    exact h
  emitted r h := by
    obtain ⟨emitted, hlog, hlog'⟩ := h
    refine ⟨emitted ++ [r], ?_, ?_⟩
    · rw [Event.records_push_emitted, hlog, List.append_assoc]
    · rw [Event.records_push_emitted, hlog', List.append_assoc]

/-! ## Runs -/

/-- Statements depend on the names that they mention. -/
theorem depends_on_mentioned (limit : Nat) (statements : List Stmt) :
    (∀ a b : State, a.scope.AgreesOn (mentioned statements) b.scope →
      Outcome.Related (State.SameSince (mentioned statements) a b) (execAll limit statements a)
        (execAll limit statements b)) ∧
    ∀ a b : State, a.scope.visible (mentioned statements) = b.scope.visible (mentioned statements) →
      Outcome.Related (State.SameSince (mentioned statements) a b) (execAll limit statements a)
        (execAll limit statements b) := by
  have hrun (a b : State) (h : a.scope.AgreesOn (mentioned statements) b.scope) :
      Outcome.Related (State.SameSince (mentioned statements) a b) (execAll limit statements a)
        (execAll limit statements b) := by
    have hstep := lockstep_of_mentioned (mentioned statements) a.log b.log
    refine (hstep.execAll_mentioned 0 a b ⟨.start h, [], ?_, ?_⟩).imp ?_
    · exact (List.append_nil _).symm
    · exact (List.append_nil _).symm
    · rintro st st' ⟨hscope, hlog⟩
      exact ⟨hscope.agreesOn, hlog⟩
  refine ⟨hrun, ?_⟩
  intro a b h
  exact hrun a b (Scope.agreesOn_of_visible h)

/-- A scope with another frame between, and with variables that are not mentioned. -/
theorem depends_on_mentioned_frame_between :
    ∃ (statements : List Stmt) (a b : State), mentioned statements = ["x", "x"] ∧
      a.scope.depth = 1 ∧ b.scope.depth = 2 ∧
      Outcome.Related (State.SameSince ["x", "x"] a b) (execAll 1 statements a) (execAll 1 statements b) := by
  let statements : List Stmt := [.output .none (.known .info) (.identifier .none "x"),
    .assign .none ⟨.none, "x"⟩ (.literal .none (.boolean false)) .assign]
  let x : Binding := ⟨"x", .boolean true, true⟩
  let y : Binding := ⟨"y", .boolean true, true⟩
  let a : State := ⟨⟨⟨"block", []⟩, [⟨"global", [x]⟩]⟩, #[]⟩
  let b : State := ⟨⟨⟨"block", [y]⟩, [⟨"block", [y]⟩, ⟨"global", [y, x]⟩]⟩, #[]⟩
  have hvisible : a.scope.visible (mentioned statements) = b.scope.visible (mentioned statements) := rfl
  exact ⟨statements, a, b, rfl, rfl, rfl, (depends_on_mentioned 1 statements).2 a b hvisible⟩

end TreeScript
