/-
A `for` loop that counts from one integer up to another makes one pass for each integer from the first on that is less
than the last, however large they are. In every pass the frame of the loop has the variable in it, with the number of
the pass, and nothing else. The body cannot reach that binding as long as it assigns to no variable of this name, so the
increment finds the number of the pass that was just made. The loop is compared with its passes, each of which runs on
its own in the scope around the loop: between passes the two states differ in the frame of the loop and in what the
log has besides records.
-/
import TreeScript.Proofs.Run.Comparison
import TreeScript.Proofs.Run.Output

namespace TreeScript

/-! ## A name that is not assigned to -/

/-- What there is in a frame, without the values of all names but one. -/
def Frame.seen (name : String) (f : Frame) : String × List (String × Option Binding) :=
  (f.name, f.bindings.map fun b => (b.name, if b.name = name then some b else none))

namespace Frame

variable {f f' : Frame} {name : String}

theorem find?_eq_seen (f : Frame) (name : String) : f.find? name = (f.seen name).2.findSome? Prod.snd := by
  rw [seen, List.findSome?_map, find?, List.find?_eq_findSome?_guard]
  congr 1
  funext b
  simp [Option.guard]

theorem map_find?_of_seen {fs fs' : List Frame} (h : fs'.map (seen name) = fs.map (seen name)) :
    fs'.map (·.find? name) = fs.map (·.find? name) := by
  have hfound := congrArg (List.map fun seen => seen.2.findSome? Prod.snd) h
  rw [List.map_map, List.map_map] at hfound
  simpa only [Function.comp_def, ← find?_eq_seen] using hfound

theorem seen_set {other : String} (hne : other ≠ name) (value : Value) :
    (f.set other value).seen name = f.seen name := by
  simp only [seen, set, List.map_map, Prod.mk.injEq, true_and]
  apply List.map_congr_left
  intro b _
  by_cases hb : b.name = other
  · simp [hb, hne]
  · simp [hb]

/-- Of a frame with one binding everything is seen. -/
theorem eq_of_seen {b : Binding} (h : f.seen b.name = seen b.name ⟨name, [b]⟩) : f = ⟨name, [b]⟩ := by
  obtain ⟨_, bindings⟩ := f
  obtain ⟨rfl, hbindings⟩ := Prod.mk.inj h
  obtain ⟨c, rfl, hc⟩ := List.map_eq_singleton_iff.mp hbindings
  obtain ⟨hname, hfound⟩ := Prod.mk.inj hc
  rw [if_pos hname, if_pos rfl] at hfound
  rw [Option.some.inj hfound]

end Frame

theorem Scope.seen_setFirst {name other : String} (hne : other ≠ name) (value : Value) (fs : List Frame) :
    (setFirst other value fs).map (Frame.seen name) = fs.map (Frame.seen name) := by
  induction fs with
  | nil => rfl
  | cons f rest ih =>
    rw [setFirst]
    split
    · rw [List.map_cons, List.map_cons, Frame.seen_set hne]
    · rw [List.map_cons, List.map_cons, ih]

/-- What is seen by a name of the frames around the current one stays. -/
def sparing (name : String) : Contract where
  good st st' := st'.scope.outer.map (Frame.seen name) = st.scope.outer.map (Frame.seen name)
  bad st _ st' := st'.scope.outer.map (Frame.seen name) = st.scope.outer.map (Frame.seen name)
  refl _ := rfl
  trans h h' := h'.trans h
  trans_bad h h' := h'.trans h

theorem Scope.seen_assign {s s' : Scope} {name other : String} {value : Value} (h : s.assign other value = .ok s')
    (hne : other ≠ name) : s'.outer.map (Frame.seen name) = s.outer.map (Frame.seen name) := by
  have hframes : s'.frames.map (Frame.seen name) = s.frames.map (Frame.seen name) := by
    rw [assign_eq_ok h, frames_set, seen_setFirst hne]
  exact (List.cons.inj hframes).2

theorem Scope.seen_pop {s s' : Scope} {name frame : String}
    (h : s'.outer.map (Frame.seen name) = (s.push frame).outer.map (Frame.seen name)) :
    s'.pop.outer.map (Frame.seen name) = s.outer.map (Frame.seen name) := by
  obtain ⟨current, outer⟩ := s'
  cases outer with
  | nil => cases h
  | cons f rest => exact (List.cons.inj h).2

theorem State.rescope_sparing {name : String} {st : State} {s : Stmt} {step : Except Failure Scope}
    (h : ∀ scope, step = .ok scope → scope.outer.map (Frame.seen name) = st.scope.outer.map (Frame.seen name)) :
    ((st.visit s).rescope step).Ends ((sparing name).good st) ((sparing name).bad st) :=
  State.ends_rescope h fun _ _ => rfl

theorem Stmt.exec_sparing_of_isSimple {limit : Nat} {s : Stmt} {name : String} (hsimple : s.isSimple = true)
    (hs : s.target? ≠ some name) : (sparing name).Holds (s.exec limit) := by
  intro st
  cases s with
  | declare span declared isMutable init =>
    apply State.rescope_sparing
    intro scope hok
    obtain ⟨_, _, -, -, hdeclare⟩ := Scope.execDeclare_eq_ok hok
    obtain ⟨-, rfl⟩ := Scope.declare_eq_ok hdeclare
    rfl
  | assign span target value op =>
    apply State.rescope_sparing
    intro scope hok
    obtain ⟨_, hassign⟩ := Scope.execAssign_eq_ok hok
    exact Scope.seen_assign hassign fun h => hs (congrArg some h)
  | update span target op =>
    apply State.rescope_sparing
    intro scope hok
    obtain ⟨_, hassign⟩ := Scope.execUpdate_eq_ok hok
    exact Scope.seen_assign hassign fun h => hs (congrArg some h)
  | output span level argument => exact State.ends_emitIfAny (fun _ => rfl) (fun _ _ => rfl) fun _ _ => rfl
  | expression span e => exact State.ends_emitIfAny (fun _ => rfl) (fun _ _ => rfl) fun _ _ => rfl
  | stray e => rfl
  | block | forLoop | whileLoop | ifElse => cases hsimple

theorem sparing_kept (name : String) (limit : Nat) : (sparing name).Kept (fun n => n.target? ≠ some name) limit where
  simple hs hsimple := Stmt.exec_sparing_of_isSimple hsimple hs
  visit _ _ := rfl
  pop := Scope.seen_pop
  pop_bad := Scope.seen_pop
  condition _ _ _ := rfl

/-- A body that assigns to no variable of a name leaves those further out as they are. -/
theorem Block.exec_sparing {body : Block} {name : String} (hbody : ∀ s ∈ body.statements, name ∉ s.assigned)
    (limit : Nat) : (sparing name).Holds (body.exec limit) := by
  have hrule := (sparing_kept name limit).rule
  apply hrule.blockExec
  intro s hs
  apply hrule.exec
  intro n hn htarget
  exact hbody s hs (List.mem_filterMap.mpr ⟨n, hn, htarget⟩)

/-! ## The head of a loop -/

/-- A literal that writes an integer, behind a minus sign or not. -/
inductive Expr.Writes (n : Int) : Expr → Prop
  | literal {span : Span} {text : String} (h : Integer.written? text = some n) :
      Writes n (.literal span (.integer text))
  | negated {span inner : Span} {text : String} (h : Integer.written? text = some (-n)) :
      Writes n (.unary span .minus (.literal inner (.integer text)))

/-- A `for` loop that counts a variable up from one integer to another, which it does not reach. -/
inductive Stmt.Counts (name : String) (a b : Int) (body : Block) : Stmt → Prop
  | mk {span initSpan testSpan nameSpan updateSpan targetSpan : Span} {first last : Expr} (hfirst : first.Writes a)
      (hlast : last.Writes b) :
      Counts name a b body (.forLoop span (some (.declare initSpan name true (some first)))
        (some (.binary testSpan (.identifier nameSpan name) .lt last))
        (some (.update updateSpan ⟨targetSpan, name⟩ .increment)) body)

theorem Literal.eval_written {text : String} {n : Int} (h : Integer.written? text = some n) (span : Span) :
    (Literal.integer text).eval span = .ok (.integer (.ofInt n)) := by
  obtain ⟨a, ha, hrep⟩ := Integer.parse_represents h
  simp only [eval, ha, hrep.unique (Integer.ofInt_represents n)]
  rfl

theorem Integer.negate_ofInt (n : Int) : (ofInt n).negate = ofInt (-n) := by
  have hn := ofInt_represents n
  have hneg := negate_represents hn.canonical
  rw [hn.toInt] at hneg
  exact hneg.unique (ofInt_represents (-n))

theorem Expr.Writes.eval {n : Int} {e : Expr} (h : e.Writes n) (scope : Scope) :
    e.eval scope = .ok (.integer (.ofInt n)) := by
  cases h with
  | literal h => exact Literal.eval_written h _
  | negated h =>
    rw [Expr.eval, Expr.eval, Literal.eval_written h]
    show Except.ok (Value.integer (Integer.ofInt (-n)).negate) = _
    rw [Integer.negate_ofInt, neg_neg]

theorem Integer.ofInt_add_one (n : Int) : (ofInt n).add .one = ofInt (n + 1) := by
  have hn := ofInt_represents n
  have hsum := add_represents hn.canonical (show one.Canonical by decide)
  rw [hn.toInt] at hsum
  exact hsum.unique (ofInt_represents (n + 1))

/-! ## Passes -/

/-- The scope inside of a loop that counts, around which the given one is. -/
def Scope.counting (scope : Scope) (name : String) (n : Int) : Scope :=
  ⟨⟨"for-loop", [⟨name, .integer (.ofInt n), true⟩]⟩, scope.frames⟩

namespace Block

/-- One pass: the body runs in a frame of its own, inside of one in which the variable has its number. -/
def pass (limit : Nat) (body : Block) (name : String) (n : Int) (st : State) : Outcome :=
  (Outcome.inFrame "for-body" (body.exec limit) { st with scope := st.scope.counting name n }).always State.pop

/-- Some passes one after another, with one number after another. -/
def passes (limit : Nat) (body : Block) (name : String) (first : Int) : Nat → State → Outcome
  | 0, st => .finished st
  | count + 1, st => (body.pass limit name first st).andThen (passes limit body name (first + 1) count)

/-- The passes from one integer up to another, as many of them as a number of tests allows. After the last one the loop
needs one more test to find its end. -/
def counted (limit tests : Nat) (body : Block) (name : String) (a b : Int) (st : State) : Outcome :=
  (body.passes limit name a (min (b - a).toNat tests) st).andThen fun st =>
    if (b - a).toNat < tests then .finished st else .unfinished

end Block

/-- The same scope, and the same records. -/
def State.SameResult (st st' : State) : Prop :=
  st.scope = st'.scope ∧ Event.records st.log = Event.records st'.log

theorem Scope.find?_counting (scope : Scope) (name : String) (n : Int) (other : String) :
    (scope.counting name n).find? other =
      if name = other then some ⟨name, .integer (.ofInt n), true⟩ else scope.find? other := by
  rw [find?, frames, counting, List.findSome?_cons, Frame.find?]
  by_cases hname : name = other
  · simp [hname]
  · simp [hname, find?]

/-- A state inside of a loop that counts, and one around it that is as far. -/
structure State.Counting (name : String) (n : Int) (inside around : State) : Prop where
  scope : inside.scope = around.scope.counting name n
  records : Event.records inside.log = Event.records around.log

namespace State.Counting

variable {name : String} {n : Int} {inside around : State}

/-- The condition compares the integers that are meant. -/
theorem loopTest (h : Counting name n inside around) {last : Expr} {b : Int} (hlast : last.Writes b)
    (span place : Span) :
    State.loopTest .forLoop (some (.binary span (.identifier place name) .lt last)) inside = .ok (decide (n < b)) := by
  have hn := Integer.ofInt_represents n
  have hb := Integer.ofInt_represents b
  have hname : (Expr.identifier place name).eval inside.scope = .ok (.integer (.ofInt n)) := by
    rw [Expr.eval, h.scope, Scope.lookup, Scope.find?_counting, if_pos rfl]
    rfl
  have hless : (Expr.binary span (.identifier place name) .lt last).eval inside.scope = .ok (.boolean (n < b)) := by
    rw [Expr.eval, hname, hlast.eval]
    have hcomparison : Token.lt.isComparison = true := rfl
    refine (Value.binary_comparison hcomparison hn.canonical hb.canonical span).trans ?_
    rw [Token.holds, hn.toInt, hb.toInt]
  rw [State.loopTest, Expr.condition, hless]

/-- The increment goes to the frame of the loop. -/
theorem increment (h : Counting name n inside around) (limit : Nat) (span place : Span) :
    ∃ inside', (Stmt.update span ⟨place, name⟩ .increment).exec limit inside = .finished inside' ∧
      Counting name (n + 1) inside' around := by
  have hstep : inside.scope.execUpdate span ⟨place, name⟩ .increment = .ok (around.scope.counting name (n + 1)) := by
    have hset : (around.scope.counting name n).set name (.integer (.ofInt (n + 1))) =
        around.scope.counting name (n + 1) := by
      simp [Scope.set, Scope.counting, Frame.owns, Frame.find?, Frame.set]
    simp [Scope.execUpdate, Scope.assign, Scope.currentForUpdate, h.scope, Scope.find?_counting, placed,
      Integer.ofInt_add_one, hset, Except.map]
  refine ⟨{ inside.visit (.update span ⟨place, name⟩ .increment) with scope := around.scope.counting name (n + 1) },
    ?_, rfl, (Event.records_push_visited _ _).trans h.records⟩
  rw [Stmt.exec, State.visit_scope, hstep]
  rfl

end State.Counting

/-- A loop that counts begins with the one binding in its frame. -/
theorem State.exists_counting {a : Int} {first : Expr} (hfirst : first.Writes a) (limit : Nat) (span : Span)
    (name : String) (st : State) :
    ∃ start, (Stmt.declare span name true (some first)).exec limit (st.push "for-loop") = .finished start ∧
      Counting name a start st := by
  let s : Stmt := .declare span name true (some first)
  refine ⟨{ (st.push "for-loop").visit s with scope := st.scope.counting name a }, ?_, rfl,
    Event.records_push_visited _ _⟩
  rw [Stmt.exec, Scope.execDeclare, hfirst.eval]
  rfl

/-! ## One pass -/

/-- What the log held before does not matter to a body in a frame of its own. -/
theorem Block.inFrame_log (limit : Nat) (body : Block) (name : String) (scope : Scope) (log : Array Event) :
    Outcome.inFrame name (body.exec limit) ⟨scope, log⟩ =
      (Outcome.inFrame name (body.exec limit) ⟨scope, #[]⟩).always (.after log) := by
  obtain ⟨span, statements⟩ := body
  have hbody := execAll_log limit statements (scope.push name) log
  show (execAll limit statements ⟨scope.push name, log⟩).always State.pop =
    ((execAll limit statements ⟨scope.push name, #[]⟩).always State.pop).always (.after log)
  rw [hbody]
  cases execAll limit statements ⟨scope.push name, #[]⟩ <;> rfl

section

variable {body : Block} {name : String} {n : Int} (hbody : ∀ s ∈ body.statements, name ∉ s.assigned)

include hbody

/-- A body leaves the frame of the loop as it found it, and of those around what is seen by the name. -/
theorem Block.exec_counting (limit : Nat) (around : Scope) (n : Int) (log : Array Event) :
    (Outcome.inFrame "for-body" (body.exec limit) ⟨around.counting name n, log⟩).Leaves fun st =>
      ∃ around', st.scope = Scope.counting around' name n ∧
        around'.frames.map (Frame.seen name) = around.frames.map (Frame.seen name) := by
  apply Outcome.ends_inFrame
  refine Outcome.Leaves.imp (Block.exec_sparing hbody limit (State.push ⟨around.counting name n, log⟩ "for-body")) ?_
  rintro ⟨⟨current, outer⟩, log'⟩ hseen
  -- The frames around the body are the one of the loop and at least one more.
  cases outer with
  | nil => cases hseen
  | cons f rest =>
    obtain ⟨hloop, hrest⟩ := List.cons.inj hseen
    cases rest with
    | nil => cases hrest
    | cons g rest =>
      refine ⟨⟨g, rest⟩, ?_, hrest⟩
      rw [Frame.eq_of_seen (b := ⟨name, .integer (.ofInt n), true⟩) hloop]
      rfl

/-- The loop and the pass do the same, and the frame of the loop is there again when the body has ended. -/
theorem State.Counting.pass {inside around : State} (h : Counting name n inside around) (limit : Nat) :
    Outcome.Match Eq (Counting name n) (Outcome.inFrame "for-body" (body.exec limit) inside)
      (body.pass limit name n around) := by
  obtain ⟨scope, log⟩ := inside
  obtain rfl : scope = around.scope.counting name n := h.scope
  have hleaves := (Block.exec_counting hbody limit around.scope n #[]).imp fun _ h => h.imp fun _ h => h.1
  rw [Block.pass, body.inFrame_log limit, body.inFrame_log limit _ _ around.log]
  generalize Outcome.inFrame "for-body" (body.exec limit) ⟨around.scope.counting name n, #[]⟩ = o at hleaves ⊢
  have hcounting {st : State} (hst : ∃ around', st.scope = Scope.counting around' name n) :
      Counting name n (st.after log) (st.after around.log).pop := by
    obtain ⟨around', hscope⟩ := hst
    constructor
    · show st.scope = st.scope.pop.counting name n
      rw [hscope]
      rfl
    · have hrecords : Event.records log = Event.records around.log := h.records
      show Event.records (log ++ st.log) = Event.records (around.log ++ st.log)
      rw [Event.records_append, Event.records_append, hrecords]
  cases o with
  | finished st => exact .finished (hcounting hleaves)
  | failed f st => exact .failed rfl (hcounting hleaves)
  | unfinished => exact .unfinished

/-- What is seen by the name around a pass stays. -/
theorem Block.pass_seen (limit : Nat) (n : Int) (st : State) : (body.pass limit name n st).Leaves fun st' =>
    st'.scope.frames.map (Frame.seen name) = st.scope.frames.map (Frame.seen name) := by
  apply Outcome.leaves_always
  apply (Block.exec_counting hbody limit st.scope n st.log).imp
  rintro st' ⟨around', hscope, hseen⟩
  rw [State.pop, hscope]
  exact hseen

/-! ## All passes -/

/-- The loop makes its passes one after another. -/
theorem State.Counting.loop {b : Int} {last : Expr} (hlast : last.Writes b) (limit tests : Nat)
    (testSpan nameSpan updateSpan targetSpan : Span) {inside around : State} (h : Counting name n inside around) :
    Outcome.Match Eq (fun inside around => ∃ n, Counting name n inside around)
      (Outcome.loop (State.loopTest .forLoop (some (.binary testSpan (.identifier nameSpan name) .lt last)))
        (fun st => (Outcome.inFrame "for-body" (body.exec limit) st).andThen
          (execOptional limit (some (.update updateSpan ⟨targetSpan, name⟩ .increment)))) tests inside)
      (body.counted limit tests name n b around) := by
  induction tests generalizing n inside around with
  | zero =>
    rw [Block.counted, Nat.min_zero]
    exact .unfinished
  | succ tests ih =>
    rw [Outcome.loop, h.loopTest hlast]
    by_cases hlt : n < b
    · have hcount : (b - n).toNat = (b - (n + 1)).toNat + 1 := by omega
      have hrest : body.counted limit (tests + 1) name n b around =
          (body.pass limit name n around).andThen (body.counted limit tests name (n + 1) b) := by
        rw [Block.counted, hcount, Nat.succ_min_succ, Block.passes, Outcome.andThen_assoc]
        simp only [Nat.succ_lt_succ_iff]
        rfl
      rw [hrest, decide_eq_true hlt]
      have hpass := h.pass hbody limit
      generalize Outcome.inFrame "for-body" (body.exec limit) inside = o, body.pass limit name n around = o' at hpass ⊢
      cases hpass with
      | @finished inside' around' h' =>
        obtain ⟨next, hnext, hcounting⟩ := h'.increment limit updateSpan targetSpan
        have hupdate : (Outcome.finished inside').andThen
            (execOptional limit (some (.update updateSpan ⟨targetSpan, name⟩ .increment))) = .finished next := hnext
        rw [hupdate]
        exact ih hcounting
      | failed hf h' => exact .failed hf ⟨n, h'⟩
      | unfinished => exact .unfinished
    · have hcount : (b - n).toNat = 0 := by omega
      rw [decide_eq_false hlt, Block.counted, hcount, Nat.zero_min]
      simp only [Nat.zero_lt_succ, if_true]
      exact .finished ⟨n, h⟩

/-- A loop that counts does what its passes do in the scope around it. -/
theorem Stmt.Counts.exec {s : Stmt} {a b : Int} (h : s.Counts name a b body) (limit : Nat) (st : State) :
    Outcome.Match Eq State.SameResult (s.exec limit st) (body.counted limit limit name a b st) := by
  obtain @⟨span, initSpan, testSpan, nameSpan, updateSpan, targetSpan, first, last, hfirst, hlast⟩ := h
  let visited : State := st.visit (.forLoop span (some (.declare initSpan name true (some first)))
    (some (.binary testSpan (.identifier nameSpan name) .lt last))
    (some (.update updateSpan ⟨targetSpan, name⟩ .increment)) body)
  obtain ⟨start, hstart, hscope, hrecords⟩ := visited.exists_counting hfirst limit initSpan name
  have hcounting : State.Counting name a start st := ⟨hscope, hrecords.trans (Event.records_push_visited _ _)⟩
  have hrun := hcounting.loop hbody hlast limit limit testSpan nameSpan updateSpan targetSpan
  apply Outcome.Match.always_left
  have hinit : execOptional limit (some (.declare initSpan name true (some first))) (visited.push "for-loop") =
      .finished start := hstart
  show Outcome.Match Eq _ ((execOptional limit _ (visited.push "for-loop")).andThen _) _
  rw [hinit]
  refine hrun.imp (fun _ _ hf => hf) ?_
  rintro inside around ⟨n, hscope, hrecords⟩
  refine ⟨?_, hrecords⟩
  show inside.scope.pop = around.scope
  rw [hscope]
  rfl

/-- So does it around the whole loop, however that ends. -/
theorem Block.counted_seen (limit tests : Nat) (a b : Int) (st : State) :
    (body.counted limit tests name a b st).Leaves fun st' =>
      st'.scope.frames.map (Frame.seen name) = st.scope.frames.map (Frame.seen name) := by
  have hpasses (first : Int) (count : Nat) (st : State) : (body.passes limit name first count st).Leaves fun st' =>
      st'.scope.frames.map (Frame.seen name) = st.scope.frames.map (Frame.seen name) := by
    induction count generalizing first st with
    | zero => rfl
    | succ count ih =>
      refine Outcome.ends_andThen (Block.pass_seen hbody limit first st) ?_
      intro between hbetween
      exact (ih (first + 1) between).imp fun _ h => h.trans hbetween
  refine Outcome.ends_andThen (hpasses a _ st) ?_
  intro st' hst'
  split
  · exact hst'
  · trivial

theorem Stmt.Counts.exec_seen {s : Stmt} {a b : Int} (h : s.Counts name a b body) (limit : Nat) (st : State) :
    (s.exec limit st).Leaves fun last =>
      last.scope.frames.map (Frame.seen name) = st.scope.frames.map (Frame.seen name) := by
  have hpasses := Block.counted_seen hbody limit limit a b st
  have hmatch := h.exec hbody limit st
  generalize s.exec limit st = o, body.counted limit limit name a b st = o' at hmatch hpasses ⊢
  cases hmatch with
  | finished h => exact (congrArg (fun s : Scope => s.frames.map (Frame.seen name)) h.1).trans hpasses
  | failed _ h => exact (congrArg (fun s : Scope => s.frames.map (Frame.seen name)) h.1).trans hpasses
  | unfinished => trivial

end

/-! ## Limits -/

section

variable {body : Block} {name : String} {limit : Nat}

namespace Block

theorem passes_add (limit : Nat) (body : Block) (name : String) (first : Int) (count more : Nat) (st : State) :
    body.passes limit name first (count + more) st =
      (body.passes limit name first count st).andThen (body.passes limit name (first + count) more) := by
  induction count generalizing first st with
  | zero => simp [passes, Outcome.andThen]
  | succ count ih =>
    have hnext : first + 1 + count = first + ((count + 1 : Nat) : Int) := by omega
    rw [Nat.succ_add, passes, passes, Outcome.andThen_assoc]
    congr 1
    funext between
    rw [ih, hnext]

theorem passes_one (limit : Nat) (body : Block) (name : String) (first : Int) (st : State) :
    body.passes limit name first 1 st = body.pass limit name first st := by
  rw [passes]
  cases body.pass limit name first st <;> rfl

/-- A pass may be followed for longer. -/
theorem pass_prolongs {limit limit' : Nat} (hle : limit ≤ limit') (body : Block) (name : String) (n : Int) :
    Prolongs (body.pass limit' name n) (body.pass limit name n) := by
  have hrule := prolongs_rule hle
  have hbody := hrule.inFrame "for-body" (hrule.blockExec fun (s : Stmt) (_ : s ∈ body.statements) =>
    hrule.exec fun _ _ => trivial)
  intro st hend
  rw [pass, pass, hbody]
  intro hcut
  rw [pass, hcut] at hend
  exact hend rfl

/-- Passes that all finish, each within some limit, finish within one limit for all of them. -/
theorem exists_passes_finished {states : Nat → State} {first : Int} {count : Nat}
    (h : ∀ k < count, ∃ limit, body.pass limit name (first + k) (states k) = .finished (states (k + 1))) :
    ∃ enough, ∀ limit ≥ enough, body.passes limit name first count (states 0) = .finished (states count) := by
  induction count with
  | zero => exact ⟨0, fun _ _ => rfl⟩
  | succ count ih =>
    obtain ⟨enough, henough⟩ := ih fun k hk => h k (Nat.lt_succ_of_lt hk)
    obtain ⟨limit, hlast⟩ := h count (Nat.lt_succ_self count)
    refine ⟨max enough limit, ?_⟩
    intro limit' hle
    rw [passes_add, henough limit' (le_of_max_le_left hle)]
    show body.passes limit' name _ 1 (states count) = _
    rw [passes_one, pass_prolongs (le_of_max_le_right hle) body name _ _ (by rw [hlast]; rintro ⟨⟩), hlast]

/-- With one test more than passes the loop comes to its end. -/
theorem counted_of_lt {tests : Nat} {a b : Int} (htests : (b - a).toNat < tests) (st : State) :
    body.counted limit tests name a b st = body.passes limit name a (b - a).toNat st := by
  rw [counted, Nat.min_eq_left htests.le]
  simp only [htests, if_true]
  cases body.passes limit name a (b - a).toNat st <;> rfl

/-! ## Printing -/

/-- A body that prints a variable and does nothing else. -/
inductive Prints (name : String) : Block → Prop
  | mk {span statementSpan callSpan receiverSpan nameSpan : Span} :
      Prints name (.mk span [.expression statementSpan
        (.call callSpan (.identifier receiverSpan "console") "log" [.identifier nameSpan name])])

/-- A call that prints a number of the loop. -/
theorem callRecord_counting {scope : Scope} (hname : name ≠ "console") (hconsole : scope.isDefined "console" = false)
    (n : Int) (frame : String) (span receiverSpan nameSpan : Span) :
    Expr.callRecord ((scope.counting name n).push frame) span (.identifier receiverSpan "console") "log"
      [.identifier nameSpan name] = .ok ⟨.info, toString n⟩ := by
  have hn := Integer.ofInt_represents n
  have hhidden : ((scope.counting name n).push frame).isDefined "console" = false := by
    show ((scope.counting name n).find? "console").isSome = false
    rw [Scope.find?_counting, if_neg hname]
    exact hconsole
  have harg : Expr.evalAll ((scope.counting name n).push frame) [.identifier nameSpan name] =
      .ok [.integer (.ofInt n)] := by
    have hfound : ((scope.counting name n).push frame).find? name = some ⟨name, .integer (.ofInt n), true⟩ :=
      (scope.find?_counting name n name).trans (if_pos rfl)
    rw [Expr.evalAll, Expr.eval, Scope.lookup, hfound]
    rfl
  have hmethod : Builtin.Registry.standard.method? "console" "log" =
      some ⟨"console", "log", .write .info, "Print to standard output"⟩ := by decide
  have hobject : Builtin.Registry.standard.hasObject "console" = true := by decide
  have htext : (Integer.ofInt n).toDecimal = toString n := by
    rw [Integer.toDecimal_eq_toString hn.canonical, hn.toInt]
  simp [Expr.callRecord, hhidden, hobject, hmethod, harg, Except.map, Builtin.Action.record, Value.render, htext]

/-- A pass that prints finishes, and the scope around it is as before. -/
theorem Prints.pass (h : body.Prints name) (hname : name ≠ "console") {st : State}
    (hconsole : st.scope.isDefined "console" = false) (limit : Nat) (n : Int) :
    ∃ last, body.pass limit name n st = .finished last ∧ last.scope = st.scope ∧
      Event.records last.log = Event.records st.log ++ [⟨.info, toString n⟩] := by
  obtain @⟨span, statementSpan, callSpan, receiverSpan, nameSpan⟩ := h
  let call : Stmt := .expression statementSpan
    (.call callSpan (.identifier receiverSpan "console") "log" [.identifier nameSpan name])
  let inside : State := State.push { st with scope := st.scope.counting name n } "for-body"
  have hcall : call.exec limit inside = .finished ((inside.visit call).emit ⟨.info, toString n⟩) := by
    show (inside.visit call).emitIfAny ((Expr.callRecord ((st.scope.counting name n).push "for-body") callSpan
      (.identifier receiverSpan "console") "log" [.identifier nameSpan name]).map some) = _
    rw [callRecord_counting hname hconsole]
    rfl
  refine ⟨(((inside.visit call).emit ⟨.info, toString n⟩).pop).pop, ?_, rfl, ?_⟩
  · show ((execAll limit [call] inside).always State.pop).always State.pop = _
    rw [execAll_cons, hcall]
    rfl
  · simp [State.pop, State.emit, State.visit, inside, State.push]

/-- The passes of a loop that prints emit one number after another. -/
theorem Prints.passes (h : body.Prints name) (hname : name ≠ "console") {st : State}
    (hconsole : st.scope.isDefined "console" = false) (limit : Nat) (first : Int) (count : Nat) :
    ∃ last, body.passes limit name first count st = .finished last ∧ last.scope = st.scope ∧
      Event.records last.log = Event.records st.log ++
        (List.range count).map fun (k : Nat) => ⟨.info, toString (first + k)⟩ := by
  induction count with
  | zero => exact ⟨st, rfl, rfl, (List.append_nil _).symm⟩
  | succ count ih =>
    obtain ⟨between, hbetween, hscope, hrecords⟩ := ih
    rw [← hscope] at hconsole
    obtain ⟨last, hlast, hscope', hrecords'⟩ := h.pass hname hconsole limit (first + count)
    refine ⟨last, ?_, hscope'.trans hscope, ?_⟩
    · rw [passes_add, hbetween]
      exact (passes_one limit body name _ between).trans hlast
    · rw [hrecords', hrecords, List.range_succ, List.map_append, List.append_assoc]
      rfl

end Block

end

/-! ## The loop -/

/-- Passes that finish one after another, each within some limit. -/
def Block.Finish (body : Block) (name : String) (first : Int) (states : Nat → State) (count : Nat) : Prop :=
  ∀ k < count, ∃ limit, body.pass limit name (first + k) (states k) = .finished (states (k + 1))

/-- A loop that counts from `a` up to `b` does what `b - a` passes do one after another: it finishes if all of them do,
and fails with the first one that fails. Around it the name means what it meant before, and if the body prints it, then
the numbers come out one after another. -/
theorem counting_loop_passes {name : String} {a b : Int} {body : Block} {loop : Stmt}
    (hloop : loop.Counts name a b body) (hbody : ∀ s ∈ body.statements, name ∉ s.assigned) (st : State) :
    (∀ limit, Outcome.Match Eq State.SameResult (loop.exec limit st) (body.counted limit limit name a b st)) ∧
    (∀ states, states 0 = st → body.Finish name a states (b - a).toNat →
      ∃ enough, ∀ limit ≥ enough, ∃ last, loop.exec limit st = .finished last ∧
        last.SameResult (states (b - a).toNat)) ∧
    (∀ states k f st', states 0 = st → k < (b - a).toNat → body.Finish name a states k →
      (∃ limit, body.pass limit name (a + k) (states k) = .failed f st') →
      ∃ enough, ∀ limit ≥ enough, ∃ last, loop.exec limit st = .failed f last ∧ last.SameResult st') ∧
    (∀ limit, (loop.exec limit st).Leaves fun last =>
      last.scope.frames.map (·.find? name) = st.scope.frames.map (·.find? name)) ∧
    (body.Prints name → name ≠ "console" → st.scope.isDefined "console" = false →
      ∀ limit, (b - a).toNat < limit → ∃ last, loop.exec limit st = .finished last ∧ last.scope = st.scope ∧
        Event.records last.log = Event.records st.log ++
          (List.range (b - a).toNat).map fun (k : Nat) => ⟨.info, toString (a + k)⟩) := by
  have hrun (limit : Nat) := hloop.exec hbody limit st
  refine ⟨hrun, ?finish, ?fail, ?around, ?print⟩
  case finish =>
    rintro states rfl hfinish
    obtain ⟨enough, henough⟩ := Block.exists_passes_finished hfinish
    refine ⟨max enough ((b - a).toNat + 1), ?_⟩
    intro limit hle
    have hmatch := hrun limit
    rw [Block.counted_of_lt (le_of_max_le_right hle), henough limit (le_of_max_le_left hle)] at hmatch
    exact hmatch.exists_finished
  case fail =>
    rintro states k f st' rfl hk hfinish ⟨within, hfail⟩
    obtain ⟨enough, henough⟩ := Block.exists_passes_finished hfinish
    obtain ⟨more, hmore⟩ : ∃ more, (b - a).toNat = k + (more + 1) := ⟨(b - a).toNat - k - 1, by omega⟩
    refine ⟨max (max enough within) ((b - a).toNat + 1), ?_⟩
    intro limit hle
    have hle' := le_of_max_le_left hle
    have hpass : body.pass limit name (a + k) (states k) = .failed f st' := by
      rw [Block.pass_prolongs (le_of_max_le_right hle') body name _ _ (by rw [hfail]; rintro ⟨⟩), hfail]
    have hpasses : body.passes limit name a (b - a).toNat (states 0) = .failed f st' := by
      rw [hmore, Block.passes_add, henough limit (le_of_max_le_left hle')]
      show (body.pass limit name (a + k) (states k)).andThen _ = _
      rw [hpass]
      rfl
    have hmatch := hrun limit
    rw [Block.counted_of_lt (le_of_max_le_right hle), hpasses] at hmatch
    exact hmatch.exists_failed
  case around =>
    intro limit
    exact (hloop.exec_seen hbody limit st).imp fun _ => Frame.map_find?_of_seen
  case print =>
    intro hprints hname hconsole limit hlt
    obtain ⟨end', hpasses, hscope, hrecords⟩ := hprints.passes hname hconsole limit a (b - a).toNat
    have hmatch := hrun limit
    rw [Block.counted_of_lt hlt, hpasses] at hmatch
    obtain ⟨last, hlast, hsame⟩ := hmatch.exists_finished
    exact ⟨last, hlast, hsame.1.trans hscope, hsame.2.trans hrecords⟩

/-- A loop from below zero, in a scope in which the variable has another value. -/
theorem counting_loop_passes_below_zero :
    ∃ (loop : Stmt) (body : Block) (st last : State), loop.Counts "i" (-1) 2 body ∧
      (∀ s ∈ body.statements, "i" ∉ s.assigned) ∧ loop.exec 4 st = .finished last ∧ last.scope = st.scope ∧
      Event.records last.log = [⟨.info, "-1"⟩, ⟨.info, "0"⟩, ⟨.info, "1"⟩] := by
  let i : Expr := .identifier .none "i"
  let body : Block := .mk .none [.expression .none (.call .none (.identifier .none "console") "log" [i])]
  let loop : Stmt := .forLoop .none (some (.declare .none "i" true (some (.literal .none (.integer "-1")))))
    (some (.binary .none i .lt (.literal .none (.integer "2")))) (some (.update .none ⟨.none, "i"⟩ .increment)) body
  let st : State := ⟨⟨⟨"global", [⟨"i", .boolean true, false⟩]⟩, []⟩, #[]⟩
  have hloop : loop.Counts "i" (-1) 2 body := .mk (.literal (by decide)) (.literal (by decide))
  have hbody : ∀ s ∈ body.statements, "i" ∉ s.assigned := by decide
  obtain ⟨-, -, -, -, hprint⟩ := counting_loop_passes hloop hbody st
  obtain ⟨last, hlast, hscope, hrecords⟩ := hprint .mk (by decide) (by decide) 4 (by decide)
  exact ⟨loop, body, st, last, hloop, hbody, hlast, hscope, hrecords.trans (by decide)⟩

end TreeScript
