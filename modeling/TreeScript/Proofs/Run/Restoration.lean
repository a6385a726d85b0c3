/-
What is left of a frame. A frame that is left, at its end or because of an error, gives back the frames around it as
they were when it was opened, but for the assignments that went outward: those to a name that no frame opened since then
and still live had declared. The invariant counts the frames opened since a moment; operations that leave each frame they
open keep the count, so that leaving the frame itself takes the count to zero.
-/
import TreeScript.Proofs.Run.History

namespace TreeScript.Scope

open History

/-! ## Nested operations -/

/-- Whether an operation neither opens nor leaves a frame. -/
def Operation.isAccess : Operation → Bool
  | push _ => false
  | pop _ => false
  | _ => true

/-- Operations that leave each frame they open, and no other one. -/
inductive Nested : List Operation → Prop
  | nil : Nested []
  | access {op : Operation} {rest : List Operation} (hop : op.isAccess = true) (hrest : Nested rest) :
    Nested (op :: rest)
  | frame {name : String} {exit : Exit} {inner rest : List Operation} (hinner : Nested inner) (hrest : Nested rest) :
    Nested (.push name :: inner ++ .pop exit :: rest)

theorem Nested.append {ops rest : List Operation} (h : Nested ops) (hrest : Nested rest) : Nested (ops ++ rest) := by
  induction h with
  | nil => exact hrest
  | access hop _ ih => exact .access hop ih
  | frame hinner _ _ ih =>
    rw [List.append_assoc]
    exact .frame hinner ih

theorem length_setFirst (name : String) (value : Value) (frames : List Frame) :
    (setFirst name value frames).length = frames.length := by
  induction frames with
  | nil => rfl
  | cons f frames ih =>
    rw [setFirst]
    split
    · rfl
    · rw [List.length_cons, ih, List.length_cons]

theorem depth_set (s : Scope) (name : String) (value : Value) : (s.set name value).depth = s.depth := by
  unfold set depth
  split
  · rfl
  · exact length_setFirst name value s.outer

theorem depth_pop (s : Scope) : s.pop.depth = s.depth - 1 := by
  obtain ⟨current, outer⟩ := s
  cases outer <;> rfl

theorem depth_access {op : Operation} (hop : op.isAccess = true) (s : Scope) : (op.perform s).2.depth = s.depth := by
  cases op with
  | push name => cases hop
  | pop exit => cases hop
  | declare name value isMutable =>
    rw [Operation.perform]
    cases hdeclare : s.declare name value isMutable with
    | error cause => rfl
    | ok s' =>
      obtain ⟨-, rfl⟩ := declare_eq_ok hdeclare
      rfl
  | assign name value =>
    rw [Operation.perform]
    cases hassign : s.assign name value with
    | error cause => rfl
    | ok s' =>
      obtain rfl := assign_eq_ok hassign
      exact depth_set s name value
  | lookup name => rfl
  | currentForUpdate name => rfl

namespace Chronicle

theorem run_append (c : Chronicle) (ops rest : List Operation) : c.run (ops ++ rest) = (c.run ops).run rest :=
  List.foldl_append

theorem after_append (ops rest : List Operation) : after (ops ++ rest) = (after ops).run rest := run_append _ ops rest

theorem depth_nested {ops : List Operation} (h : Nested ops) (c : Chronicle) :
    (c.run ops).scope.depth = c.scope.depth := by
  induction h generalizing c with
  | nil => rfl
  | access hop _ ih => exact (ih _).trans (depth_access hop c.scope)
  | @frame name exit inner rest _ _ ihInner ihRest =>
    rw [run_append]
    refine (ihRest _).trans ((depth_pop _).trans ?_)
    change (((c.perform (.push name)).run inner).scope.depth) - 1 = c.scope.depth
    rw [ihInner]
    rfl

/-- Unless the current frame is the first one, the operations have opened it, and have left all that they have opened
since. -/
theorem exists_opening (ops : List Operation) (hdepth : 0 < (after ops).scope.depth) :
    ∃ before name inner, ops = before ++ .push name :: inner ∧ Nested inner := by
  -- The induction is on the length, since a frame that is left takes us back before it was opened.
  induction hlength : ops.length using Nat.strong_induction_on generalizing ops with
  | _ n ih =>
    obtain rfl | ⟨rest, op, rfl⟩ := List.eq_nil_or_concat' ops
    · exact absurd hdepth (Nat.lt_irrefl 0)
    · rw [List.length_append, List.length_singleton] at hlength
      rw [after_append] at hdepth
      cases haccess : op.isAccess with
      | true =>
        have hsame : ((after rest).run [op]).scope.depth = (after rest).scope.depth := depth_access haccess _
        rw [hsame] at hdepth
        obtain ⟨before, name, inner, rfl, hinner⟩ := ih rest.length (by omega) rest hdepth rfl
        exact ⟨before, name, inner ++ [op], by simp, hinner.append (.access haccess .nil)⟩
      | false =>
        cases op with
        | push name => exact ⟨rest, name, [], rfl, .nil⟩
        | pop exit =>
          -- The frame that is left has an opening, and what comes before that opens the one around it.
          have hless : ((after rest).run [.pop exit]).scope.depth = (after rest).scope.depth - 1 := depth_pop _
          rw [hless] at hdepth
          obtain ⟨outside, name, inner, rfl, hinner⟩ := ih rest.length (by omega) rest (by omega) rfl
          have hmore : (after (outside ++ .push name :: inner)).scope.depth = (after outside).scope.depth + 1 := by
            rw [after_append]
            exact depth_nested hinner _
          rw [hmore, Nat.add_sub_cancel] at hdepth
          rw [List.length_append] at hlength
          obtain ⟨before, name', inner', rfl, hinner'⟩ := ih outside.length (by omega) outside hdepth rfl
          exact ⟨before, name', inner' ++ (.push name :: inner ++ [.pop exit]), by simp,
            hinner'.append (.frame hinner .nil)⟩
        | _ => cases haccess

end Chronicle

/-! ## Frames since a moment -/

/-- The scope after assignments. -/
def setAll (s : Scope) (assignments : List (String × Value)) : Scope :=
  assignments.foldl (fun s a => s.set a.1 a.2) s

/-- Since a moment a number of frames have been opened and are live, and the frames around them are as they were but for
the outward assignments. -/
structure Since (before c : Chronicle) (since : History) (inner : List Frame) (opens : List Nat) : Prop where
  history : c.history = since ++ before.history
  frames : c.scope.frames = inner ++ (before.scope.setAll (outward before.history since)).frames
  numbers : live c.history = opens ++ live before.history
  later : ∀ frame ∈ opens, opened before.history < frame
  length : opens.length = inner.length

/-- The same without the details: how many frames there are. -/
def Within (before : Chronicle) (depth : Nat) (c : Chronicle) : Prop :=
  ∃ since inner opens, Since before c since inner opens ∧ inner.length = depth

theorem opened_le_append (since h : History) : opened h ≤ opened (since ++ h) := by
  induction since with
  | nil => exact Nat.le_refl _
  | cons e since ih => exact ih.trans (opened_le_cons e _)

theorem leave_cons {α : Type} {a : α} {l : List α} (h : l ≠ []) : leave (a :: l) = l := by
  cases l with
  | nil => exact absurd rfl h
  | cons b l => rfl

theorem leave_ne_nil {α : Type} {l : List α} (h : l ≠ []) : leave l ≠ [] := by
  unfold leave
  split
  · nofun
  · exact h

theorem live_ne_nil (h : History) : live h ≠ [] := by
  induction h with
  | nil => nofun
  | cons e h ih =>
    obtain ⟨op, succeeded⟩ := e
    cases op with
    | push name => nofun
    | pop exit => exact leave_ne_nil ih
    | _ => exact ih

section

variable {before c : Chronicle} {since : History} {inner : List Frame} {opens : List Nat} {depth : Nat}

theorem since_refl (c : Chronicle) : Since c c [] [] [] := ⟨rfl, rfl, rfl, by simp, rfl⟩

theorem Since.push (h : Since before c since inner opens) (name : String) :
    Since before (c.perform (.push name)) ((.push name, true) :: since) (Frame.empty name :: inner)
      ((opened c.history + 1) :: opens) where
  history := congrArg (List.cons _) h.history
  frames := congrArg (List.cons _) h.frames
  numbers := congrArg (List.cons _) h.numbers
  later := by
    rw [List.forall_mem_cons, h.history]
    exact ⟨Nat.lt_succ_of_le (opened_le_append since before.history), h.later⟩
  length := congrArg Nat.succ h.length

theorem Since.pop {f : Frame} {frame : Nat} (h : Since before c since (f :: inner) (frame :: opens)) (exit : Exit) :
    Since before (c.perform (.pop exit)) ((.pop exit, true) :: since) inner opens where
  history := congrArg (List.cons _) h.history
  frames := by
    change c.scope.pop.frames = _
    rw [frames_pop, h.frames, List.cons_append, leave_cons (by simp [Scope.frames])]
    rfl
  numbers := by
    change leave (live c.history) = _
    rw [h.numbers, List.cons_append, leave_cons (by simp [live_ne_nil])]
  later := fun frame hframe => h.later frame (List.mem_cons_of_mem _ hframe)
  length := Nat.succ.inj h.length

theorem any_owns_eq {h : History} {frames : List Frame} {live : List Nat} {moment : Nat}
    (hall : List.Forall₂ (Matches h) frames live) (hlater : ∀ frame ∈ live, moment < frame) (n : String) :
    live.any (fun frame => moment < frame && (declared? h frame n).isSome) = frames.any (·.owns n) := by
  induction hall with
  | nil => rfl
  | cons hf _ ih =>
    obtain ⟨hfirst, hrest⟩ := List.forall_mem_cons.mp hlater
    rw [List.any_cons, List.any_cons, ih hrest, hf.owns, decide_eq_true hfirst, Bool.true_and]

/-- A name is declared in a live frame opened since then exactly if one of the inner frames owns it. -/
theorem Since.any_declared (h : Since before c since inner opens) (hc : c.Faithful) (n : String) :
    ((live c.history).any fun frame => opened before.history < frame && (declared? c.history frame n).isSome) =
      inner.any (·.owns n) := by
  have hmatches : List.Forall₂ (Matches c.history) inner opens := by
    rw [Chronicle.Faithful, h.frames, h.numbers] at hc
    have htake := List.forall₂_take_append _ opens _ hc
    rwa [h.length, List.take_left] at htake
  -- The frames around the inner ones were there at the moment, so that their numbers are too small.
  have houter : (live before.history).any (fun frame =>
      opened before.history < frame && (declared? c.history frame n).isSome) = false := by
    rw [List.any_eq_false]
    intro frame hframe
    simp [Nat.not_lt.mpr (le_opened_of_mem_live hframe)]
  rw [h.numbers, List.any_append, houter, Bool.or_false]
  exact any_owns_eq hmatches h.later n

theorem frames_setFirst_of_owns {name : String} (value : Value) {frames : List Frame}
    (howns : frames.any (·.owns name) = true) (outer : List Frame) :
    setFirst name value (frames ++ outer) = setFirst name value frames ++ outer := by
  induction frames with
  | nil => cases howns
  | cons f frames ih =>
    rw [List.cons_append, setFirst, setFirst]
    cases hf : f.owns name with
    | true => rfl
    | false =>
      rw [List.any_cons, hf, Bool.false_or] at howns
      simp [ih howns]

/-- An operation that changes nothing, and is no matter of the frames. -/
theorem Since.idle (h : Since before c since inner opens) {op : Operation} {succeeded : Bool}
    (hlive : live ((op, succeeded) :: c.history) = live c.history)
    (houtward : outward before.history ((op, succeeded) :: since) = outward before.history since) :
    Since before ⟨c.scope, (op, succeeded) :: c.history⟩ ((op, succeeded) :: since) inner opens where
  history := congrArg (List.cons _) h.history
  frames := by rw [houtward, h.frames]
  numbers := hlive.trans h.numbers
  later := h.later
  length := h.length

theorem Since.bind {f : Frame} {b : Binding} (h : Since before c since (f :: inner) opens) :
    Since before ⟨{ c.scope with current := c.scope.current.bind b },
      (.declare b.name b.value b.isMutable, true) :: c.history⟩ ((.declare b.name b.value b.isMutable, true) :: since)
      (f.bind b :: inner) opens where
  history := congrArg (List.cons _) h.history
  frames := by
    obtain ⟨hcurrent, houter⟩ := List.cons.inj h.frames
    change c.scope.current.bind b :: c.scope.outer = _
    rw [hcurrent, houter]
    rfl
  numbers := h.numbers
  later := h.later
  length := h.length

/-- An assignment goes outward exactly if no inner frame owns the name. -/
theorem Since.set (h : Since before c since inner opens) (hc : c.Faithful) (name : String) (value : Value) :
    ∃ inner', Since before ⟨c.scope.set name value, (.assign name value, true) :: c.history⟩
      ((.assign name value, true) :: since) inner' opens ∧ inner'.length = inner.length := by
  have hany := h.any_declared hc name
  rw [h.history] at hany
  cases howns : inner.any (·.owns name) with
  | true =>
    refine ⟨setFirst name value inner, ⟨congrArg (List.cons _) h.history, ?_, h.numbers, h.later, ?_⟩,
      length_setFirst name value inner⟩
    · rw [howns] at hany
      change (c.scope.set name value).frames = _
      rw [frames_set, h.frames, frames_setFirst_of_owns value howns, outward, if_pos hany]
    · rw [length_setFirst, h.length]
  | false =>
    refine ⟨inner, ⟨congrArg (List.cons _) h.history, ?_, h.numbers, h.later, h.length⟩, rfl⟩
    rw [howns] at hany
    have hfree : ∀ g ∈ inner, g.owns name = false := by simpa using howns
    change (c.scope.set name value).frames = _
    rw [frames_set, h.frames, setFirst_append hfree, outward, if_neg (by simp [hany]), setAll, setAll,
      List.foldl_append, ← frames_set]
    rfl

/-- Accesses leave the number of frames that have been opened as it is. -/
theorem Within.access (h : Within before (depth + 1) c) (hc : c.Faithful) {op : Operation}
    (hop : op.isAccess = true) : Within before (depth + 1) (c.perform op) := by
  obtain ⟨since, inner, opens, h, hdepth⟩ := h
  cases op with
  | push name => cases hop
  | pop exit => cases hop
  | declare name value isMutable =>
    rw [Chronicle.perform, Operation.perform]
    cases hdeclare : c.scope.declare name value isMutable with
    | error cause => exact ⟨_, inner, opens, h.idle rfl rfl, hdepth⟩
    | ok s =>
      obtain ⟨-, rfl⟩ := declare_eq_ok hdeclare
      obtain ⟨f, inner, rfl⟩ := List.exists_cons_of_length_eq_add_one hdepth
      exact ⟨_, _, opens, h.bind, hdepth⟩
  | assign name value =>
    rw [Chronicle.perform, Operation.perform]
    cases hassign : c.scope.assign name value with
    | error cause => exact ⟨_, inner, opens, h.idle rfl rfl, hdepth⟩
    | ok s =>
      obtain rfl := assign_eq_ok hassign
      obtain ⟨inner', h', hlength⟩ := h.set hc name value
      exact ⟨_, inner', opens, h', hlength.trans hdepth⟩
  | lookup name => exact ⟨_, inner, opens, h.idle rfl rfl, hdepth⟩
  | currentForUpdate name => exact ⟨_, inner, opens, h.idle rfl rfl, hdepth⟩

theorem Within.push (h : Within before depth c) (name : String) :
    Within before (depth + 1) (c.perform (.push name)) := by
  obtain ⟨since, inner, opens, h, rfl⟩ := h
  exact ⟨_, _, _, h.push name, rfl⟩

theorem Within.pop (h : Within before (depth + 1) c) (exit : Exit) : Within before depth (c.perform (.pop exit)) := by
  obtain ⟨since, inner, opens, h, hdepth⟩ := h
  obtain ⟨f, inner, rfl⟩ := List.exists_cons_of_length_eq_add_one hdepth
  obtain ⟨frame, opens, rfl⟩ := List.exists_cons_of_length_eq_add_one h.length
  exact ⟨_, _, _, h.pop exit, Nat.succ.inj hdepth⟩

/-- Nested operations leave the number of frames that have been opened as it is. -/
theorem Within.nested {ops : List Operation} (hops : Nested ops) (h : Within before (depth + 1) c) (hc : c.Faithful) :
    Within before (depth + 1) (c.run ops) := by
  induction hops generalizing c depth with
  | nil => exact h
  | access hop _ ih => exact ih (h.access hc hop) (hc.perform _)
  | @frame name exit inner rest _ _ ihInner ihRest =>
    -- Inside of the pair there is one frame more, which is why the count is general in the induction.
    have hpush := hc.perform (.push name)
    have hinner := ihInner (h.push name) hpush
    have hpop := (hpush.run inner).perform (.pop exit)
    rw [Chronicle.run_append]
    exact ihRest (hinner.pop exit) hpop

theorem eq_of_frames {s t : Scope} (h : s.frames = t.frames) : s = t := by
  obtain ⟨hcurrent, houter⟩ := List.cons.inj h
  cases s
  cases t
  cases hcurrent
  cases houter
  rfl

/-- A frame that is left gives back the frames around it. -/
theorem frame_left {inner : List Operation} (hinner : Nested inner) (hc : c.Faithful) (name : String) (exit : Exit) :
    ∃ since, (c.run (.push name :: inner ++ [.pop exit])).history = since ++ c.history ∧
      (c.run (.push name :: inner ++ [.pop exit])).scope = c.scope.setAll (outward c.history since) := by
  have hpush : Within c 1 (c.perform (.push name)) := Within.push ⟨[], [], [], since_refl c, rfl⟩ name
  obtain ⟨since, frames, opens, h, hlength⟩ := (hpush.nested hinner (hc.perform _)).pop exit
  rw [List.length_eq_zero_iff] at hlength
  subst hlength
  rw [Chronicle.run_append]
  exact ⟨since, h.history, eq_of_frames h.frames⟩

end

/-! ## Refinement -/

/-- A scope answers as its history says. -/
structure Chronicle.Answers (c : Chronicle) : Prop where
  /-- A name has a value if one of the live frames declares it. -/
  lookup_iff : ∀ n, (∃ v, c.scope.lookup n = .ok v) ↔
    ∃ frame ∈ live c.history, (declared? c.history frame n).isSome = true
  /-- It is the value last written to the binding of the innermost of them. -/
  lookup_eq : ∀ n v, c.scope.lookup n = .ok v ↔
    ∃ frame, owner? c.history n = some frame ∧ written? c.history frame n = some v
  assign_iff : ∀ n v, (∃ s, c.scope.assign n v = .ok s) ↔ Assignable c.history n
  currentForUpdate_iff : ∀ n v, c.scope.currentForUpdate n = .ok v ↔
    Assignable c.history n ∧ c.scope.lookup n = .ok v
  /-- A name cannot be declared if the current frame declares it. -/
  declare_iff : ∀ n v isMutable, (∃ cause, c.scope.declare n v isMutable = .error cause) ↔
    ∃ frame, (live c.history).head? = some frame ∧ (declared? c.history frame n).isSome = true
  /-- An operation that fails changes nothing. -/
  failing : ∀ (op : Operation) (cause : Cause),
    (op.perform c.scope).1 = .error cause → (op.perform c.scope).2 = c.scope

theorem change_error {s : Scope} {x : Except Cause Scope} {cause : Cause} (h : (s.change x).1 = .error cause) :
    (s.change x).2 = s := by
  cases x with
  | ok s' => cases h
  | error cause' => rfl

/-- An operation that fails leaves the scope as it is. -/
theorem Operation.perform_error {op : Operation} {s : Scope} {cause : Cause} (h : (op.perform s).1 = .error cause) :
    (op.perform s).2 = s := by
  cases op with
  | push name => cases h
  | pop exit => cases h
  | declare name value isMutable => exact change_error h
  | assign name value => exact change_error h
  | lookup name => rfl
  | currentForUpdate name => rfl

theorem Chronicle.Faithful.answers {c : Chronicle} (hc : c.Faithful) : c.Answers where
  lookup_iff _ := hc.exists_lookup_iff
  lookup_eq _ _ := hc.lookup_eq_ok_iff
  assign_iff _ _ := hc.exists_assign_iff
  currentForUpdate_iff _ _ := hc.currentForUpdate_eq_ok_iff
  declare_iff _ _ _ := hc.exists_declare_error_iff
  failing _ _ := Operation.perform_error

/-- After any operations on a fresh scope, the scope answers as their history says; and if there is a frame to leave,
then leaving it gives back the scope that the frame was opened in, but for the assignments that have gone outward
since. -/
theorem scope_refines_history (ops : List Operation) :
    (Chronicle.after ops).Answers ∧
      (0 < (Chronicle.after ops).scope.depth → ∀ exit, ∃ before name inner since,
        ops = before ++ .push name :: inner ∧ Nested inner ∧
        (Chronicle.after (ops ++ [.pop exit])).history = since ++ (Chronicle.after before).history ∧
        (Chronicle.after (ops ++ [.pop exit])).scope =
          (Chronicle.after before).scope.setAll (outward (Chronicle.after before).history since)) := by
  refine ⟨(Chronicle.faithful_after ops).answers, fun hdepth exit => ?_⟩
  obtain ⟨before, name, inner, rfl, hinner⟩ := Chronicle.exists_opening ops hdepth
  obtain ⟨since, hhistory, hscope⟩ := frame_left hinner (Chronicle.faithful_after before) name exit
  rw [List.append_assoc, Chronicle.after_append]
  exact ⟨before, name, inner, since, rfl, hinner, hhistory, hscope⟩

/-- A block assigns to a variable before it hides it, and ends in an error: the first assignment stays, the second one
is gone with the block. -/
theorem scope_refines_history_hidden :
    ∃ ops : List Operation, 0 < (Chronicle.after ops).scope.depth ∧
      (∃ before name inner since, ops = before ++ .push name :: inner ∧ Nested inner ∧
        (Chronicle.after (ops ++ [.pop .raised])).history = since ++ (Chronicle.after before).history ∧
        (Chronicle.after (ops ++ [.pop .raised])).scope =
          (Chronicle.after before).scope.setAll (outward (Chronicle.after before).history since)) ∧
      (Chronicle.after ops).scope.lookup "x" = .ok (.text "d") ∧
      (Chronicle.after (ops ++ [.pop .raised])).scope.lookup "x" = .ok (.text "b") := by
  let ops : List Operation := [.declare "x" (.text "a") true, .push "block", .assign "x" (.text "b"),
    .declare "x" (.text "c") true, .assign "x" (.text "d")]
  have hdepth : 0 < (Chronicle.after ops).scope.depth := Nat.zero_lt_one
  obtain ⟨-, hleaving⟩ := scope_refines_history ops
  exact ⟨ops, hdepth, hleaving hdepth .raised, rfl, rfl⟩

end TreeScript.Scope
