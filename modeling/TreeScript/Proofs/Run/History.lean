/-
The scope as what has been asked of it makes it. A history lists the operations on a scope, each with whether it
succeeded, and knows nothing of frames and bindings: frames are numbers in the order in which they were opened, and
which of them are live, what each declares and what was last written to it is read off the history alone. A scope keeps
no history, but after any operations it answers as the history of these operations says.
-/
import TreeScript.Proofs.Run.Scope

namespace TreeScript.Scope

/-! ## Operations -/

/-- How a frame is left: at its end, or because an error passes through it. -/
inductive Exit where
  | ended
  | raised

/-- What is asked of a scope. -/
inductive Operation where
  | push (name : String)
  | pop (exit : Exit)
  | declare (name : String) (value : Value) (isMutable : Bool)
  | assign (name : String) (value : Value)
  | lookup (name : String)
  | currentForUpdate (name : String)

/-- The answer to a change, and the scope after it: the changed one, or the same one if the change fails. -/
def change (s : Scope) : Except Cause Scope → Except Cause (Option Value) × Scope
  | .ok s' => (.ok none, s')
  | .error cause => (.error cause, s)

/-- The answer to an operation, which is a value or nothing unless it fails, and the scope after it. -/
def Operation.perform (s : Scope) : Operation → Except Cause (Option Value) × Scope
  | push name => (.ok none, s.push name)
  | pop _ => (.ok none, s.pop)
  | declare name value isMutable => s.change (s.declare name value isMutable)
  | assign name value => s.change (s.assign name value)
  | lookup name => ((s.lookup name).map some, s)
  | currentForUpdate name => ((s.currentForUpdate name).map some, s)

/-- The operations so far, the latest first, each with whether it succeeded. -/
abbrev History := List (Operation × Bool)

/-- A scope and its history. -/
structure Chronicle where
  scope : Scope
  history : History

namespace Chronicle

def perform (c : Chronicle) (op : Operation) : Chronicle :=
  ⟨(op.perform c.scope).2, (op, (op.perform c.scope).1.isOk) :: c.history⟩

def run (c : Chronicle) (ops : List Operation) : Chronicle := ops.foldl perform c

/-- After operations on a fresh scope. -/
def after (ops : List Operation) : Chronicle := run ⟨.fresh, []⟩ ops

end Chronicle

/-! ## Histories -/

namespace History

/-- How many frames have been opened inside of the first one, which is number zero. -/
def opened : History → Nat
  | [] => 0
  | (.push _, _) :: h => opened h + 1
  | _ :: h => opened h

/-- A list without its first item, unless that is the only one. -/
def leave {α : Type} : List α → List α
  | _ :: a :: rest => a :: rest
  | l => l

/-- The frames that are open, the innermost first. -/
def live : History → List Nat
  | [] => [0]
  | (.push _, _) :: h => (opened h + 1) :: live h
  | (.pop _, _) :: h => leave (live h)
  | _ :: h => live h

/-- Whether the binding that a frame declares for a name is mutable; `none` if it declares none. -/
def declared? : History → Nat → String → Option Bool
  | [], _, _ => none
  | (.declare name _ isMutable, true) :: h, frame, n =>
    if name = n ∧ (live h).head? = some frame then some isMutable else declared? h frame n
  | _ :: h, frame, n => declared? h frame n

/-- The innermost live frame that declares a name. -/
def owner? (h : History) (n : String) : Option Nat := (live h).find? fun frame => (declared? h frame n).isSome

/-- The innermost live frame that declares a name declares it mutable. -/
def Assignable (h : History) (n : String) : Prop :=
  ∃ frame, owner? h n = some frame ∧ declared? h frame n = some true

/-- The value that was last written to a frame's binding for a name: declared there, or assigned while the frame was
the innermost one to declare the name. -/
def written? : History → Nat → String → Option Value
  | [], _, _ => none
  | (.declare name value _, true) :: h, frame, n =>
    if name = n ∧ (live h).head? = some frame then some value else written? h frame n
  | (.assign name value, true) :: h, frame, n =>
    if name = n ∧ owner? h name = some frame then some value else written? h frame n
  | _ :: h, frame, n => written? h frame n

/-- The assignments since a moment, in their order, that were made while no frame opened since then and still live had
declared the name. -/
def outward (before : History) : History → List (String × Value)
  | [] => []
  | (.assign name value, true) :: h =>
    if (live (h ++ before)).any fun frame => opened before < frame && (declared? (h ++ before) frame name).isSome then
      outward before h
    else outward before h ++ [(name, value)]
  | _ :: h => outward before h

/-! ### Live frames -/

theorem opened_le_cons (e : Operation × Bool) (h : History) : opened h ≤ opened (e :: h) := by
  obtain ⟨op, succeeded⟩ := e
  cases op <;> simp [opened]

theorem leave_sublist {α : Type} (l : List α) : (leave l).Sublist l := by
  unfold leave
  split
  · exact List.sublist_cons_self _ _
  · exact List.Sublist.refl l

theorem le_opened_of_mem_live {h : History} {frame : Nat} (hlive : frame ∈ live h) : frame ≤ opened h := by
  induction h with
  | nil =>
    rw [live, List.mem_singleton] at hlive
    exact hlive.le
  | cons e h ih =>
    obtain ⟨op, succeeded⟩ := e
    cases op with
    | push name =>
      rw [live, List.mem_cons] at hlive
      rw [opened]
      obtain rfl | hlive := hlive
      · exact Nat.le_refl _
      · exact (ih hlive).trans (Nat.le_succ _)
    | pop exit => exact ih ((leave_sublist _).subset hlive)
    | _ => exact ih hlive

/-- A frame further in was opened later. -/
theorem live_pairwise (h : History) : (live h).Pairwise (· > ·) := by
  induction h with
  | nil => exact List.pairwise_singleton _ _
  | cons e h ih =>
    obtain ⟨op, succeeded⟩ := e
    cases op with
    | push name => exact ih.cons fun frame hlive => Nat.lt_succ_of_le (le_opened_of_mem_live hlive)
    | pop exit => exact ih.sublist (leave_sublist _)
    | _ => exact ih

/-- A frame that has not been opened yet declares nothing. -/
theorem declared?_of_opened_lt {h : History} {frame : Nat} (hlater : opened h < frame) (n : String) :
    declared? h frame n = none := by
  induction h with
  | nil => rfl
  | cons e h ih =>
    have hlater' : opened h < frame := (opened_le_cons e h).trans_lt hlater
    have hrest := ih hlater'
    unfold declared?
    split
    · rename_i heq
      cases heq
    · rename_i heq
      cases heq
      rw [if_neg ?_, hrest]
      rintro ⟨-, hcurrent⟩
      exact absurd (le_opened_of_mem_live (List.mem_of_head? hcurrent)) (Nat.not_le.mpr hlater')
    · rename_i heq
      cases heq
      exact hrest

theorem written?_of_opened_lt {h : History} {frame : Nat} (hlater : opened h < frame) (n : String) :
    written? h frame n = none := by
  induction h with
  | nil => rfl
  | cons e h ih =>
    have hlater' : opened h < frame := (opened_le_cons e h).trans_lt hlater
    have hrest := ih hlater'
    have hdead : frame ∉ live h := fun hlive => Nat.not_le.mpr hlater' (le_opened_of_mem_live hlive)
    unfold written?
    split
    · rename_i heq
      cases heq
    · rename_i heq
      cases heq
      rw [if_neg ?_, hrest]
      rintro ⟨-, hcurrent⟩
      exact hdead (List.mem_of_head? hcurrent)
    · rename_i heq
      cases heq
      rw [if_neg ?_, hrest]
      rintro ⟨-, howner⟩
      exact hdead (List.mem_of_find?_eq_some howner)
    · rename_i heq
      cases heq
      exact hrest

end History

/-! ## What the frames hold -/

open History

/-- A frame holds what its history says: a binding for each name that it declares, with the value last written. -/
def Matches (h : History) (f : Frame) (frame : Nat) : Prop :=
  ∀ n, (f.find? n).map (·.isMutable) = declared? h frame n ∧ (f.find? n).map (·.value) = written? h frame n

/-- The frames of the scope are the live ones of the history, and hold what it says. -/
def Chronicle.Faithful (c : Chronicle) : Prop := List.Forall₂ (Matches c.history) c.scope.frames (live c.history)

section

variable {h : History} {f : Frame} {frame : Nat}

theorem Matches.owns (hf : Matches h f frame) (n : String) : f.owns n = (declared? h frame n).isSome := by
  rw [← (hf n).1, Option.isSome_map]
  rfl

/-- A frame that is only opened is empty. -/
theorem matches_empty (name : String) (hlater : opened h < frame) : Matches h (Frame.empty name) frame := by
  intro n
  rw [declared?_of_opened_lt hlater, written?_of_opened_lt hlater]
  exact ⟨rfl, rfl⟩

/-- The current frame after a declaration. -/
theorem Matches.bind {name : String} {value : Value} {isMutable : Bool} (hf : Matches h f frame)
    (hfree : f.owns name = false) (hcurrent : (live h).head? = some frame) :
    Matches ((.declare name value isMutable, true) :: h) (f.bind ⟨name, value, isMutable⟩) frame := by
  intro n
  rw [Frame.find?_bind hfree, declared?, written?]
  by_cases hn : name = n
  · rw [if_pos hn, if_pos ⟨hn, hcurrent⟩, if_pos ⟨hn, hcurrent⟩]
    exact ⟨rfl, rfl⟩
  · rw [if_neg hn, if_neg fun h => hn h.1, if_neg fun h => hn h.1]
    exact hf n

/-- A declaration is no matter of any other frame. -/
theorem Matches.declare_elsewhere {name : String} {value : Value} {isMutable : Bool} (hf : Matches h f frame)
    (hother : (live h).head? ≠ some frame) : Matches ((.declare name value isMutable, true) :: h) f frame := by
  intro n
  rw [declared?, written?, if_neg fun h => hother h.2, if_neg fun h => hother h.2]
  exact hf n

/-- The owner of a name after an assignment. -/
theorem Matches.set {name : String} {value : Value} (hf : Matches h f frame) (howner : owner? h name = some frame) :
    Matches ((.assign name value, true) :: h) (f.set name value) frame := by
  have hdeclared : (declared? h frame name).isSome = true := by
    unfold owner? at howner
    simpa using List.find?_some howner
  have howns : (f.find? name).isSome = true := (hf.owns name).trans hdeclared
  intro n
  refine ⟨(Frame.mutability?_set f name value n).trans (hf n).1, ?_⟩
  rw [Frame.find?_set, Option.map_map, written?]
  by_cases hn : name = n
  · subst hn
    obtain ⟨b, hb⟩ := Option.isSome_iff_exists.mp howns
    rw [hb, if_pos ⟨rfl, howner⟩]
    simp
  · rw [if_neg fun h => hn h.1, ← (hf n).2]
    refine Option.map_congr fun b _ => ?_
    rw [Function.comp, if_neg (Ne.symm hn)]

/-- An assignment is no matter of any frame but the owner of the name. -/
theorem Matches.assign_elsewhere {name : String} {value : Value} (hf : Matches h f frame)
    (hother : owner? h name ≠ some frame) : Matches ((.assign name value, true) :: h) f frame := by
  intro n
  rw [written?, if_neg fun h => hother h.2]
  exact hf n

theorem forall₂_imp_of_mem {α β : Type} {R S : α → β → Prop} {l : List α} {m : List β} (hall : List.Forall₂ R l m)
    (himp : ∀ a, ∀ b ∈ m, R a b → S a b) : List.Forall₂ S l m := by
  induction hall with
  | nil => exact .nil
  | cons hab _ ih =>
    exact .cons (himp _ _ List.mem_cons_self hab) (ih fun a b hb => himp a b (List.mem_cons_of_mem _ hb))

/-- Frames that were opened one after the other, of which the first one that declares the name gets another value. -/
theorem matches_setFirst {name : String} (value : Value) {frames : List Frame} {live : List Nat}
    (hall : List.Forall₂ (Matches h) frames live) (hnodup : live.Nodup)
    (howner : live.find? (fun frame => (declared? h frame name).isSome) = owner? h name) :
    List.Forall₂ (Matches ((.assign name value, true) :: h)) (setFirst name value frames) live := by
  induction hall with
  | nil => exact .nil
  | @cons f frame frames live hf hall ih =>
    obtain ⟨hnew, hnodup⟩ := List.nodup_cons.mp hnodup
    rw [setFirst, hf.owns]
    rw [List.find?_cons] at howner
    cases hdeclared : (declared? h frame name).isSome with
    | true =>
      -- The frames further out are not the owner, since no two live frames have one number.
      rw [hdeclared] at howner
      rw [if_pos rfl]
      refine .cons (hf.set howner.symm) (forall₂_imp_of_mem hall fun g other hother hg => hg.assign_elsewhere ?_)
      rw [← howner]
      rintro ⟨⟩
      exact hnew hother
    | false =>
      rw [hdeclared] at howner
      rw [if_neg (by simp)]
      refine .cons (hf.assign_elsewhere ?_) (ih hnodup howner)
      rw [← howner]
      intro hfound
      exact hnew (List.mem_of_find?_eq_some hfound)

end

/-! ## Operations keep to the history -/

theorem frames_pop (s : Scope) : s.pop.frames = leave s.frames := by
  obtain ⟨current, outer⟩ := s
  cases outer <;> rfl

theorem forall₂_leave {α β : Type} {R : α → β → Prop} {l : List α} {m : List β} (hall : List.Forall₂ R l m) :
    List.Forall₂ R (leave l) (leave m) := by
  cases hall with
  | nil => exact .nil
  | cons hab hrest =>
    cases hrest with
    | nil => exact .cons hab .nil
    | cons hcd hrest => exact .cons hcd hrest

namespace Chronicle

variable {c : Chronicle} {name : String} {value : Value} {isMutable : Bool}

/-- Only the current frame is changed by a declaration. -/
theorem Faithful.bind (h : c.Faithful) (hfree : c.scope.current.owns name = false) :
    Faithful ⟨{ c.scope with current := c.scope.current.bind ⟨name, value, isMutable⟩ },
      (.declare name value isMutable, true) :: c.history⟩ := by
  obtain ⟨frame, outer, hcurrent, houter, hlive⟩ := List.forall₂_cons_left_iff.mp h
  have hhead : (live c.history).head? = some frame := by rw [hlive, List.head?_cons]
  -- The number of the current frame is that of no other one.
  have hnodup := (live_pairwise c.history).nodup
  rw [hlive, List.nodup_cons] at hnodup
  change List.Forall₂ _ _ (live c.history)
  rw [hlive]
  refine .cons (hcurrent.bind hfree hhead) (forall₂_imp_of_mem houter fun f other hother hf => ?_)
  refine hf.declare_elsewhere ?_
  rw [hhead]
  rintro ⟨⟩
  exact hnodup.1 hother

theorem Faithful.set (h : c.Faithful) :
    Faithful ⟨c.scope.set name value, (.assign name value, true) :: c.history⟩ := by
  rw [Faithful]
  dsimp only
  rw [frames_set]
  exact matches_setFirst value h (live_pairwise c.history).nodup rfl

/-- What an operation makes of a scope is what it adds to the history. -/
theorem Faithful.perform (h : c.Faithful) (op : Operation) : (c.perform op).Faithful := by
  cases op with
  | push name =>
    have hempty : Matches c.history (Frame.empty name) (opened c.history + 1) :=
      matches_empty name (Nat.lt_succ_self _)
    exact .cons hempty h
  | pop exit =>
    rw [Faithful, Chronicle.perform, Operation.perform, frames_pop]
    exact forall₂_leave h
  | declare name value isMutable =>
    rw [Chronicle.perform, Operation.perform]
    cases hdeclare : c.scope.declare name value isMutable with
    | error cause => exact h
    | ok s =>
      obtain ⟨hfree, rfl⟩ := declare_eq_ok hdeclare
      exact h.bind hfree
  | assign name value =>
    rw [Chronicle.perform, Operation.perform]
    cases hassign : c.scope.assign name value with
    | error cause => exact h
    | ok s =>
      obtain rfl := assign_eq_ok hassign
      exact h.set
  | lookup name => exact h
  | currentForUpdate name => exact h

theorem Faithful.run (h : c.Faithful) (ops : List Operation) : (c.run ops).Faithful := by
  induction ops generalizing c with
  | nil => exact h
  | cons op ops ih => exact ih (h.perform op)

theorem faithful_fresh : Faithful ⟨.fresh, []⟩ := .cons (fun _ => ⟨rfl, rfl⟩) .nil

theorem faithful_after (ops : List Operation) : (after ops).Faithful := faithful_fresh.run ops

end Chronicle

/-! ## Answers -/

section

variable {h : History}

/-- The first frame with a binding for a name is the one that belongs to the first declaration. -/
theorem findSome?_of_matches {frames : List Frame} {live : List Nat} (hall : List.Forall₂ (Matches h) frames live)
    (n : String) :
    (frames.findSome? (·.find? n)).map (·.isMutable) =
        (live.find? fun frame => (declared? h frame n).isSome).bind (declared? h · n) ∧
      (frames.findSome? (·.find? n)).map (·.value) =
        (live.find? fun frame => (declared? h frame n).isSome).bind (written? h · n) := by
  induction hall with
  | nil => exact ⟨rfl, rfl⟩
  | @cons f frame frames live hf _ ih =>
    obtain ⟨hmutable, hvalue⟩ := hf n
    rw [List.findSome?_cons, List.find?_cons, ← hmutable]
    cases hb : f.find? n with
    | none => exact ih
    | some b =>
      rw [hb] at hmutable hvalue
      exact ⟨hmutable, hvalue⟩

namespace Chronicle.Faithful

variable {c : Chronicle} (hc : c.Faithful) {n : String}

include hc

theorem isMutable_eq (n : String) :
    (c.scope.find? n).map (·.isMutable) = (owner? c.history n).bind (declared? c.history · n) :=
  (findSome?_of_matches hc n).1

theorem value_eq (n : String) :
    (c.scope.find? n).map (·.value) = (owner? c.history n).bind (written? c.history · n) :=
  (findSome?_of_matches hc n).2

theorem lookup_eq_ok_iff {v : Value} :
    c.scope.lookup n = .ok v ↔ ∃ frame, owner? c.history n = some frame ∧ written? c.history frame n = some v := by
  rw [← Option.bind_eq_some_iff, ← hc.value_eq]
  unfold Scope.lookup
  cases c.scope.find? n with
  | none => simp
  | some b => simp

theorem exists_lookup_iff :
    (∃ v, c.scope.lookup n = .ok v) ↔ ∃ frame ∈ live c.history, (declared? c.history frame n).isSome = true := by
  have hfound : (∃ v, c.scope.lookup n = .ok v) ↔ ((c.scope.find? n).map (·.isMutable)).isSome = true := by
    unfold Scope.lookup
    cases c.scope.find? n with
    | none => simp
    | some b => simp
  have howner : (owner? c.history n).isSome = true ↔
      ((owner? c.history n).bind (declared? c.history · n)).isSome = true := by
    cases howner : owner? c.history n with
    | none => simp
    | some frame =>
      unfold owner? at howner
      simpa using List.find?_some howner
  rw [hfound, hc.isMutable_eq, ← howner, owner?, List.find?_isSome]

theorem assignable_iff : Assignable c.history n ↔ ∃ b, c.scope.find? n = some b ∧ b.isMutable = true := by
  rw [Assignable, ← Option.bind_eq_some_iff, ← hc.isMutable_eq, Option.map_eq_some_iff]

theorem currentForUpdate_eq_ok_iff {v : Value} :
    c.scope.currentForUpdate n = .ok v ↔ Assignable c.history n ∧ c.scope.lookup n = .ok v := by
  rw [hc.assignable_iff]
  unfold Scope.currentForUpdate Scope.lookup
  cases c.scope.find? n with
  | none => simp
  | some b => cases hb : b.isMutable <;> simp [hb]

theorem exists_assign_iff {v : Value} : (∃ s, c.scope.assign n v = .ok s) ↔ Assignable c.history n := by
  rw [hc.assignable_iff]
  constructor
  · rintro ⟨s, hs⟩
    exact mutable_of_assign hs
  · rintro ⟨b, hb, hmutable⟩
    refine ⟨c.scope.set n v, ?_⟩
    unfold Scope.assign Scope.currentForUpdate
    rw [hb]
    dsimp only
    rw [if_pos hmutable]
    rfl

theorem exists_declare_error_iff {v : Value} {isMutable : Bool} :
    (∃ cause, c.scope.declare n v isMutable = .error cause) ↔
      ∃ frame, (live c.history).head? = some frame ∧ (declared? c.history frame n).isSome = true := by
  obtain ⟨frame, outer, hcurrent, -, hlive⟩ := List.forall₂_cons_left_iff.mp hc
  rw [hlive, List.head?_cons]
  unfold Scope.declare Scope.owns
  rw [hcurrent.owns]
  cases hdeclared : (declared? c.history frame n).isSome <;> simp [hdeclared]

end Chronicle.Faithful

end

end TreeScript.Scope
