/-
Pairs of runs that end alike: both finish, both fail, or both go on for ever. What more is asked of the two is left
open, a relation of the states that they leave and one of their failures. There is a rule for each way to put runs
together, so that two runs are compared part by part, whatever statements they are runs of.
-/
import TreeScript.Proofs.Run.Rule

namespace TreeScript

/-! ## Failures -/

/-- Two errors of which some view is the same, or the same defect twice. -/
inductive Failure.SameIn {α : Type} (view : Error → α) : Failure → Failure → Prop
  | error {e e' : Error} (h : view e = view e') : SameIn view (.error e) (.error e')
  | defect (d : Defect) : SameIn view (.defect d) (.defect d)

theorem Failure.SameIn.refl {α : Type} (view : Error → α) (f : Failure) : SameIn view f f := by
  cases f with
  | error e => exact .error rfl
  | defect d => exact .defect d

/-! ## Pairs of steps -/

/-- Two steps that give related results or related failures. -/
inductive StepsMatch {α β : Type} (S : Failure → Failure → Prop) (R : α → β → Prop) :
    Except Failure α → Except Failure β → Prop
  | ok {a : α} {b : β} (h : R a b) : StepsMatch S R (.ok a) (.ok b)
  | error {f g : Failure} (h : S f g) : StepsMatch S R (.error f) (.error g)

namespace StepsMatch

variable {α β : Type} {S : Failure → Failure → Prop} {R : α → β → Prop}

theorem of_eq {x y : Except Failure α} (hS : ∀ f, S f f) (h : x = y) : StepsMatch S Eq x y := by
  subst h
  cases x with
  | ok a => exact .ok rfl
  | error f => exact .error (hS f)

/-- The same is made of the results. -/
theorem map {γ : Type} {x y : Except Failure α} (h : StepsMatch S Eq x y) (f : α → γ) :
    StepsMatch S Eq (x.map f) (y.map f) := by
  rcases h with @⟨a, _, rfl⟩ | hS
  · exact .ok rfl
  · exact .error hS

end StepsMatch

/-! ## Pairs of outcomes -/

/-- Two runs that end in the same way, in related states and, if they fail, with related failures. -/
inductive Outcome.Match (S : Failure → Failure → Prop) (R : State → State → Prop) : Outcome → Outcome → Prop
  | finished {a b : State} (h : R a b) : Match S R (.finished a) (.finished b)
  | failed {f g : Failure} {a b : State} (hf : S f g) (h : R a b) : Match S R (.failed f a) (.failed g b)
  | unfinished : Match S R .unfinished .unfinished

namespace Outcome.Match

variable {S S' : Failure → Failure → Prop} {R R' : State → State → Prop} {o o' : Outcome}

theorem imp (h : Match S R o o') (hS : ∀ f g, S f g → S' f g) (hR : ∀ a b, R a b → R' a b) : Match S' R' o o' := by
  cases h with
  | finished h => exact .finished (hR _ _ h)
  | failed hf h => exact .failed (hS _ _ hf) (hR _ _ h)
  | unfinished => exact .unfinished

/-- What either run leaves may be said in addition. -/
theorem leaves {P P' : State → Prop} (h : Match S R o o') (ho : o.Leaves P) (ho' : o'.Leaves P') :
    Match S (fun a b => R a b ∧ P a ∧ P' b) o o' := by
  cases h with
  | finished h => exact .finished ⟨h, ho, ho'⟩
  | failed hf h => exact .failed hf ⟨h, ho, ho'⟩
  | unfinished => exact .unfinished

/-- A run that ends like one that finishes does so itself. -/
theorem exists_finished {st : State} (h : Match S R o (.finished st)) : ∃ last, o = .finished last ∧ R last st := by
  cases h with
  | finished h => exact ⟨_, rfl, h⟩

theorem exists_failed {f : Failure} {st : State} (h : Match Eq R o (.failed f st)) :
    ∃ last, o = .failed f last ∧ R last st := by
  cases h with
  | failed hf h => exact ⟨_, by rw [hf], h⟩

theorem andThen {next next' : State → Outcome} (h : Match S R o o')
    (hnext : ∀ a b, R a b → Match S R (next a) (next' b)) : Match S R (o.andThen next) (o'.andThen next') := by
  cases h with
  | finished h => exact hnext _ _ h
  | failed hf h => exact .failed hf h
  | unfinished => exact .unfinished

theorem ofStep {α β : Type} {P : α → β → Prop} {a b : State} {step : Except Failure α} {step' : Except Failure β}
    {next : α → Outcome} {next' : β → Outcome} (h : StepsMatch S P step step') (hab : R a b)
    (hnext : ∀ x y, P x y → Match S R (next x) (next' y)) :
    Match S R (ofStep a step next) (ofStep b step' next') := by
  cases h with
  | ok h => exact hnext _ _ h
  | error hf => exact .failed hf hab

theorem always {change change' : State → State} (h : Match S (fun a b => R (change a) (change' b)) o o') :
    Match S R (o.always change) (o'.always change') := by
  cases h with
  | finished h => exact .finished h
  | failed hf h => exact .failed hf h
  | unfinished => exact .unfinished

/-- Only the second run goes on to change its state. -/
theorem always_right {change : State → State} (h : Match S (fun a b => R a (change b)) o o') :
    Match S R o (o'.always change) := by
  cases h with
  | finished h => exact .finished h
  | failed hf h => exact .failed hf h
  | unfinished => exact .unfinished

/-- Only the first run does. -/
theorem always_left {change : State → State} (h : Match S (fun a b => R (change a) b) o o') :
    Match S R (o.always change) o' := by
  cases h with
  | finished h => exact .finished h
  | failed hf h => exact .failed hf h
  | unfinished => exact .unfinished

/-- Two runs in frames of their own, by what holds before the frames are closed. -/
theorem inFrame {name name' : String} {body body' : State → Outcome} {a b : State}
    (h : Match S (fun a b => R a.pop b.pop) (body (a.push name)) (body' (b.push name'))) :
    Match S R (inFrame name body a) (inFrame name' body' b) := h.always

/-- Two loops whose tests and bodies keep to a relation. -/
theorem loop {test test' : State → Except Failure Bool} {body body' : State → Outcome} (limit : Nat) {a b : State}
    (htest : ∀ a b, R a b → StepsMatch S Eq (test a) (test' b))
    (hbody : ∀ a b, R a b → Match S R (body a) (body' b)) (h : R a b) :
    Match S R (loop test body limit a) (loop test' body' limit b) := by
  induction limit generalizing a b with
  | zero => exact .unfinished
  | succ limit ih =>
    rw [Outcome.loop, Outcome.loop]
    have ht := htest a b h
    generalize test a = x, test' b = y at ht ⊢
    rcases ht with @⟨holds, _, rfl⟩ | hf
    · cases holds with
      | false => exact .finished h
      | true => exact (hbody a b h).andThen fun _ _ => ih
    · exact .failed hf h

theorem branch {test test' : Expr} {run other run' other' : State → Outcome} {a b : State}
    (htest : StepsMatch S Eq (test.condition .ifStatement a.scope) (test'.condition .ifStatement b.scope))
    (hab : R a b) (hrun : Match S R (run a) (run' b)) (hother : Match S R (other a) (other' b)) :
    Match S R (branch test run other a) (branch test' run' other' b) := by
  unfold Outcome.branch
  generalize test.condition .ifStatement a.scope = x, test'.condition .ifStatement b.scope = y at htest ⊢
  rcases htest with @⟨holds, _, rfl⟩ | hf
  · cases holds with
    | true => exact hrun
    | false => exact hother
  · exact .failed hf hab

end Outcome.Match

end TreeScript
