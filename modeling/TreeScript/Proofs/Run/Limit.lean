/-
What the limit of a run is for. A run that ends within some limit ends in the same way within any larger one. So a
limit only says how long a run is followed, and all limits within which it ends tell of the same end.
-/
import TreeScript.Proofs.Run.Rule

namespace TreeScript

/-- A run that may go on where another one is cut off, and is the same run wherever that one ends. -/
def Prolongs (longer run : State → Outcome) : Prop := ∀ st, run st ≠ .unfinished → longer st = run st

namespace Prolongs

variable {run longer next longerNext : State → Outcome} {limit limit' : Nat}

theorem refl (run : State → Outcome) : Prolongs run run := fun _ _ => rfl

theorem andThen (h : Prolongs longer run) (hnext : Prolongs longerNext next) :
    Prolongs (fun st => (longer st).andThen longerNext) fun st => (run st).andThen next := by
  intro st hend
  dsimp only at hend ⊢
  -- Where the first of the two is cut off, so are both together.
  have hrun : run st ≠ .unfinished := by
    intro hcut
    rw [hcut] at hend
    exact hend rfl
  rw [h st hrun]
  cases ho : run st with
  | finished between =>
    rw [ho] at hend
    exact hnext between hend
  | failed f between => rfl
  | unfinished => exact absurd ho hrun

theorem inFrame (name : String) (h : Prolongs longer run) :
    Prolongs (Outcome.inFrame name longer) (Outcome.inFrame name run) := by
  intro st hend
  unfold Outcome.inFrame at hend ⊢
  rw [h (st.push name)]
  intro hcut
  rw [hcut] at hend
  exact hend rfl

/-- A loop may also be followed for more passes. -/
theorem loop (test : State → Except Failure Bool) (hle : limit ≤ limit') (h : Prolongs longer run) :
    Prolongs (Outcome.loop test longer limit') (Outcome.loop test run limit) := by
  induction limit generalizing limit' with
  | zero =>
    intro st hend
    exact absurd rfl hend
  | succ limit ih =>
    cases limit' with
    | zero => cases hle
    | succ limit' =>
      -- One pass is taken off both limits.
      have hpasses := h.andThen (ih (Nat.le_of_succ_le_succ hle))
      intro st hend
      rw [Outcome.loop] at hend
      rw [Outcome.loop, Outcome.loop]
      cases ht : test st with
      | error f => rfl
      | ok holds =>
        rw [ht] at hend
        cases holds with
        | false => rfl
        | true => exact hpasses st hend

end Prolongs

/-! ## Statements -/

section

variable {limit limit' : Nat}

theorem Prolongs.branch {run longer other longerOther : State → Outcome} (test : Expr) (h : Prolongs longer run)
    (hother : Prolongs longerOther other) :
    Prolongs (Outcome.branch test longer longerOther) (Outcome.branch test run other) := by
  intro st hend
  unfold Outcome.branch at hend ⊢
  cases ht : test.condition .ifStatement st.scope with
  | error f => rfl
  | ok holds =>
    rw [ht] at hend
    cases holds with
    | true => exact h st hend
    | false => exact hother st hend

/-- Within a larger limit every way to put runs together gives the longer run of the longer ones. -/
theorem prolongs_rule (hle : limit ≤ limit') :
    StatementRule (fun _ => True) limit limit' fun run longer => Prolongs longer run where
  simple {s} _ hsimple := by
    cases s with
    | block | forLoop | whileLoop | ifElse => cases hsimple
    | _ =>
      intro st _
      rfl
  finished := .refl _
  andThen h hnext := h.andThen hnext
  visit _ h st := h (st.visit _)
  inFrame name h := h.inFrame name
  loop _ _ h := h.loop _ hle
  branch _ _ h hother := h.branch _ hother

/-- All limits within which statements come to an end tell of the same end. -/
theorem execAll_limit_unique {statements : List Stmt} {st : State} (h : execAll limit statements st ≠ .unfinished)
    (h' : execAll limit' statements st ≠ .unfinished) : execAll limit statements st = execAll limit' statements st := by
  have hrule {a b : Nat} (hle : a ≤ b) : Prolongs (execAll b statements) (execAll a statements) :=
    (prolongs_rule hle).execAll fun s _ => (prolongs_rule hle).exec fun _ _ => trivial
  rcases Nat.le_total limit limit' with hle | hle
  · exact (hrule hle st h).symm
  · exact hrule hle st h'

end

end TreeScript
