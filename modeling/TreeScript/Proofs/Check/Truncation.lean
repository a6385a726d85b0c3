/-
What the limit on errors is for. It cuts a check short and does nothing else: a checker with a limit finds the first
errors of the ones that there are, as many as its limit says, and of the warnings some. It walks along with a checker
that has no limit. As long as it is not full, the two are in the same state. From then on it reports no error and leaves
out statements, and its frames may be other ones, but all that it still reports are warnings that the other one reports
as well. `Trails` says so of two states, and every part of a walk keeps it.
-/
import TreeScript.Proofs.Check.Walk

namespace TreeScript

/-- The errors that have been collected, in their order. -/
def Collector.errors (c : Collector) : List Diagnostic := c.diagnostics.toList.filter (·.isError)

theorem Collector.Counted.length_errors {c : Collector} (h : c.Counted) : c.errors.length = c.errorCount := by
  rw [h, List.countP_eq_length_filter, errors]

theorem Collector.errors_addAll (c : Collector) (ds : List Diagnostic) :
    (c.addAll ds).errors = c.errors ++ ds.filter (·.isError) := by
  rw [errors, diagnostics_addAll, List.filter_append, errors]

namespace Check

/-- The same state with another limit on errors. -/
def State.limited (limit : Int) (st : State) : State :=
  { st with collector := { st.collector with maxErrors := limit } }

theorem State.target_eq (st : State) (name : String) (span : Span) :
    st.target name span = (st.resolve? name).elim (st.report (.fault (.undefinedVariable name)) span) fun isMutable =>
      if isMutable then st else st.report (.fault (.immutableAssignment name)) span := by
  unfold target
  cases st.resolve? name with
  | none => rfl
  | some isMutable => cases isMutable <;> rfl

/-- A check and one with a higher limit on errors, both at the same place in a program. -/
structure Trails (a b : State) : Prop where
  counted : a.collector.Counted
  within : a.collector.errorCount ≤ a.collector.maxErrors.toNat
  errors : a.collector.errors <+: b.collector.errors
  diagnostics : a.collector.diagnostics.toList.Sublist b.collector.diagnostics.toList
  level : a.isFull = false → a = b.limited a.collector.maxErrors

/-! ## Steps of a walk -/

/-- A step that reports an error at most, and which one does not depend on the limit. -/
structure Probe (f : State → State) : Prop where
  found (st : State) : st.collector.Extends 1 (f st).collector
  full {st : State} : st.isFull = true → (f st).collector = st.collector
  level {st : State} {limit : Int} : st.isFull = false → (st.limited limit).isFull = false →
    f (st.limited limit) = (f st).limited limit

namespace Probe

/-- A step that goes by what is in the frames. -/
theorem choose {α : Type} (look : State → α) (f : α → State → State)
    (hlook : ∀ st limit, look (st.limited limit) = look st) (hf : ∀ x, Probe (f x)) :
    Probe fun st => f (look st) st where
  found st := (hf (look st)).found st
  full {st} := (hf (look st)).full
  level {st limit} hst hlimited := by
    rw [hlook]
    exact (hf (look st)).level hst hlimited

/-- A step in which nothing is reported. -/
theorem frames {f : State → State} (hf : ∀ st, (f st).collector = st.collector)
    (hlimited : ∀ st limit, f (st.limited limit) = (f st).limited limit) : Probe f where
  found st := by
    rw [hf]
    exact .refl _
  full _ := hf _
  level _ _ := hlimited _ _

theorem keep : Probe fun st => st := .frames (fun _ => rfl) fun _ _ => rfl

theorem report {f : Finding} (hf : f.isError = true) (span : Span) : Probe fun st => st.report f span where
  found st := (st.walks_report f span).found
  full {st} hst := by rw [State.report, hf, hst, Bool.and_self, if_pos rfl]
  level {st limit} hst hlimited := by
    simp only [State.report, hf, hst, hlimited, Bool.true_and, Bool.false_eq_true, if_false]
    rfl

theorem push : Probe State.push := .frames (fun _ => rfl) fun _ _ => rfl

theorem pop : Probe State.pop := by
  refine .frames State.collector_pop ?_
  rintro ⟨current, outer, collector⟩ limit
  cases outer <;> rfl

theorem declare (name : String) (isMutable : Bool) (span : Span) : Probe fun st => st.declare name isMutable span := by
  refine choose (fun st => (st.current.lookup name).isSome)
    (fun seen st => if seen then st.report (.fault (.redeclaration name)) span
      else { st with current := (name, isMutable) :: st.current }) (fun _ _ => rfl) ?_
  rintro (_ | _)
  · exact .frames (fun _ => rfl) fun _ _ => rfl
  · exact .report rfl span

theorem identifier (span : Span) (name : String) : Probe fun st => expr st (.identifier span name) := by
  refine choose (fun st => (st.resolve? name).isSome)
    (fun found st => if found then st else st.report (.fault (.undefinedVariable name)) span) (fun _ _ => rfl) ?_
  rintro (_ | _)
  · exact .report rfl span
  · exact keep

theorem target (name : String) (span : Span) : Probe fun st => st.target name span := by
  simp only [State.target_eq]
  refine choose (State.resolve? · name)
    (fun found st => found.elim (st.report (.fault (.undefinedVariable name)) span) fun isMutable =>
      if isMutable then st else st.report (.fault (.immutableAssignment name)) span) (fun _ _ => rfl) ?_
  rintro (_ | _ | _)
  · exact .report rfl span
  · exact .report rfl span
  · exact keep

theorem literal (l : Literal) (span : Span) : Probe fun st => st.literal l span := by
  unfold State.literal
  split
  · split
    · exact keep
    · exact .report rfl span
  · split
    · exact keep
    · exact .report rfl span
  · exact keep

theorem callee (receiver : Expr) (method : String) (span : Span) : Probe fun st => st.callee receiver method span := by
  refine choose (State.isKnownMethod · receiver method)
    (fun known st => if known then st else st.report (.unknownFunction (calleeName receiver method)) span) ?_ ?_
  · intro st limit
    cases receiver <;> rfl
  · rintro (_ | _)
    · exact .report rfl span
    · exact keep

end Probe

/-! ## Walks side by side -/

namespace Trails

variable {a b a' b' : State} {n : Nat}

/-- A check that is full may fall behind. -/
theorem behind (h : Trails a b) (hfull : a.isFull = true) (hkeep : a'.collector = a.collector)
    (hfound : b.collector.Extends n b'.collector) : Trails a' b' := by
  obtain ⟨ds, -, hds⟩ := hfound
  constructor
  · rw [hkeep]
    exact h.counted
  · rw [hkeep]
    exact h.within
  · rw [hkeep, hds, Collector.errors_addAll]
    exact h.errors.trans (List.prefix_append _ _)
  · rw [hkeep, hds, Collector.diagnostics_addAll]
    exact h.diagnostics.trans (List.sublist_append_left _ _)
  · rw [State.isFull, hkeep]
    intro hend
    rw [State.isFull, hend] at hfull
    cases hfull

theorem probe {f : State → State} (h : Trails a b) (hf : Probe f) (hb : b.isFull = false) : Trails (f a) (f b) := by
  cases ha : a.isFull with
  | true => exact h.behind ha (hf.full ha) (hf.found b)
  | false =>
    have hlevel := h.level ha
    have hfound := hf.found a
    have hstep : f a = (f b).limited a.collector.maxErrors := by
      rw [hlevel] at ha ⊢
      exact hf.level hb ha
    refine ⟨hfound.counted h.counted, ?_, ?_, ?_, ?_⟩
    · have hle := hfound.errorCount_le_add
      have hroom := Collector.isFull_eq_false_iff.mp ha
      rw [hfound.maxErrors_eq]
      omega
    · rw [hstep]
      exact List.prefix_rfl
    · rw [hstep]
      exact List.Sublist.refl _
    · intro _
      rw [hfound.maxErrors_eq]
      exact hstep

/-- A warning is reported by both. -/
theorem endlessLoop (h : Trails a b) (span : Span) :
    Trails (a.report .endlessLoop span) (b.report .endlessLoop span) := by
  let warning := Finding.endlessLoop.diagnostic span
  have hreport (st : State) : (st.report .endlessLoop span).collector = st.collector.addAll [warning] := rfl
  constructor
  · exact (a.walks_report .endlessLoop span).found.counted h.counted
  · exact h.within
  · rw [hreport, hreport, Collector.errors_addAll, Collector.errors_addAll]
    simpa [warning, Finding.diagnostic, Finding.isError] using h.errors
  · rw [hreport, hreport, Collector.diagnostics_addAll, Collector.diagnostics_addAll]
    exact h.diagnostics.append_right [warning]
  · intro hroom
    exact congrArg (State.report · .endlessLoop span) (h.level hroom)

end Trails

/-- A walk over some part of a program that a check with a limit makes along with one without. -/
structure KeepsTrail (f : State → State) : Prop where
  found : ∃ n, ∀ st : State, st.collector.Extends n (f st).collector
  trails {a b : State} : Trails a b → (f b).isFull = false → Trails (f a) (f b)

namespace KeepsTrail

variable {f g : State → State}

/-- What is not full in the end was not full to begin with. -/
theorem started (hf : KeepsTrail f) {st : State} (hend : (f st).isFull = false) : st.isFull = false := by
  obtain ⟨n, hn⟩ := hf.found
  exact (hn st).isFull_eq_false hend

theorem of_probe (hf : Probe f) : KeepsTrail f where
  found := ⟨1, hf.found⟩
  trails h hend := h.probe hf ((hf.found _).isFull_eq_false hend)

theorem keep : KeepsTrail fun st => st := .of_probe .keep

/-- One walk after another. -/
theorem next (hf : KeepsTrail f) (hg : KeepsTrail g) : KeepsTrail fun st => g (f st) where
  found := by
    obtain ⟨m, hm⟩ := hf.found
    obtain ⟨n, hn⟩ := hg.found
    exact ⟨m + n, fun st => (hm st).trans (hn (f st))⟩
  trails h hend := hg.trails (hf.trails h (hg.started hend)) hend

theorem inFrame (hf : KeepsTrail f) : KeepsTrail fun st => (f st.push).pop :=
  ((of_probe .push).next hf).next (of_probe .pop)

end KeepsTrail

/-! ### Expressions -/

theorem keepsTrail_exprs {args : List Expr} (h : ∀ e ∈ args, KeepsTrail (expr · e)) : KeepsTrail (exprs · args) := by
  induction args with
  | nil => exact .keep
  | cons e rest ih =>
    obtain ⟨he, hrest⟩ := List.forall_mem_cons.mp h
    exact he.next (ih hrest)

theorem keepsTrail_expr (e : Expr) : KeepsTrail (expr · e) := by
  induction e using Expr.induction with
  | literal span l => exact .of_probe (.literal l span)
  | identifier span name => exact .of_probe (.identifier span name)
  | binary span left op right ihLeft ihRight => exact ihLeft.next ihRight
  | unary span op operand ih => exact ih
  | call span receiver method args _ ih =>
    have hcall := (KeepsTrail.of_probe (.callee receiver method span)).next (keepsTrail_exprs ih)
    exact (KeepsTrail.of_probe (.report rfl span)).next hcall
  | stray s => exact .keep

theorem keepsTrail_effect (e : Expr) : KeepsTrail (effect · e) := by
  cases e with
  | call span receiver method args =>
    exact (KeepsTrail.of_probe (.callee receiver method span)).next (keepsTrail_exprs fun e _ => keepsTrail_expr e)
  | _ => exact keepsTrail_expr _

theorem keepsTrail_optionalExpr (e? : Option Expr) : KeepsTrail (optionalExpr · e?) := by
  cases e? with
  | none => exact .keep
  | some e => exact keepsTrail_expr e

theorem keepsTrail_loopTest (span : Span) (e? : Option Expr) : KeepsTrail (loopTest · span e?) := by
  cases e? with
  | none => exact ⟨⟨1, fun st => (st.walks_report _ _).found⟩, fun h _ => h.endlessLoop span⟩
  | some e => exact keepsTrail_expr e

/-! ### Statements -/

theorem stmts_of_full {st : State} (h : st.isFull = true) (statements : List Stmt) : stmts st statements = st := by
  cases statements with
  | nil => rfl
  | cons s rest => rw [stmts, if_pos h]

theorem stmts_of_not_full {st : State} (h : st.isFull = false) (s : Stmt) (rest : List Stmt) :
    stmts st (s :: rest) = stmts (stmt st s) rest := by
  rw [stmts, if_neg (Bool.eq_false_iff.mp h)]

/-- A check that is full leaves out the rest of the statements. -/
theorem keepsTrail_stmts {statements : List Stmt} (h : ∀ s ∈ statements, KeepsTrail (stmt · s)) :
    KeepsTrail (stmts · statements) := by
  induction statements with
  | nil => exact .keep
  | cons s rest ih =>
    obtain ⟨hs, hrest⟩ := List.forall_mem_cons.mp h
    have hnext := hs.next (ih hrest)
    obtain ⟨n, hn⟩ := hnext.found
    have hfound (st : State) : st.collector.Extends n (stmts st (s :: rest)).collector := by
      cases hst : st.isFull with
      | true =>
        rw [stmts_of_full hst]
        exact .refl _
      | false =>
        rw [stmts_of_not_full hst]
        exact hn st
    refine ⟨⟨n, hfound⟩, ?_⟩
    intro a b hab hend
    have hb : b.isFull = false := (hfound b).isFull_eq_false hend
    cases ha : a.isFull with
    | true => exact hab.behind ha (congrArg State.collector (stmts_of_full ha _)) (hfound b)
    | false =>
      rw [stmts_of_not_full hb] at hend
      rw [stmts_of_not_full ha, stmts_of_not_full hb]
      exact hnext.trails hab hend

theorem keepsTrail_block {body : Block} (h : ∀ s ∈ body.statements, KeepsTrail (stmt · s)) :
    KeepsTrail (block · body) := by
  cases body with
  | mk span statements => exact (keepsTrail_stmts h).inFrame

theorem keepsTrail_optionalStmt {s? : Option Stmt} (h : ∀ s ∈ s?, KeepsTrail (stmt · s)) :
    KeepsTrail (optionalStmt · s?) := by
  cases s? with
  | none => exact .keep
  | some s => exact h s rfl

theorem keepsTrail_stmt (s : Stmt) : KeepsTrail (stmt · s) := by
  induction s using Stmt.induction with
  | declare span name isMutable init =>
    exact (keepsTrail_optionalExpr init).next (.of_probe (.declare name isMutable span))
  | assign span target value op => exact (keepsTrail_expr value).next (.of_probe (.target target.name span))
  | update span target op => exact .of_probe (.target target.name span)
  | output span level argument => exact keepsTrail_expr argument
  | expression span e => exact keepsTrail_effect e
  | block body ih => exact keepsTrail_block ih
  | forLoop span init test update body ihInit ihUpdate ihBody =>
    have hhead := (keepsTrail_optionalStmt ihInit).next (keepsTrail_loopTest span test)
    exact (hhead.next ((keepsTrail_block ihBody).next (keepsTrail_optionalStmt ihUpdate))).inFrame
  | whileLoop span test body ih => exact (keepsTrail_expr test).next (keepsTrail_block ih)
  | ifElse span test thenBranch elseBranch ihThen ihElse _ =>
    exact (keepsTrail_expr test).next ((keepsTrail_block ihThen).next (keepsTrail_optionalStmt ihElse))
  | stray e => exact .keep

/-- Programs that are checked one after another. -/
theorem keepsTrail_programs (programs : List Program) : KeepsTrail (programs.foldl program ·) := by
  induction programs with
  | nil => exact .keep
  | cons p rest ih => exact (keepsTrail_stmts fun s _ => keepsTrail_stmt s).next ih

/-- A check of programs leaves the frames around the current one. -/
theorem outer_programs (programs : List Program) (st : State) : (programs.foldl program st).outer = st.outer := by
  induction programs generalizing st with
  | nil => rfl
  | cons p rest ih =>
    obtain ⟨n, hn⟩ := walks_stmts fun s (_ : s ∈ p.statements) => walks_stmt s
    obtain ⟨d, hd⟩ := hn st
    exact (ih (program st p)).trans hd.outer

/-! ## The limit -/

theorem trails_fresh (limit limit' : Int) : Trails (.fresh limit) (.fresh limit') where
  counted := Collector.counted_empty limit
  within := Nat.zero_le _
  errors := List.prefix_rfl
  diagnostics := List.Sublist.refl _
  level _ := rfl

/-- The errors of a check with a limit are the first ones of all, as many as the limit says. -/
theorem Trails.errors_eq_take {a b : State} (h : Trails a b) :
    a.collector.errors = b.collector.errors.take a.collector.maxErrors.toNat := by
  have hcount := h.counted.length_errors
  have hwithin := h.within
  cases ha : a.isFull with
  | false =>
    -- Nothing was left out, and there is room for one more.
    have hsame : a.collector.errors = b.collector.errors := by
      rw [h.level ha]
      rfl
    rw [← hsame, List.take_of_length_le (by omega)]
  | true =>
    have hfull : a.collector.maxErrors ≤ a.collector.errorCount := by simpa [State.isFull, Collector.isFull] using ha
    have hlength : a.collector.errors.length = a.collector.maxErrors.toNat := by omega
    rw [← hlength]
    exact List.prefix_iff_eq_take.mp h.errors

/-- The state of a checker with a limit on errors after some programs, one after another. -/
def after (limit : Int) (programs : List Program) : State := programs.foldl program (.fresh limit)

/-- Whatever programs a checker gets one after another, there is a list of all that it finds if the limit on errors is
high enough. With any limit it finds the first errors of these, as many as the limit says, in their order, and of the
warnings some; it counts its errors right, and it is back in the one global frame. -/
theorem limit_truncates (programs : List Program) :
    ∃ all : List Diagnostic,
      (∀ limit : Int, (all.filter (·.isError)).length < limit →
        (after limit programs).collector.diagnostics.toList = all) ∧
      ∀ limit : Int,
        (after limit programs).collector.errors = (all.filter (·.isError)).take limit.toNat ∧
        (after limit programs).collector.diagnostics.toList.Sublist all ∧
        (after limit programs).collector.errorCount = (after limit programs).collector.errors.length ∧
        ((after limit programs).collector.hasErrors = true ↔ (after limit programs).collector.errors ≠ []) ∧
        (after limit programs).outer = [] := by
  have hkeeps := keepsTrail_programs programs
  obtain ⟨n, hn⟩ := hkeeps.found
  have hmax (limit : Int) : (after limit programs).collector.maxErrors = limit := (hn (.fresh limit)).maxErrors_eq
  have hend : (after (n + 1) programs).isFull = false := by
    have hle : (after (n + 1) programs).collector.errorCount ≤ 0 + n := (hn (.fresh (n + 1))).errorCount_le_add
    rw [State.isFull, Collector.isFull_eq_false_iff, hmax]
    omega
  have htrails (limit : Int) : Trails (after limit programs) (after (n + 1) programs) :=
    hkeeps.trails (trails_fresh limit (n + 1)) hend
  have hcount (limit : Int) : (after limit programs).collector.errorCount =
      (after limit programs).collector.errors.length := (htrails limit).counted.length_errors.symm
  refine ⟨(after (n + 1) programs).collector.diagnostics.toList, ?high, ?any⟩
  case high =>
    intro limit hlimit
    have hle := (htrails limit).errors.length_le
    have hroom : (after limit programs).isFull = false := by
      rw [State.isFull, Collector.isFull_eq_false_iff, hmax, hcount]
      exact lt_of_le_of_lt (Int.ofNat_le.mpr hle) hlimit
    rw [(htrails limit).level hroom]
    rfl
  case any =>
    intro limit
    have herrors := (htrails limit).errors_eq_take
    rw [hmax] at herrors
    refine ⟨herrors, (htrails limit).diagnostics, hcount limit, ?_, outer_programs programs (.fresh limit)⟩
    rw [Collector.hasErrors, hcount, decide_eq_true_eq, List.length_pos_iff]

end Check

end TreeScript
