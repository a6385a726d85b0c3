/-
The kinds of values. Whatever programs run in one scope, finished or not, all values that they bind are well formed,
and so is what an expression gives in any scope that they reach; an operator gives values of one kind. An operator or a
condition ends in a complaint about the kinds of its operands exactly if they are not those that it takes.
-/
import TreeScript.Proofs.Run.Reached
import TreeScript.Proofs.Run.Values

namespace TreeScript

/-! ## Well-formed results -/

theorem Yields.placed {α : Type} {P : α → Prop} {x : Except Cause α} {span : Span} (h : Yields P x) :
    Yields P (placed span x) := by
  intro a ha
  exact h a (placed_eq_ok ha)

/-- The kind of what an operator gives. -/
def Token.givenKind (op : Token) : Value.Kind := if op.isArithmetic then .integer else .boolean

namespace Value

/-- A well-formed value of a kind. -/
def IsA (kind : Kind) (v : Value) : Prop := v.WellFormed ∧ v.kind = kind

variable {op : Token} {left right v : Value} {span : Span}

theorem isA_integer {x : Except Integer.Fault Integer} (hx : ∀ a, x = .ok a → a.Canonical) :
    Yields (IsA .integer) ((x.mapError Cause.ofInteger).map integer) := by
  intro v hv
  refine ⟨wellFormed_of_integer hx hv, ?_⟩
  cases hxx : x with
  | ok a =>
    rw [hxx] at hv
    cases hv
    rfl
  | error fault =>
    rw [hxx] at hv
    cases hv

theorem isA_boolean {α : Type} (x : Except Cause α) (f : α → Bool) :
    Yields (IsA .boolean) (x.map fun a => boolean (f a)) :=
  (Yields.trivial x).map fun _ _ => ⟨True.intro, rfl⟩

theorem arithmetic_yields (hl : left.WellFormed) (hr : right.WellFormed) :
    Yields (IsA .integer) (arithmetic op left right) := by
  intro v hv
  refine ⟨arithmetic_eq_ok hl hr hv, ?_⟩
  unfold arithmetic at hv
  split at hv
  · cases hv
  · rename_i a b hab
    obtain ⟨rfl, rfl⟩ := requireIntegers_eq_ok hab
    split at hv
    · cases hv
      rfl
    · cases hv
      rfl
    · cases hv
      rfl
    · exact (isA_integer (fun _ => Integer.canonical_of_divide hl hr) v hv).2
    · exact (isA_integer (fun _ => Integer.canonical_of_remainder hl hr) v hv).2

theorem binary_yields (hl : left.WellFormed) (hr : right.WellFormed) :
    Yields (IsA op.givenKind) (binary span op left right) := by
  unfold binary Token.givenKind
  split
  · exact (arithmetic_yields hl hr).placed
  · split
    · exact (isA_boolean _ _).placed
    · exact (isA_boolean _ _).placed
    · exact (isA_boolean _ _).placed
    · exact (isA_boolean _ _).placed
    · exact (isA_boolean _ _).placed
    · exact (isA_boolean _ _).placed
    · exact .error

theorem unary_yields (hv : v.WellFormed) : Yields (IsA op.givenKind) (unary span op v) := by
  unfold unary
  split
  · split
    · exact .ok ⟨(Integer.negate_represents hv).canonical, rfl⟩
    · exact .error
  · exact (isA_boolean _ _).placed
  · exact .error

end Value

theorem Integer.ofDatum_yields (d : Datum) : Yields Canonical (ofDatum d) := by
  unfold ofDatum
  split
  · exact fun _ => canonical_of_parse
  · exact .error

/-- Literals of any tree are well formed if they have a value. -/
theorem Literal.eval_yields (l : Literal) (span : Span) : Yields Value.WellFormed (l.eval span) := by
  have hinteger {x : Except Integer.Fault Integer} (hx : Yields Integer.Canonical x) :
      Yields Value.WellFormed (placed span ((x.mapError Cause.ofInteger).map .integer)) :=
    Yields.placed fun _ => Value.wellFormed_of_integer hx
  unfold eval
  split
  · exact hinteger fun _ => Integer.canonical_of_parse
  · exact .ok True.intro
  · exact .ok True.intro
  · exact hinteger (Integer.ofDatum_yields _)
  · exact .ok True.intro
  · exact .ok True.intro
  · exact .error

/-- An expression that applies an operator to values, as an operator of its form. -/
inductive Expr.Applies : Expr → Token → Prop
  | binary {span : Span} {left right : Expr} {op : Token} (h : op.isBinary = true) :
    Applies (.binary span left op right) op
  | unary {span : Span} {operand : Expr} {op : Token} (h : op.isUnary = true) : Applies (.unary span op operand) op

/-- What an expression gives is well formed, and of the kind that its operator gives if it has one. -/
theorem Expr.eval_yields {scope : Scope} (hscope : scope.WellFormed) (e : Expr) :
    Yields (fun v => v.WellFormed ∧ ∀ op, e.Applies op → v.kind = op.givenKind) (e.eval scope) := by
  induction e using Expr.induction with
  | literal span l =>
    intro v hv
    refine ⟨l.eval_yields span v hv, ?_⟩
    rintro op ⟨⟩
  | identifier span name =>
    intro v hv
    refine ⟨hscope.lookup (placed_eq_ok hv), ?_⟩
    rintro op ⟨⟩
  | binary span left op right ihLeft ihRight =>
    -- Either way the operator gives a value of its kind.
    suffices hvalue : Yields (Value.IsA op.givenKind) (eval scope (.binary span left op right)) by
      intro v hv
      obtain ⟨hwell, hkind⟩ := hvalue v hv
      refine ⟨hwell, ?_⟩
      rintro op' ⟨⟩
      exact hkind
    rw [eval]
    split
    · exact .error
    · rename_i a ha
      split
      · rename_i hlogical
        have hgiven : op.givenKind = .boolean := by
          cases op <;> first | rfl | cases hlogical
        rw [hgiven]
        split
        · exact .error
        · split
          · exact .ok ⟨True.intro, rfl⟩
          · split
            · exact .error
            · exact (Value.isA_boolean _ _).placed
      · split
        · exact .error
        · rename_i c hc
          exact Value.binary_yields (ihLeft a ha).1 (ihRight c hc).1
  | unary span op operand ih =>
    suffices hvalue : Yields (Value.IsA op.givenKind) (eval scope (.unary span op operand)) by
      intro v hv
      obtain ⟨hwell, hkind⟩ := hvalue v hv
      refine ⟨hwell, ?_⟩
      rintro op' ⟨⟩
      exact hkind
    rw [eval]
    split
    · exact .error
    · rename_i v hv
      exact Value.unary_yields (ih v hv).1
  | call span receiver method args _ _ =>
    rw [eval]
    exact .error
  | stray s =>
    rw [eval]
    exact .error

/-! ## Well-formed scopes -/

namespace Scope.WellFormed

variable {scope : Scope} (hscope : scope.WellFormed)

include hscope

theorem assign_yields {name : String} {value : Value} {span : Span} (hv : value.WellFormed) :
    Yields WellFormed (placed span (scope.assign name value)) :=
  Yields.placed fun _ => hscope.assign hv

theorem execAssign_yields (span : Span) (target : Target) (value : Expr) (op : Token) :
    Yields WellFormed (scope.execAssign span target value op) := by
  unfold execAssign
  split
  · split
    · exact .error
    · rename_i v hv
      exact hscope.assign_yields (Expr.eval_yields hscope value v hv).1
  · split
    · exact .error
    · split
      · exact .error
      · rename_i current hcurrent
        have hread := hscope.currentForUpdate (placed_eq_ok hcurrent)
        split
        · exact .error
        · rename_i operand hoperand
          have hright := (Expr.eval_yields hscope value operand hoperand).1
          split
          · exact .error
          · rename_i v hv
            exact hscope.assign_yields (Value.arithmetic_eq_ok hread hright (placed_eq_ok hv))

theorem execUpdate_yields (span : Span) (target : Target) (op : Token) :
    Yields WellFormed (scope.execUpdate span target op) := by
  have hone : Integer.one.Canonical := by decide
  unfold execUpdate
  split
  · exact .error
  · rename_i n hn
    have hread : n.Canonical := hscope.currentForUpdate (placed_eq_ok hn)
    split
    · exact hscope.assign_yields (Integer.add_represents hread hone).canonical
    · exact hscope.assign_yields (Integer.subtract_represents hread hone).canonical
    · exact .error
  · exact .error

end Scope.WellFormed

/-- All values that a scope binds stay well formed, whatever runs in it. -/
theorem Scope.wellFormed_invariant : Scope.Invariant Scope.WellFormed where
  push name h := h.push name
  pop h := h.pop
  declare span name isMutable init h := by
    intro scope' hok
    obtain ⟨e, v, -, hv, hdeclare⟩ := execDeclare_eq_ok hok
    exact h.declare (Expr.eval_yields h e v hv).1 hdeclare
  assign span target value op h := h.execAssign_yields span target value op
  update span target op h := h.execUpdate_yields span target op

/-! ## Complaints about kinds -/

/-- Ends in the error that values are not of the kinds that are needed. -/
def Mismatches {α : Type} (x : Except Cause α) : Prop := ∃ m, x = .error (.typeMismatch m)

/-- Fails at a place with the error that values are not of the kinds that are needed. -/
def FailsOnKinds {α : Type} (span : Span) (x : Except Failure α) : Prop := ∃ m, x = (Cause.typeMismatch m).fail span

section

variable {α β : Type} {span : Span}

theorem failsOnKinds_fail (cause : Cause) :
    FailsOnKinds span (cause.fail span : Except Failure α) ↔ ∃ m, cause = .typeMismatch m := by
  simp [FailsOnKinds, Cause.fail, Cause.at]

theorem not_failsOnKinds_ok {a : α} : ¬ FailsOnKinds span (.ok a : Except Failure α) := by
  rintro ⟨m, hm⟩
  cases hm

theorem failsOnKinds_placed {x : Except Cause α} : FailsOnKinds span (placed span x) ↔ Mismatches x := by
  cases x with
  | ok a => exact iff_of_false not_failsOnKinds_ok (by simp [Mismatches])
  | error cause =>
    rw [placed, failsOnKinds_fail]
    simp [Mismatches]

theorem not_failsOnKinds_defect {d : Defect} : ¬ FailsOnKinds span (.error (.defect d) : Except Failure α) := by
  rintro ⟨m, hm⟩
  cases hm

theorem mismatches_map {x : Except Cause α} {f : α → β} : Mismatches (x.map f) ↔ Mismatches x := by
  unfold Mismatches
  apply exists_congr
  intro m
  cases x with
  | ok a => simp [Except.map]
  | error cause => simp [Except.map]

end

namespace Value

variable {op : Token} {left right v : Value} {span : Span}

theorem mismatches_requireIntegers (op : Token) :
    Mismatches (requireIntegers op left right) ↔ ¬ (left.kind = .integer ∧ right.kind = .integer) := by
  cases left <;> cases right <;> simp [Mismatches, requireIntegers, kind]

theorem mismatches_requireBoolean : Mismatches (requireBoolean op v) ↔ v.kind ≠ .boolean := by
  cases v <;> simp [Mismatches, requireBoolean, kind]

theorem mismatches_equal : Mismatches (equal op left right) ↔ left.kind ≠ right.kind := by
  unfold Mismatches equal
  by_cases h : left.kind = right.kind
  · simp [h]
  · simp [h]

/-- The only other complaint about integers is a division by zero. -/
theorem not_mismatches_fault {x : Except Integer.Fault Integer}
    (hx : ∀ fault, x = .error fault → fault = .divisionByZero) :
    ¬ Mismatches ((x.mapError Cause.ofInteger).map integer) := by
  rintro ⟨m, hm⟩
  cases Integer.eq_of_fault hx hm

theorem mismatches_arithmetic (op : Token) :
    Mismatches (arithmetic op left right) ↔ ¬ (left.kind = .integer ∧ right.kind = .integer) := by
  rw [← mismatches_requireIntegers op]
  unfold arithmetic
  cases hr : requireIntegers op left right with
  | error cause => simp [Mismatches]
  | ok pair =>
    obtain ⟨a, b⟩ := pair
    have hfine : ¬ Mismatches (.ok (a, b) : Except Cause (Integer × Integer)) := by
      rintro ⟨m, hm⟩
      cases hm
    refine iff_of_false ?_ hfine
    dsimp only
    split
    · rintro ⟨m, hm⟩
      cases hm
    · rintro ⟨m, hm⟩
      cases hm
    · rintro ⟨m, hm⟩
      cases hm
    · exact not_mismatches_fault fun _ => Integer.divide_eq_error
    · exact not_mismatches_fault fun _ => Integer.remainder_eq_error

theorem mismatches_ordered :
    Mismatches (ordered op left right) ↔ ¬ (left.kind = .integer ∧ right.kind = .integer) := by
  unfold ordered
  rw [mismatches_map, mismatches_requireIntegers]

end Value

/-! ## Operators -/

/-- Whether an operator is for operands of these kinds. -/
def Token.Takes (kinds : List Value.Kind) : Token → Prop
  | and | or | not => ∀ kind ∈ kinds, kind = .boolean
  | eq | ne => kinds.Pairwise (· = ·)
  | _ => ∀ kind ∈ kinds, kind = .integer

theorem Value.failsOnKinds_binary {op : Token} {left right : Value} {span : Span} (hop : op.isBinary = true)
    (hlogical : op.isLogical = false) :
    FailsOnKinds span (binary span op left right) ↔ ¬ op.Takes [left.kind, right.kind] := by
  have hintegers : (∀ kind ∈ [left.kind, right.kind], kind = .integer) ↔
      left.kind = .integer ∧ right.kind = .integer := by
    simp
  have harithmetic (op : Token) : FailsOnKinds span (placed span (arithmetic op left right)) ↔
      ¬ ∀ kind ∈ [left.kind, right.kind], kind = .integer := by
    rw [failsOnKinds_placed, mismatches_arithmetic, hintegers]
  have hordered (op : Token) : FailsOnKinds span (placed span ((ordered op left right).map boolean)) ↔
      ¬ ∀ kind ∈ [left.kind, right.kind], kind = .integer := by
    rw [failsOnKinds_placed, mismatches_map, mismatches_ordered, hintegers]
  have hequal (op : Token) (f : Bool → Bool) :
      FailsOnKinds span (placed span ((equal op left right).map fun b => boolean (f b))) ↔
        ¬ [left.kind, right.kind].Pairwise (· = ·) := by
    rw [failsOnKinds_placed, mismatches_map, mismatches_equal, List.pairwise_pair]
  cases op with
  | plus | minus | star | slash | percent => exact harithmetic _
  | eq => exact hequal .eq id
  | ne => exact hequal .ne not
  | lt | le | gt | ge => exact hordered _
  | and | or => cases hlogical
  | _ => cases hop

theorem Value.failsOnKinds_unary {op : Token} {v : Value} {span : Span} (hop : op.isUnary = true) :
    FailsOnKinds span (unary span op v) ↔ ¬ op.Takes [v.kind] := by
  cases op with
  | minus =>
    cases v with
    | integer n => simp [unary, not_failsOnKinds_ok, Token.Takes, kind]
    | text s => simp [unary, failsOnKinds_fail, Token.Takes, kind]
    | boolean b => simp [unary, failsOnKinds_fail, Token.Takes, kind]
  | not =>
    unfold unary
    rw [failsOnKinds_placed, mismatches_map, mismatches_requireBoolean]
    simp [Token.Takes]
  | _ => cases hop

namespace Expr

/-- The operands that an operator evaluates. A logical one goes on to the right operand only if the left one is a truth
value that does not decide. -/
def operands (scope : Scope) : Expr → List Expr
  | .binary _ left op right =>
    if op.isLogical then
      match left.eval scope with
      | .ok (.boolean b) => if b == (op == .or) then [left] else [left, right]
      | _ => [left]
    else [left, right]
  | .unary _ _ operand => [operand]
  | _ => []

variable {scope : Scope}

theorem evalAll_singleton {e : Expr} {values : List Value} (h : evalAll scope [e] = .ok values) :
    ∃ v, e.eval scope = .ok v ∧ values = [v] := by
  rw [evalAll] at h
  cases hv : e.eval scope with
  | error f =>
    rw [hv] at h
    cases h
  | ok v =>
    rw [hv] at h
    cases h
    exact ⟨v, rfl, rfl⟩

theorem evalAll_pair {e e' : Expr} {values : List Value} (h : evalAll scope [e, e'] = .ok values) :
    ∃ v v', e.eval scope = .ok v ∧ e'.eval scope = .ok v' ∧ values = [v, v'] := by
  rw [evalAll] at h
  cases hv : e.eval scope with
  | error f =>
    rw [hv] at h
    cases h
  | ok v =>
    rw [hv] at h
    cases hrest : evalAll scope [e'] with
    | error f =>
      rw [hrest] at h
      cases h
    | ok rest =>
      rw [hrest] at h
      cases h
      obtain ⟨v', hv', rfl⟩ := evalAll_singleton hrest
      exact ⟨v, v', rfl, hv', rfl⟩

/-- A logical operator asks for a truth value in each operand that it evaluates. -/
theorem failsOnKinds_logical {span : Span} {left right : Expr} {op : Token} {values : List Value}
    (hlogical : op.isLogical = true)
    (h : evalAll scope ((binary span left op right).operands scope) = .ok values) :
    FailsOnKinds span ((binary span left op right).eval scope) ↔ ¬ op.Takes (values.map Value.kind) := by
  have htakes (kinds : List Value.Kind) : op.Takes kinds ↔ ∀ kind ∈ kinds, kind = .boolean := by
    cases op <;> first | rfl | cases hlogical
  rw [htakes]
  rw [operands, if_pos hlogical] at h
  rw [eval]
  cases hleft : left.eval scope with
  | error f =>
    rw [hleft] at h
    obtain ⟨v, hv, -⟩ := evalAll_singleton h
    rw [hleft] at hv
    cases hv
  | ok a =>
    rw [hleft] at h
    dsimp only
    rw [if_pos hlogical]
    cases a with
    | boolean b =>
      have hrequire : placed span (Value.requireBoolean op (.boolean b)) = .ok b := rfl
      rw [hrequire]
      dsimp only at h ⊢
      by_cases hdecides : (b == (op == .or)) = true
      · -- The right operand does not count.
        rw [if_pos hdecides] at h ⊢
        obtain ⟨v, hv, rfl⟩ := evalAll_singleton h
        rw [hleft] at hv
        cases hv
        simp [not_failsOnKinds_ok, Value.kind]
      · rw [if_neg hdecides] at h ⊢
        obtain ⟨v, v', hv, hv', rfl⟩ := evalAll_pair h
        rw [hleft] at hv
        cases hv
        rw [hv']
        dsimp only
        rw [failsOnKinds_placed, mismatches_map, Value.mismatches_requireBoolean]
        simp [Value.kind]
    | integer n =>
      obtain ⟨v, hv, rfl⟩ := evalAll_singleton h
      rw [hleft] at hv
      cases hv
      exact iff_of_true ⟨_, rfl⟩ (by simp [Value.kind])
    | text s =>
      obtain ⟨v, hv, rfl⟩ := evalAll_singleton h
      rw [hleft] at hv
      cases hv
      exact iff_of_true ⟨_, rfl⟩ (by simp [Value.kind])

/-- An operator complains about the kinds of the operands that it evaluates exactly if it is not for them. -/
theorem failsOnKinds_eval {e : Expr} {op : Token} {values : List Value} (he : e.Applies op)
    (h : evalAll scope (e.operands scope) = .ok values) :
    FailsOnKinds e.span (e.eval scope) ↔ ¬ op.Takes (values.map Value.kind) := by
  cases he with
  | @binary span left right op hop =>
    cases hlogical : op.isLogical with
    | true => exact failsOnKinds_logical hlogical h
    | false =>
      rw [operands, if_neg (by simp [hlogical])] at h
      obtain ⟨v, v', hv, hv', rfl⟩ := evalAll_pair h
      rw [eval, hv, hv']
      dsimp only
      rw [if_neg (by simp [hlogical])]
      exact Value.failsOnKinds_binary hop hlogical
  | @unary span operand op hop =>
    obtain ⟨v, hv, rfl⟩ := evalAll_singleton h
    rw [eval, hv]
    exact Value.failsOnKinds_unary hop

theorem failsOnKinds_condition {e : Expr} {statement : Branching} {v : Value} (h : e.eval scope = .ok v) :
    FailsOnKinds e.span (e.condition statement scope) ↔ v.kind ≠ .boolean := by
  unfold condition
  rw [h]
  cases v with
  | boolean b => simp [not_failsOnKinds_ok, Value.kind]
  | integer n => simp [failsOnKinds_fail, Value.kind]
  | text s => simp [failsOnKinds_fail, Value.kind]

end Expr

/-! ## Assignments -/

namespace Scope

variable {scope : Scope} {span : Span} {target : Target} {op operator : Token} {current : Value}

/-- What can be read for an update can be written. -/
theorem not_failsOnKinds_assign (h : scope.currentForUpdate target.name = .ok current) (v : Value) :
    ¬ FailsOnKinds span (placed span (scope.assign target.name v)) := by
  unfold assign
  rw [h]
  exact not_failsOnKinds_ok

/-- A compound assignment complains as its operator does. -/
theorem failsOnKinds_execAssign {value : Expr} {operand : Value} (hop : op.compound? = some operator)
    (hcurrent : scope.currentForUpdate target.name = .ok current) (hoperand : value.eval scope = .ok operand) :
    FailsOnKinds span (scope.execAssign span target value op) ↔ ¬ operator.Takes [current.kind, operand.kind] := by
  have hplain : op ≠ .assign := by
    rintro rfl
    cases hop
  have htakes : operator.Takes [current.kind, operand.kind] ↔ current.kind = .integer ∧ operand.kind = .integer := by
    cases op <;> cases hop <;> simp [Token.Takes]
  rw [htakes, ← Value.mismatches_arithmetic operator]
  unfold execAssign
  rw [if_neg hplain, hop, hcurrent]
  dsimp only [placed]
  rw [hoperand]
  dsimp only
  cases harithmetic : Value.arithmetic operator current operand with
  | error cause =>
    refine (failsOnKinds_fail cause).trans ?_
    simp [Mismatches]
  | ok v =>
    refine iff_of_false (not_failsOnKinds_assign hcurrent v) ?_
    rintro ⟨m, hm⟩
    cases hm

/-- An update complains about whatever is no integer. -/
theorem failsOnKinds_execUpdate (hcurrent : scope.currentForUpdate target.name = .ok current) :
    FailsOnKinds span (scope.execUpdate span target op) ↔ current.kind ≠ .integer := by
  unfold execUpdate
  rw [hcurrent]
  cases current with
  | integer n =>
    refine iff_of_false ?_ (not_not.mpr rfl)
    dsimp only [placed]
    split
    · exact not_failsOnKinds_assign hcurrent _
    · exact not_failsOnKinds_assign hcurrent _
    · exact not_failsOnKinds_defect
  | text s => simp [placed, failsOnKinds_fail, Value.kind]
  | boolean b => simp [placed, failsOnKinds_fail, Value.kind]

end Scope

/-! ## Sessions -/

/-- In every scope that programs reach which run one after another, all bound values are well formed, and so is what any
expression gives, which is of the kind that its operator gives if it has one. Operators, conditions, compound
assignments and updates whose operands have values fail on the kinds of these exactly if they are not for them. -/
theorem values_of_kinds (runs : List (Nat × Program)) :
    ∀ scope ∈ Session.scopes runs .fresh,
      scope.WellFormed ∧
      (∀ (e : Expr) (v : Value), e.eval scope = .ok v → v.WellFormed ∧ ∀ op, e.Applies op → v.kind = op.givenKind) ∧
      (∀ (e : Expr) (op : Token) (values : List Value), e.Applies op →
        Expr.evalAll scope (e.operands scope) = .ok values →
        (FailsOnKinds e.span (e.eval scope) ↔ ¬ op.Takes (values.map Value.kind))) ∧
      (∀ (e : Expr) (statement : Branching) (v : Value), e.eval scope = .ok v →
        (FailsOnKinds e.span (e.condition statement scope) ↔ v.kind ≠ .boolean)) ∧
      ∀ (target : Target) (current : Value), scope.currentForUpdate target.name = .ok current →
        (∀ (span : Span) (op operator : Token) (value : Expr) (operand : Value), op.compound? = some operator →
          value.eval scope = .ok operand →
          (FailsOnKinds span (scope.execAssign span target value op) ↔
            ¬ operator.Takes [current.kind, operand.kind])) ∧
        ∀ (span : Span) (op : Token),
          FailsOnKinds span (scope.execUpdate span target op) ↔ current.kind ≠ .integer := by
  intro scope hscope
  have hwell : scope.WellFormed := Session.forall_scopes Scope.wellFormed_invariant .fresh scope hscope
  refine ⟨hwell, ?_, ?_, ?_, ?_⟩
  · intro e v hv
    exact e.eval_yields hwell v hv
  · intro e op values he h
    exact Expr.failsOnKinds_eval he h
  · intro e statement v h
    exact Expr.failsOnKinds_condition h
  · intro target current hcurrent
    constructor
    · intro span op operator value operand hop hoperand
      exact Scope.failsOnKinds_execAssign hop hcurrent hoperand
    · intro span op
      exact Scope.failsOnKinds_execUpdate hcurrent

/-- A number, and then a program that fails after it has turned the number around. -/
def turningRuns : List (Nat × Program) :=
  [(1, ⟨[.declare .none "n" true (some (.literal .none (.integer "007")))], .null⟩),
    (1, ⟨[.assign .none ⟨.none, "n"⟩ (.unary .none .minus (.identifier .none "n")) .assign,
      .expression .none (.identifier .none "m")], .null⟩)]

/-- The number is there without the zeros in front of it, and it is neither compared with a text nor taken for a truth
value. -/
theorem values_of_kinds_turned_number :
    ∃ scope ∈ Session.scopes turningRuns .fresh,
      scope.lookup "n" = .ok (.integer ⟨-1, [7]⟩) ∧ scope.WellFormed ∧
      FailsOnKinds .none (Expr.eval scope (.binary .none (.identifier .none "n") .eq (.literal .none (.text "7")))) ∧
      FailsOnKinds .none (Expr.condition .whileLoop scope (.identifier .none "n")) := by
  let last : Scope := ⟨⟨"global", [⟨"n", .integer ⟨-1, [7]⟩, true⟩]⟩, []⟩
  have hmem : last ∈ Session.scopes turningRuns .fresh := by decide +kernel
  obtain ⟨hwell, -, hoperator, hcondition, -⟩ := values_of_kinds turningRuns last hmem
  refine ⟨last, hmem, rfl, hwell, ?_, ?_⟩
  · exact (hoperator _ .eq [.integer ⟨-1, [7]⟩, .text "7"] (.binary rfl) rfl).mpr (by simp [Token.Takes, Value.kind])
  · exact (hcondition _ .whileLoop (.integer ⟨-1, [7]⟩) rfl).mpr (by decide)

end TreeScript
