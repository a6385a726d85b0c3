/-
Expressions over integers mean what they say. A formula is an expression made of integer literals, names, the
negative, and the five operators of arithmetic; its value is worked out over the integers themselves, without limbs
and without a scope. The evaluator gives the canonical form of that value, or stops at the same error.
-/
import TreeScript.Proofs.Integer.Decimal
import TreeScript.Proofs.Tree.Nodes

namespace TreeScript

/-! ## Operations -/

inductive Operation where
  | sum | difference | product | quotient | remainder
deriving DecidableEq

namespace Operation

def token : Operation → Token
  | sum => .plus
  | difference => .minus
  | product => .star
  | quotient => .slash
  | remainder => .percent

/-- Whether the right operand must not be zero. -/
def divides : Operation → Bool
  | quotient | remainder => true
  | _ => false

/-- The result over the integers. A quotient is cut off towards zero, and a remainder has the sign of the left
operand. -/
def result (m : Int) (op : Operation) (n : Int) : Int :=
  match op with
  | sum => m + n
  | difference => m - n
  | product => m * n
  | quotient => m.tdiv n
  | remainder => m.tmod n

def apply (span : Span) (m : Int) (op : Operation) (n : Int) : Except Error Int :=
  if op.divides ∧ n = 0 then .error (Cause.divisionByZero.at span) else .ok (op.result m n)

theorem apply_eq_error {span : Span} {op : Operation} {m n : Int} {e : Error} (h : op.apply span m n = .error e) :
    op.divides = true ∧ e = Cause.divisionByZero.at span := by
  unfold apply at h
  split at h
  · rename_i hzero
    cases h
    exact ⟨hzero.1, rfl⟩
  · cases h

end Operation

/-! ## Formulas -/

/-- An expression over integers. A literal may have any text. -/
inductive Formula where
  | literal (span : Span) (text : String)
  | identifier (span : Span) (name : String)
  | negation (span : Span) (operand : Formula)
  | operation (span : Span) (left : Formula) (op : Operation) (right : Formula)

namespace Formula

/-- The formula as a tree. -/
def expr : Formula → Expr
  | literal span text => .literal span (.integer text)
  | identifier span name => .identifier span name
  | negation span operand => .unary span .minus operand.expr
  | operation span left op right => .binary span left.expr op.token right.expr

def names : Formula → List String
  | literal .. => []
  | identifier _ name => [name]
  | negation _ operand => operand.names
  | operation _ left _ right => left.names ++ right.names

/-- The value over the integers, or the first error: the left operand comes before the right one, and both before
the operator. -/
def value (env : String → Int) : Formula → Except Error Int
  | literal span text =>
    match Integer.written? text with
    | some n => .ok n
    | none => .error ((Cause.malformedLiteral text).at span)
  | identifier _ name => .ok (env name)
  | negation _ operand => (operand.value env).map (-·)
  | operation span left op right =>
    match left.value env with
    | .error e => .error e
    | .ok m =>
      match right.value env with
      | .error e => .error e
      | .ok n => op.apply span m n

/-! ### What an error is due to -/

/-- Some node is to blame for the error: a literal whose text writes no integer, or a division. -/
def Blames (f : Formula) (e : Error) : Prop :=
  (∃ span text, .literal span (.integer text) ∈ f.expr.nodes ∧ Integer.written? text = none ∧
    e = (Cause.malformedLiteral text).at span) ∨
  ∃ span left right, ∃ op : Operation, .binary span left op.token right ∈ f.expr.nodes ∧ op.divides = true ∧
    e = Cause.divisionByZero.at span

/-- What is to blame in a part is to blame in the whole. -/
theorem Blames.whole {part whole : Formula} {e : Error} (h : part.Blames e)
    (hnodes : ∀ n ∈ part.expr.nodes, n ∈ whole.expr.nodes) : whole.Blames e := by
  obtain ⟨span, text, hn, htext, he⟩ | ⟨span, left, right, op, hn, hop, he⟩ := h
  · exact .inl ⟨span, text, hnodes _ hn, htext, he⟩
  · exact .inr ⟨span, left, right, op, hnodes _ hn, hop, he⟩

/-- For every error that a formula comes to, one of its nodes is to blame. -/
theorem blames_of_value {env : String → Int} {e : Error} {f : Formula} (h : f.value env = .error e) : f.Blames e := by
  induction f with
  | literal span text =>
    rw [value] at h
    split at h
    · cases h
    · rename_i htext
      cases h
      exact .inl ⟨span, text, List.mem_singleton_self _, htext, rfl⟩
  | identifier span name => cases h
  | negation span operand ih =>
    have ho : operand.value env = .error e := by
      rw [value] at h
      cases ho : operand.value env with
      | ok n =>
        rw [ho] at h
        cases h
      | error e' => rwa [ho] at h
    refine (ih ho).whole ?_
    intro n hn
    exact List.mem_cons_of_mem _ hn
  | operation span left op right ihLeft ihRight =>
    rw [value] at h
    split at h
    · rename_i e' hl
      cases h
      refine (ihLeft hl).whole ?_
      intro n hn
      exact List.mem_cons_of_mem _ (List.mem_append_left _ hn)
    · split at h
      · rename_i e' hr
        cases h
        refine (ihRight hr).whole ?_
        intro n hn
        exact List.mem_cons_of_mem _ (List.mem_append_right _ hn)
      · obtain ⟨hop, rfl⟩ := Operation.apply_eq_error h
        exact .inr ⟨span, _, _, op, List.mem_cons_self, hop, rfl⟩

end Formula

/-! ## Agreement -/

/-- Both come to the same integer, the first to its canonical form, or both stop at the same error. -/
def Agree (x : Except Failure Value) (y : Except Error Int) : Prop :=
  (∃ a n, x = .ok (.integer a) ∧ y = .ok n ∧ a.Represents n) ∨ ∃ e, x = .error (.error e) ∧ y = .error e

/-- The name stands for the integer that the environment gives it. -/
def Scope.Holds (scope : Scope) (env : String → Int) (name : String) : Prop :=
  ∃ a, scope.lookup name = .ok (.integer a) ∧ a.Represents (env name)

theorem Literal.eval_agree (span : Span) (text : String) (env : String → Int) :
    Agree ((integer text).eval span) ((Formula.literal span text).value env) := by
  rw [eval, Formula.value]
  cases htext : Integer.written? text with
  | some n =>
    obtain ⟨a, ha, hrep⟩ := Integer.parse_represents htext
    rw [ha]
    exact .inl ⟨a, n, rfl, rfl, hrep⟩
  | none =>
    rw [Integer.parse_malformed htext]
    exact .inr ⟨_, rfl, rfl⟩

/-- A division agrees if it refuses the divisor zero and nothing else. -/
theorem Operation.division_agree {op : Operation} (hop : op.divides = true) (span : Span) {m n : Int}
    {x : Except Integer.Fault Integer} (hzero : n = 0 → x = .error .divisionByZero)
    (hresult : n ≠ 0 → ∃ a, x = .ok a ∧ a.Represents (op.result m n)) :
    Agree (placed span ((x.mapError Cause.ofInteger).map .integer)) (op.apply span m n) := by
  unfold apply
  split
  · rename_i h
    rw [hzero h.2]
    exact .inr ⟨_, rfl, rfl⟩
  · rename_i h
    obtain ⟨a, ha, hrep⟩ := hresult fun hn => h ⟨hop, hn⟩
    rw [ha]
    exact .inl ⟨a, _, rfl, rfl, hrep⟩

namespace Value

variable {a b : Integer} {m n : Int} (span : Span) (ha : a.Represents m) (hb : b.Represents n)

include ha

theorem unary_agree : Agree (unary span .minus (.integer a)) (.ok (-m)) := by
  obtain ⟨ha, rfl⟩ := ha
  exact .inl ⟨_, _, rfl, rfl, Integer.negate_represents ha⟩

include hb

theorem binary_agree (op : Operation) :
    Agree (binary span op.token (.integer a) (.integer b)) (op.apply span m n) := by
  obtain ⟨ha, rfl⟩ := ha
  obtain ⟨hb, rfl⟩ := hb
  cases op with
  | sum => exact .inl ⟨_, _, rfl, rfl, Integer.add_represents ha hb⟩
  | difference => exact .inl ⟨_, _, rfl, rfl, Integer.subtract_represents ha hb⟩
  | product => exact .inl ⟨_, _, rfl, rfl, Integer.multiply_represents ha hb⟩
  | quotient => exact Operation.division_agree rfl span (Integer.divide_by_zero hb) (Integer.divide_represents ha hb)
  | remainder =>
    exact Operation.division_agree rfl span (Integer.remainder_by_zero hb) (Integer.remainder_represents ha hb)

end Value

/-- The evaluator agrees with the value of a formula. The recursion of both is on the formula, and so is the
induction. -/
theorem Formula.eval_agree {scope : Scope} {env : String → Int} {f : Formula}
    (h : ∀ name ∈ f.names, scope.Holds env name) : Agree (f.expr.eval scope) (f.value env) := by
  induction f with
  | literal span text => exact Literal.eval_agree span text env
  | identifier span name =>
    obtain ⟨a, hlookup, hrep⟩ := h name (List.mem_singleton_self _)
    refine .inl ⟨a, env name, ?_, rfl, hrep⟩
    rw [expr, Expr.eval, hlookup]
    rfl
  | negation span operand ih =>
    rw [expr, Expr.eval, value]
    obtain ⟨a, n, heval, hvalue, hrep⟩ | ⟨e, heval, hvalue⟩ := ih h
    · rw [heval, hvalue]
      exact Value.unary_agree span hrep
    · rw [heval, hvalue]
      exact .inr ⟨e, rfl, rfl⟩
  | operation span left op right ihLeft ihRight =>
    obtain ⟨hleft, hright⟩ := List.forall_mem_append.mp h
    have hlogical : op.token.isLogical = false := by cases op <;> rfl
    rw [expr, Expr.eval, value]
    obtain ⟨a, m, heval, hvalue, ha⟩ | ⟨e, heval, hvalue⟩ := ihLeft hleft
    · rw [heval, hvalue]
      obtain ⟨b, n, heval, hvalue, hb⟩ | ⟨e, heval, hvalue⟩ := ihRight hright
      · rw [heval, hvalue]
        simp only [hlogical]
        exact Value.binary_agree span ha hb op
      · rw [heval, hvalue]
        simp only [hlogical]
        exact .inr ⟨e, rfl, rfl⟩
    · rw [heval, hvalue]
      exact .inr ⟨e, rfl, rfl⟩

/-- The evaluator gives the value of a formula: the canonical form of the same integer, which prints as that
integer, or the same error, which one of the nodes is to blame for. -/
theorem formula_exact {scope : Scope} {env : String → Int} {f : Formula}
    (h : ∀ name ∈ f.names, scope.Holds env name) :
    (∃ a n, f.expr.eval scope = .ok (.integer a) ∧ f.value env = .ok n ∧ a.Represents n ∧
      (Value.integer a).render = toString n) ∨
    ∃ e, f.expr.eval scope = .error (.error e) ∧ f.value env = .error e ∧ f.Blames e := by
  obtain ⟨a, n, heval, hvalue, hrep⟩ | ⟨e, heval, hvalue⟩ := Formula.eval_agree h
  · refine .inl ⟨a, n, heval, hvalue, hrep, ?_⟩
    rw [Value.render, Integer.toDecimal_eq_toString hrep.canonical, hrep.toInt]
  · exact .inr ⟨e, heval, hvalue, Formula.blames_of_value hvalue⟩

/-- The remainder of a negative dividend of two limbs: `-x % -4` for `x = 10^9 + 1`. -/
theorem formula_exact_two_limbs :
    ∃ (scope : Scope) (env : String → Int) (f : Formula) (a : Integer),
      (∀ name ∈ f.names, scope.Holds env name) ∧ f.value env = .ok (-1) ∧
      f.expr.eval scope = .ok (.integer a) ∧ a.Represents (-1) ∧ (Value.integer a).render = "-1" := by
  let x : Integer := ⟨1, [1, 1]⟩
  let scope : Scope := ⟨⟨"global", [⟨"x", .integer x, true⟩]⟩, []⟩
  let f : Formula := .operation .none (.negation .none (.identifier .none "x")) .remainder (.literal .none "-4")
  have hnames : ∀ name ∈ f.names, scope.Holds (fun _ => x.toInt) name := by
    intro name hname
    obtain rfl := List.mem_singleton.mp hname
    exact ⟨x, rfl, by decide, rfl⟩
  have hvalue : f.value (fun _ => x.toInt) = .ok (-1) := rfl
  obtain ⟨a, n, heval, hn, hrep, hrender⟩ | ⟨e, -, he, -⟩ := formula_exact hnames
  · rw [hvalue] at hn
    cases hn
    exact ⟨scope, _, f, a, hnames, hvalue, heval, hrep, hrender⟩
  · rw [hvalue] at he
    cases he

end TreeScript
