/-
Comparisons of integers. The ordering operators go by sign and limbs and the equality operators by structure, and all
of them agree with the integers that are meant, since only canonical integers reach them: whatever programs have run
in a scope, each comparison of two expressions that give integers has the one right result.
-/
import TreeScript.Proofs.Integer.Order
import TreeScript.Proofs.Run.Kinds

namespace TreeScript

/-! ## Operators on integers -/

/-- Whether an operator is a comparison that holds of two integers. -/
def Token.holds (m n : Int) : Token → Bool
  | eq => m = n
  | ne => m ≠ n
  | lt => m < n
  | le => m ≤ n
  | gt => m > n
  | ge => m ≥ n
  | _ => false

/-- Comparisons of which one holds where the other one does not. -/
def Token.opposites : List (Token × Token) := [(le, gt), (ge, lt), (ne, eq)]

theorem Token.holds_opposite {op op' : Token} (h : (op, op') ∈ opposites) (m n : Int) :
    op.holds m n = !op'.holds m n := by
  fin_cases h <;> grind [holds]

/-- Of being less, equal and greater one holds. -/
theorem Token.existsUnique_holds (m n : Int) : ∃! op : Token, op ∈ [lt, eq, gt] ∧ op.holds m n = true := by
  rcases lt_trichotomy m n with h | h | h
  · refine ⟨lt, ⟨by simp, by simpa [holds] using h⟩, ?_⟩
    rintro op ⟨hop, hholds⟩
    fin_cases hop <;> simp [holds] at hholds ⊢ <;> omega
  · refine ⟨eq, ⟨by simp, by simpa [holds] using h⟩, ?_⟩
    rintro op ⟨hop, hholds⟩
    fin_cases hop <;> simp [holds] at hholds ⊢ <;> omega
  · refine ⟨gt, ⟨by simp, by simpa [holds] using h⟩, ?_⟩
    rintro op ⟨hop, hholds⟩
    fin_cases hop <;> simp [holds] at hholds ⊢ <;> omega

/-- A comparison of canonical integers gives what holds of the integers that are meant. -/
theorem Value.binary_comparison {op : Token} {a b : Integer} (hop : op.isComparison = true) (ha : a.Canonical)
    (hb : b.Canonical) (span : Span) :
    binary span op (integer a) (integer b) = .ok (boolean (op.holds a.toInt b.toInt)) := by
  obtain ⟨hlt, hle, hgt, hge⟩ := Integer.compare_operators ha hb
  have hvalues : (integer a == integer b) = decide (a.toInt = b.toInt) := by
    rw [← Integer.beq_eq_decide ha hb, Bool.eq_iff_iff]
    simp
  cases op with
  | eq =>
    rw [Token.holds, ← hvalues]
    rfl
  | ne =>
    rw [Token.holds, decide_not, ← hvalues]
    rfl
  | lt =>
    rw [Token.holds, ← hlt]
    rfl
  | le =>
    rw [Token.holds, ← hle]
    rfl
  | gt =>
    rw [Token.holds, ← hgt]
    rfl
  | ge =>
    rw [Token.holds, ← hge]
    rfl
  | _ => cases hop

theorem Expr.eval_comparison {scope : Scope} (hscope : scope.WellFormed) {left right : Expr} {a b : Integer}
    (hleft : left.eval scope = .ok (.integer a)) (hright : right.eval scope = .ok (.integer b)) {op : Token}
    (hop : op.isComparison = true) (span : Span) :
    eval scope (.binary span left op right) = .ok (.boolean (op.holds a.toInt b.toInt)) := by
  have ha : a.Canonical := (left.eval_yields hscope _ hleft).1
  have hb : b.Canonical := (right.eval_yields hscope _ hright).1
  have hlogical : op.isLogical = false := by
    cases op <;> first | rfl | cases hop
  rw [eval, hleft, hright]
  dsimp only
  rw [hlogical]
  exact Value.binary_comparison hop ha hb span

/-! ## Sessions -/

/-- Canonical integers compare as the integers that they stand for, and so do their magnitudes; they are equal, and are
found as keys, exactly by these. In every scope that programs reach which run one after another, the comparisons of
expressions that give integers are those of these integers: one of less, equal and greater holds, and each other one
where its opposite does not. -/
theorem comparisons_exact :
    (∀ a b : Integer, a.Canonical → b.Canonical →
      a.compare b = Ord.compare a.toInt b.toInt ∧ a.compareMagnitude b = Ord.compare |a.toInt| |b.toInt| ∧
      ((a.compare b == .lt) = decide (a.toInt < b.toInt) ∧ (a.compare b != .gt) = decide (a.toInt ≤ b.toInt) ∧
        (a.compare b == .gt) = decide (a.toInt > b.toInt) ∧ (a.compare b != .lt) = decide (a.toInt ≥ b.toInt)) ∧
      (a = b ↔ a.toInt = b.toInt) ∧
      ∀ (α : Type) (entries : List (Integer × α)), (∀ entry ∈ entries, entry.1.Canonical) →
        entries.lookup b = (entries.map fun entry => (entry.1.toInt, entry.2)).lookup b.toInt) ∧
    ∀ (runs : List (Nat × Program)), ∀ scope ∈ Session.scopes runs .fresh, ∀ (left right : Expr) (a b : Integer),
      left.eval scope = .ok (.integer a) → right.eval scope = .ok (.integer b) → ∀ span : Span,
      (∀ op : Token, op.isComparison = true →
        Expr.eval scope (.binary span left op right) = .ok (.boolean (op.holds a.toInt b.toInt))) ∧
      (∃! op : Token, op ∈ [.lt, .eq, .gt] ∧
        Expr.eval scope (.binary span left op right) = .ok (.boolean true)) ∧
      ∀ op op', (op, op') ∈ Token.opposites → ∀ holds,
        Expr.eval scope (.binary span left op right) = .ok (.boolean holds) ↔
          Expr.eval scope (.binary span left op' right) = .ok (.boolean !holds) := by
  constructor
  · intro a b ha hb
    refine ⟨Integer.compare_eq_compare_toInt ha hb, Integer.compareMagnitude_eq_abs ha hb,
      Integer.compare_operators ha hb, Integer.eq_iff_toInt_eq ha hb, ?_⟩
    intro α entries hentries
    exact Integer.lookup_eq_lookup_toInt hentries hb
  · intro runs scope hscope left right a b hleft hright span
    have hwell : scope.WellFormed := Session.forall_scopes Scope.wellFormed_invariant .fresh scope hscope
    have heval {op : Token} (hop : op.isComparison = true) := Expr.eval_comparison hwell hleft hright hop span
    refine ⟨fun op => heval, ?_, ?_⟩
    · obtain ⟨op, ⟨hop, hholds⟩, hunique⟩ := Token.existsUnique_holds a.toInt b.toInt
      have hcomparison (op : Token) (hop : op ∈ [Token.lt, .eq, .gt]) : op.isComparison = true := by
        fin_cases hop <;> rfl
      refine ⟨op, ⟨hop, ?_⟩, ?_⟩
      · rw [heval (hcomparison op hop), hholds]
      · rintro op' ⟨hop', htrue⟩
        rw [heval (hcomparison op' hop')] at htrue
        exact hunique op' ⟨hop', by simpa using htrue⟩
    · intro op op' h holds
      have hcomparison : op.isComparison = true ∧ op'.isComparison = true := by
        fin_cases h <;> exact ⟨rfl, rfl⟩
      rw [heval hcomparison.1, heval hcomparison.2, Token.holds_opposite h]
      cases op'.holds a.toInt b.toInt <;> cases holds <;> simp

/-- A difference that is zero in the end, and a number with zeros in front of it. -/
def zeroRuns : List (Nat × Program) :=
  [(1, ⟨[.declare .none "n" true (some (.literal .none (.integer "1000000000"))),
    .assign .none ⟨.none, "n"⟩ (.literal .none (.integer "1000000000")) .minusAssign], .null⟩)]

/-- Its limbs tell it from zero as long as it is another number, and no longer. -/
theorem comparisons_exact_zero_difference :
    Integer.compare ⟨1, [0, 1]⟩ .zero = .gt ∧
    ∃ before ∈ Session.scopes zeroRuns .fresh, ∃ after ∈ Session.scopes zeroRuns .fresh,
      Expr.eval before (.binary .none (.identifier .none "n") .eq (.literal .none (.integer "-00"))) =
        .ok (.boolean false) ∧
      Expr.eval after (.binary .none (.identifier .none "n") .eq (.literal .none (.integer "-00"))) =
        .ok (.boolean true) := by
  obtain ⟨hcompare, -⟩ := comparisons_exact.1 ⟨1, [0, 1]⟩ .zero (by decide) (by decide)
  let scope (n : Integer) : Scope := ⟨⟨"global", [⟨"n", .integer n, true⟩]⟩, []⟩
  have hbefore : scope ⟨1, [0, 1]⟩ ∈ Session.scopes zeroRuns .fresh := by decide +kernel
  have hafter : scope .zero ∈ Session.scopes zeroRuns .fresh := by decide +kernel
  refine ⟨hcompare.trans (by decide), scope ⟨1, [0, 1]⟩, hbefore, scope .zero, hafter, ?_, ?_⟩
  · exact (comparisons_exact.2 zeroRuns _ hbefore _ _ ⟨1, [0, 1]⟩ .zero rfl rfl .none).1 .eq rfl
  · exact (comparisons_exact.2 zeroRuns _ hafter _ _ .zero .zero rfl rfl .none).1 .eq rfl

end TreeScript
