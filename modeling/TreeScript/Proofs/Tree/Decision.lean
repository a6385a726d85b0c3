/-
Computations that decide. A computation decides a statement if it succeeds when the statement holds, and refuses the
document when it does not; a refusal is an error that is reported. Where a number with too many digits is in the way of
a text that is needed, there is neither. A reading is exact if it decides in each place what its document is. From
exact readings of its fields, the readers of a node decide whether the fields conform to the grammar: whether they are
there, and hold a name, an operator, a list of statements, a position.
-/
import TreeScript.Proofs.Tree.Grammar
import TreeScript.Proofs.Tree.Reading
import TreeScript.Proofs.Tree.Writable

namespace TreeScript

open Grammar

/-! ## Decisions -/

/-- An error that says why a document is no program, and is reported. -/
def Error.IsRefusal (e : Error) : Prop := (∃ problem, e.cause = .document problem) ∧ e.isReported = true

/-- What is to be told of has no text. -/
def Error.IsUnwritable (e : Error) : Prop := e.cause = .document .unwritable

/-- Reading goes on for longer than there is room. -/
def Error.IsTooDeep (e : Error) : Prop := e.cause = .document .endless

/-- A statement that depends on which data may stand in integer literals is decided as follows. Success means that it
holds if all data that have a text may, and a refusal that it does not hold whatever may. In the third case it does
not hold for the data that have a text, and something is too long to be written. -/
inductive Decides {α : Type} (W : Prop) (P : (Document → Prop) → Prop) : Except Error α → Prop where
  | ok {a : α} (h : ∀ A, (∀ d : Document, d.HasText → A d) → P A) : Decides W P (.ok a)
  | refused {e : Error} (he : e.IsRefusal) (h : ∀ A, ¬ P A) : Decides W P (.error e)
  | unwritable {e : Error} (he : e.IsUnwritable) (hw : ¬ W) (h : ¬ P Document.HasText) : Decides W P (.error e)

namespace Decides

variable {α β : Type} {W : Prop} {P Q : (Document → Prop) → Prop}

theorem congr {x : Except Error α} (hx : Decides W P x) (h : ∀ A, P A ↔ Q A) : Decides W Q x := by
  rwa [← funext fun A => propext (h A)]

theorem holds {a : α} (h : ∀ A, P A) : Decides W P (.ok a) := .ok fun A _ => h A

theorem unplaced {problem : Problem} (h : ∀ A, ¬ P A)
    (hreported : (Error.mk (.document problem) none).isReported = true) :
    Decides W P (problem.unplaced : Except Error α) := by
  refine .refused ⟨?_, hreported⟩ h
  exact ⟨problem, rfl⟩

theorem fail {problem : Problem} {span : Span} (h : ∀ A, ¬ P A)
    (hreported : ((Cause.document problem).at span).isReported = true) :
    Decides W P (problem.fail span : Except Error α) := by
  refine .refused ⟨?_, hreported⟩ h
  exact ⟨problem, rfl⟩

/-- A refusal that quotes a text. -/
theorem shown {text : Option String} {f : String → Except Error α} (h : ∀ A, ¬ P A) (hw : W → ∃ s, text = some s)
    (hf : ∀ s, Decides W P (f s)) : Decides W P (TreeScript.shown text >>= f) := by
  cases text with
  | some s => exact hf s
  | none =>
    refine .unwritable rfl ?_ (h _)
    intro w
    obtain ⟨s, hs⟩ := hw w
    cases hs

theorem bind {x : Except Error α} {f : α → Except Error β} (hx : Decides W P x) (hf : ∀ a, Decides W Q (f a)) :
    Decides W (fun A => P A ∧ Q A) (x >>= f) := by
  cases hx with
  | refused he h => exact .refused he fun A hpq => h A hpq.1
  | unwritable he hw h => exact .unwritable he hw fun hpq => h hpq.1
  | @ok a h =>
    have hf := hf a
    show Decides W _ (f a)
    generalize f a = y at hf
    cases hf with
    | ok h' => exact .ok fun A hA => ⟨h A hA, h' A hA⟩
    | refused he h' => exact .refused he fun A hpq => h' A hpq.2
    | unwritable he hw h' => exact .unwritable he hw fun hpq => h' hpq.2

theorem map {x : Except Error α} {f : α → β} (hx : Decides W P x) : Decides W P (x.map f) := by
  cases hx with
  | refused he h => exact .refused he h
  | unwritable he hw h => exact .unwritable he hw h
  | ok h => exact .ok h

theorem bind_pure {x : Except Error α} {f : α → β} (hx : Decides W P x) :
    Decides W P (x >>= fun a => pure (f a)) := by
  cases hx with
  | refused he h => exact .refused he h
  | unwritable he hw h => exact .unwritable he hw h
  | ok h => exact .ok h

/-- A list of computations, of which each decides a condition on the item at its place. -/
theorem mapM {γ : Type} {f : α → Except Error β} {C : (Document → Prop) → γ → Prop} {l : List α} {items : List γ}
    (h : List.Forall₂ (fun a c => Decides W (fun A => C A c) (f a)) l items) :
    Decides W (fun A => ∀ c ∈ items, C A c) (l.mapM f) := by
  induction h with
  | nil => exact .holds (by simp)
  | cons ha _ ih =>
    rw [List.mapM_cons]
    refine (bind ha fun b => ih.bind_pure).congr fun A => ?_
    rw [List.forall_mem_cons]

end Decides

/-! ## Fields -/

theorem Document.content_eq {d : Document} (h : d.isLabelled = false) : d.content = d := by
  cases d with
  | labelled label content => cases h
  | _ => rfl

/-- A reading is exact if it decides what the document is in each place. -/
structure Reading.Exact (W : Prop) (r : Reading) (d : Document) : Prop where
  document : r.document = d
  unlabelled : d.isLabelled = false
  written : W → d.Writable
  statement : Decides W (fun A => IsStatement A d) r.statement
  expression : Decides W (fun A => IsExpression A d) r.expression
  statements : Decides W (fun A => ∃ items, d = .list items ∧ ∀ d ∈ items, IsStatement A d) r.statements
  expressions : Decides W (fun A => ∃ items, d = .list items ∧ ∀ d ∈ items, IsExpression A d) r.expressions

/-- Under the same keys stand exact readings of the documents. -/
abbrev Fields.Exact (W : Prop) (fields : Fields) (entries : Entries) : Prop :=
  List.Forall₂ (fun f e => f.1 = e.1 ∧ f.2.Exact W e.2) fields entries

variable {W : Prop}

section

variable {fields : Fields} {entries : Entries} (h : fields.Exact W entries)

include h

/-- A key has neither a reading nor a document, or it has both. -/
theorem Fields.Exact.find (key : String) :
    (Document.field? key fields = none ∧ Document.field? key entries = none) ∨
    ∃ r d, Document.field? key fields = some r ∧ Document.field? key entries = some d ∧ r.Exact W d := by
  induction h with
  | nil => exact .inl ⟨rfl, rfl⟩
  | @cons f e _ _ hfe _ ih =>
    obtain ⟨k, r⟩ := f
    obtain ⟨k', d⟩ := e
    obtain ⟨rfl, hr⟩ := hfe
    rw [Document.field?, Document.field?]
    split
    · exact .inr ⟨r, d, rfl, rfl, hr⟩
    · exact ih

theorem Fields.Exact.datum?_eq (key : String) : fields.datum? key = Document.field? key entries := by
  unfold datum?
  obtain ⟨hf, he⟩ | ⟨r, d, hf, he, hr⟩ := h.find key
  · rw [hf, he]
    rfl
  · rw [hf, he, Option.map_some, hr.document]

/-- A key is given if it holds more than null, and then what holds of the key when it is given holds of that. -/
theorem Fields.Exact.given (key : String) :
    (fields.given? key = none ∧ ∀ P, WhenGiven key P entries) ∨
    ∃ r d, fields.given? key = some r ∧ Document.field? key entries = some d ∧ r.Exact W d ∧
      ∀ P, WhenGiven key P entries ↔ P d := by
  unfold given?
  obtain ⟨hf, he⟩ | ⟨r, d, hf, he, hr⟩ := h.find key
  · rw [hf]
    exact .inl ⟨rfl, fun P => (whenThere_of_none he).given⟩
  · rw [hf]
    by_cases hnull : d = .null
    · subst hnull
      refine .inl ⟨?_, fun P => whenGiven_null he⟩
      simp [hr.document, Document.isNull]
    · refine .inr ⟨r, d, ?_, he, hr, fun P => whenGiven_iff he hnull⟩
      cases d <;> simp_all [hr.document, Document.isNull]

end

/-! ## Positions -/

theorem positionOf_decides (key : String) {d : Document} (hd : W → d.Writable) :
    Decides W (fun _ => IsPlace d) (positionOf key d) := by
  unfold positionOf
  split
  · rename_i n
    split
    · rename_i hn
      have hplace : ¬ IsPlace (.int n) := by
        rintro ⟨m, hm⟩
        cases hm
        omega
      exact .shown (fun _ => hplace) (fun w => (hd w).quoted) fun s => .unplaced (fun _ => hplace) rfl
    · rename_i hn
      refine .holds fun _ => ⟨n.toNat, ?_⟩
      rw [Int.toNat_of_nonneg (by omega)]
  · rename_i hint
    have hplace : ¬ IsPlace d := by
      rintro ⟨m, hm⟩
      exact hint m hm
    exact .shown (fun _ => hplace) (fun w => (hd w).quoted) fun s => .unplaced (fun _ => hplace) rfl

theorem Fields.span_decides {fields : Fields} {entries : Entries} (h : fields.Exact W entries)
    (filename : Option String) : Decides W (fun _ => Positioned entries) (fields.span filename) := by
  unfold span
  obtain ⟨hgiven, hline⟩ | ⟨r, d, hgiven, hd, hr, hline⟩ := h.given "line"
  · rw [hgiven]
    exact .holds fun _ => .nowhere (hline _)
  · -- A column that is not there is the first one; one that is null is refused.
    have hcolumn : Decides W (fun _ => WhenThere "column" IsPlace entries)
        (positionOf "column" ((fields.datum? "column").getD (.int 1))) := by
      rw [h.datum?_eq]
      obtain ⟨-, hc⟩ | ⟨_, column, -, hc, hr⟩ := h.find "column"
      · rw [hc]
        exact .holds fun _ => whenThere_of_none hc
      · rw [hc]
        exact (positionOf_decides "column" hr.written).congr fun _ => (whenThere_iff hc).symm
    rw [hgiven]
    dsimp only
    rw [hr.document]
    refine (Decides.bind (positionOf_decides "line" hr.written) fun _ => hcolumn.bind_pure).congr fun _ => ?_
    constructor
    · rintro ⟨hplace, hcolumn⟩
      exact .line hd hplace hcolumn
    · rintro (hnowhere | ⟨hd', hplace, hcolumn⟩)
      · exact ((hline _).mp hnowhere).elim
      · rw [hd] at hd'
        cases hd'
        exact ⟨hplace, hcolumn⟩

/-! ## Spellings -/

/-- The keys under which a value of a kind is found, if no key comes twice. -/
theorem mem_keys_iff {α β : Type} [BEq α] [LawfulBEq α] {p : β → Bool} {l : List (α × β)}
    (hl : (l.map Prod.fst).Nodup) (a : α) :
    a ∈ (l.filter fun e => p e.2).map Prod.fst ↔ ((l.lookup a).filter p).isSome = true := by
  induction l with
  | nil => simp
  | cons e rest ih =>
    obtain ⟨k, b⟩ := e
    rw [List.map_cons, List.nodup_cons] at hl
    have hrest : k ∉ (rest.filter fun e => p e.2).map Prod.fst := fun hk =>
      hl.1 (List.map_subset _ (List.filter_subset_self _) hk)
    by_cases ha : a = k
    · subst ha
      rw [List.lookup_cons_self, List.filter_cons]
      cases hb : p b <;> simp [hb, hrest]
    · rw [List.lookup_cons, beq_false_of_ne ha, ← ih hl.2, List.filter_cons]
      cases hb : p b <;> simp [ha]

theorem Severity.isSome_ofName? (name : String) :
    (ofName? name).isSome = true ↔ Text.lower name ∈ ["info", "warn", "error"] := by
  have hnames : ["info", "warn", "error"] = [info, warn, error].map Severity.name := rfl
  unfold ofName?
  rw [List.find?_isSome, hnames, List.mem_map]
  simp only [beq_iff_eq]

theorem Text.lower_info : lower "info" = "info" := by
  apply String.toList_inj.mp
  rw [lower, String.toList_map]
  rfl

/-- The spellings of the operators of a class. -/
theorem Token.mem_spellings_iff (allowed : Token → Bool) (s : String) :
    s ∈ (spellings.filter fun e => allowed e.2).map Prod.fst ↔ ((ofSymbol? s).filter allowed).isSome = true :=
  mem_keys_iff (by decide) s

namespace Node

variable {n : Node} {entries : Entries} (hn : n.fields.Exact W entries)

include hn

/-! ## Fields of a node -/

/-- A field that must be there and satisfy a condition. -/
theorem field_bind_decides {α : Type} {P : (Document → Prop) → Document → Prop} {read : Reading → Except Error α}
    (key : String) (hread : ∀ r d, r.Exact W d → Decides W (fun A => P A d) (read r)) :
    Decides W (fun A => ∃ d, Document.field? key entries = some d ∧ P A d) (n.field key >>= read) := by
  unfold field
  obtain ⟨hf, he⟩ | ⟨r, d, hf, he, hr⟩ := hn.find key
  · rw [hf, he]
    refine .fail ?_ rfl
    rintro A ⟨d, hd, -⟩
    cases hd
  · rw [hf, he]
    refine (hread r d hr).congr fun A => ?_
    simp

theorem nameField_decides (key : String) : Decides W (fun _ => HasName key entries) (n.nameField key) := by
  unfold nameField
  refine (field_bind_decides hn (P := fun _ d => ∃ s, d = .text s ∧ s ≠ "") key ?_).congr fun _ => ?_
  · intro r d hr
    rw [hr.document]
    split
    · rename_i s
      split
      · rename_i hs
        refine .fail ?_ rfl
        rintro _ ⟨_, ⟨⟩, hne⟩
        exact hne hs
      · rename_i hs
        exact .holds fun _ => ⟨s, rfl, hs⟩
    · rename_i hother
      refine .fail ?_ rfl
      rintro _ ⟨s, hd, -⟩
      exact hother s hd
  · unfold HasName
    constructor
    · rintro ⟨_, hd, s, rfl, hs⟩
      exact ⟨s, hd, hs⟩
    · rintro ⟨s, hd, hs⟩
      exact ⟨_, hd, s, rfl, hs⟩

theorem operator_decides (allowed : Token → Bool) :
    Decides W (fun _ => HasOperator ((Token.spellings.filter fun e => allowed e.2).map Prod.fst) entries)
      (n.operator allowed) := by
  unfold operator
  refine field_bind_decides hn "op" ?_
  intro r d hr
  rw [hr.document]
  dsimp only
  split
  · rename_i op hop
    split at hop
    · rename_i s
      refine .holds fun _ => ⟨s, ?_, rfl⟩
      rw [Token.mem_spellings_iff, hop]
      rfl
    · cases hop
  · rename_i hnone
    have hop (_ : Document → Prop) :
        ¬ IsOperator ((Token.spellings.filter fun e => allowed e.2).map Prod.fst) d := by
      rintro ⟨s, hs, rfl⟩
      rw [Token.mem_spellings_iff] at hs
      dsimp only at hnone
      rw [hnone] at hs
      cases hs
    exact .shown hop (fun w => (hr.written w).quoted) fun s => .fail hop rfl

theorem expression_decides (key : String) :
    Decides W (fun A => ∃ d, Document.field? key entries = some d ∧ IsExpression A d) (n.expression key) :=
  field_bind_decides hn key fun _ _ hr => hr.expression

theorem optionalExpression_decides (key : String) :
    Decides W (fun A => WhenGiven key (IsExpression A) entries) (n.expression? key) := by
  unfold expression?
  obtain ⟨hgiven, h⟩ | ⟨r, d, hgiven, -, hr, h⟩ := hn.given key
  · rw [hgiven]
    exact .holds fun _ => h _
  · rw [hgiven]
    exact hr.expression.map.congr fun _ => (h _).symm

theorem optionalStatement_decides (key : String) :
    Decides W (fun A => WhenGiven key (IsStatement A) entries) (n.statement? key) := by
  unfold statement?
  obtain ⟨hgiven, h⟩ | ⟨r, d, hgiven, -, hr, h⟩ := hn.given key
  · rw [hgiven]
    exact .holds fun _ => h _
  · rw [hgiven]
    exact hr.statement.map.congr fun _ => (h _).symm

theorem body_decides (key : String) :
    Decides W (fun A => ∃ d, Document.field? key entries = some d ∧ IsBody A d) (n.body key) := by
  unfold body
  refine field_bind_decides hn key ?_
  intro r d hr
  rw [hr.document]
  split
  · rename_i htrue
    refine hr.statements.bind_pure.congr fun A => ?_
    constructor
    · rintro ⟨items, rfl, hitems⟩
      exact .list hitems
    · rintro (hvoid | hitems)
      · rw [void_iff hr.unlabelled, htrue] at hvoid
        cases hvoid
      · exact ⟨_, rfl, hitems⟩
  · rename_i hfalse
    exact .holds fun _ => .void ((void_iff hr.unlabelled).mpr (Bool.eq_false_of_not_eq_true hfalse))

end Node

end TreeScript
