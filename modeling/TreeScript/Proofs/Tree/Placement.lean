/-
Where the errors of a node are. A node whose own fields are at fault, while each node inside of it is in order, is
refused at its own position. There are two exceptions, and in both of them the error has no position: something that is
no node at all stands in the place of a node, and the body of a node is no list. A document that has a label is read as
one without it; a document that stands for one around it is read as that one, or goes on without end.
-/
import TreeScript.Proofs.Tree.Complaint

namespace TreeScript

/-! ## Documents -/

namespace Reading

variable {filename : Option String}

theorem document_endless (d : Document) : (endless d).document = d := by
  cases d <;> rfl

theorem document_ofEnclosing (depth : Nat) (d : Document) : (ofEnclosing filename depth d).document = d := by
  cases depth with
  | zero => exact document_endless d
  | succ depth =>
    rw [ofEnclosing]
    split
    · rfl
    · rfl
    · exact document_endless d

/-- A reading is of its document, with those around it in place of their labels. -/
theorem document_inside (filename : Option String) (wholes : List (Nat × Document)) (d : Document) :
    (inside filename wholes d).document = d.inside wholes := by
  cases d with
  | again label =>
    rw [inside, Document.inside]
    cases wholes with
    | nil => rfl
    | cons whole rest =>
      rw [Document.fill]
      cases (whole :: rest).lookup label with
      | none => rfl
      | some d => exact document_ofEnclosing 2 d
  | _ => rfl

theorem field?_readEntries (wholes : List (Nat × Document)) (entries : List (Document × Document)) (key : String) :
    Document.field? key (readEntries filename wholes entries) =
      (Document.field? key entries).map (inside filename wholes) := by
  induction entries with
  | nil => rfl
  | cons entry rest ih =>
    obtain ⟨k, v⟩ := entry
    rw [readEntries, Document.field?, Document.field?]
    split
    · rfl
    · exact ih

theorem readItems_eq_map (wholes : List (Nat × Document)) (items : List Document) :
    readItems filename wholes items = items.map (inside filename wholes) := by
  induction items with
  | nil => rfl
  | cons d rest ih => rw [readItems, ih, List.map_cons]

/-- The reading of a document without a label that it may have. -/
def bare (filename : Option String) : List (Nat × Document) → Document → Reading
  | wholes, .labelled label content =>
    bare filename ((label, (Document.labelled label content).inside wholes) :: wholes) content
  | wholes, d => inside filename wholes d

theorem bare_eq_inside {wholes : List (Nat × Document)} {d : Document} (h : d.isLabelled = false) :
    bare filename wholes d = inside filename wholes d := by
  cases d with
  | labelled label content => cases h
  | _ => rfl

/-- Induction on the labels that a document has one after the other. -/
theorem label_induction {motive : List (Nat × Document) → Document → Prop}
    (labelled : ∀ wholes label content,
      motive ((label, (Document.labelled label content).inside wholes) :: wholes) content →
        motive wholes (.labelled label content))
    (unlabelled : ∀ wholes d, d.isLabelled = false → motive wholes d) (wholes : List (Nat × Document))
    (d : Document) : motive wholes d := by
  induction wholes, d using bare.induct with
  | case1 wholes label content ih => exact labelled wholes label content ih
  | case2 wholes d hd =>
    refine unlabelled wholes d ?_
    cases d with
    | labelled label content => exact (hd label content rfl).elim
    | _ => rfl

/-- The readings of the items of a list, and none of any other document. -/
def items (filename : Option String) : List (Nat × Document) → Document → List Reading
  | wholes, .list items => items.map (bare filename wholes)
  | wholes, .labelled label content =>
    items filename ((label, (Document.labelled label content).inside wholes) :: wholes) content
  | wholes, .again label =>
    match (wholes.lookup label).map Document.content with
    | some (.list items) => items.map (ofEnclosing filename 1)
    | _ => []
  | _, _ => []

/-- A label makes no difference to what a document is as a node or as a list of nodes. -/
theorem inside_eq_bare (filename : Option String) (wholes : List (Nat × Document)) (d : Document) :
    inside filename wholes d = { bare filename wholes d with document := d.inside wholes } := by
  induction wholes, d using label_induction with
  | labelled wholes label content ih => rw [inside, bare, ih]
  | unlabelled wholes d hd => rw [bare_eq_inside hd, ← document_inside filename]

theorem complains_bare {P : Error → Prop} {wholes : List (Nat × Document)} {d : Document} {place : Position}
    (h : (bare filename wholes d).Complains P place) : (inside filename wholes d).Complains P place := by
  rw [inside_eq_bare]
  cases place <;> exact h

theorem listComplains_bare {P : Error → Prop} {wholes : List (Nat × Document)} {d : Document} {place : Position}
    (h : (bare filename wholes d).ListComplains P place) : (inside filename wholes d).ListComplains P place := by
  rw [inside_eq_bare]
  cases place <;> exact h

/-! ### What is no node -/

/-- A document of this kind is refused in a place, without a position, or its reading goes on without end. -/
def NoNode (place : Position) (kind : String) (e : Error) : Prop :=
  e.isReported = false ∨ ∃ found : Document, found.kindName = kind ∧ e = ⟨.document (.notMapping place found), none⟩

theorem other_noNode (d : Document) (place : Position) : (other d).Complains (NoNode place d.kindName) place := by
  cases place <;> exact .error (.inr ⟨d, rfl, rfl⟩)

theorem ofItems_noNode (d : Document) (items : List Reading) (place : Position) :
    (ofItems d items).Complains (NoNode place d.kindName) place :=
  other_noNode d place

theorem endless_noNode (place : Position) (d : Document) :
    (endless d).Complains (NoNode place d.kindName) place := by
  induction d using endless.induct with
  | case1 entries => cases place <;> exact .error (.inl rfl)
  | case2 items => exact other_noNode (.list items) place
  | case3 label content ih => exact ih
  | case4 label => cases place <;> exact .error (.inl rfl)
  | case5 d hmap hlist hlabelled hagain =>
    have hother : endless d = other d := by rw [endless] <;> assumption
    rw [hother]
    exact other_noNode d place

/-- A document of which the kind is not that of a map is no map. -/
theorem kindName_of_content {d : Document} {entries : List (Document × Document)} (h : d.content = .map entries) :
    d.kindName = "dict" := by
  cases d with
  | map entries' => rfl
  | labelled label content =>
    cases h
    rfl
  | _ => cases h

theorem ofEnclosing_noNode (depth : Nat) {d : Document} (h : d.kindName ≠ "dict") (place : Position) :
    (ofEnclosing filename depth d).Complains (NoNode place d.kindName) place := by
  cases depth with
  | zero => exact endless_noNode place d
  | succ depth =>
    rw [ofEnclosing]
    split
    · rename_i entries hentries
      exact absurd (kindName_of_content hentries) h
    · exact ofItems_noNode d _ place
    · exact endless_noNode place d

/-- The reading of what stands for a document around it. -/
theorem inside_again_noNode (place : Position) (wholes : List (Nat × Document)) (label : Nat)
    (h : (inside filename wholes (.again label)).document.kindName ≠ "dict") :
    (inside filename wholes (.again label)).Complains
      (NoNode place (inside filename wholes (.again label)).document.kindName) place := by
  rw [inside] at h ⊢
  cases hwhole : wholes.lookup label with
  | none => exact other_noNode _ place
  | some whole =>
    rw [hwhole, Option.map_some, Option.getD_some, document_ofEnclosing] at h
    rw [Option.map_some, Option.getD_some, document_ofEnclosing]
    exact ofEnclosing_noNode 2 h place

theorem bare_noNode (place : Position) (wholes : List (Nat × Document)) (d : Document)
    (h : (bare filename wholes d).document.kindName ≠ "dict") :
    (bare filename wholes d).Complains (NoNode place (bare filename wholes d).document.kindName) place := by
  induction wholes, d using label_induction with
  | labelled wholes label content ih => exact ih h
  | unlabelled wholes d hd =>
    rw [bare_eq_inside hd] at h ⊢
    cases d with
    | map entries =>
      refine absurd ?_ h
      rw [document_inside, Document.inside]
      split <;> rfl
    | list items => exact ofItems_noNode _ _ place
    | again label => exact inside_again_noNode place wholes label h
    | labelled label content => cases hd
    | _ => exact other_noNode _ place

/-- An item of a list is a document of its own, so that it is refused as one if it is no map. -/
theorem items_noNode (place : Position) (wholes : List (Nat × Document)) (d : Document) {r : Reading}
    (hr : r ∈ items filename wholes d) (h : r.document.kindName ≠ "dict") :
    r.Complains (NoNode place r.document.kindName) place := by
  induction wholes, d using label_induction with
  | labelled wholes label content ih => exact ih hr
  | unlabelled wholes d hd =>
    cases d with
    | list items =>
      obtain ⟨d, -, rfl⟩ := List.mem_map.mp hr
      exact bare_noNode place wholes d h
    | again label =>
      rw [items] at hr
      split at hr
      · obtain ⟨d, -, rfl⟩ := List.mem_map.mp hr
        rw [document_ofEnclosing] at h ⊢
        exact ofEnclosing_noNode 1 h place
      · cases hr
    | labelled label content => cases hd
    | _ => cases hr

/-! ### What is no list -/

section

variable {P : Error → Prop} {place : Position}

theorem other_listComplains (d : Document) (h : P ⟨.document .notStatements, none⟩) :
    (other d).ListComplains P place := by
  cases place <;> exact .error h

theorem ofFields_listComplains (d : Document) (fields : Fields) (h : P ⟨.document .notStatements, none⟩) :
    (ofFields filename d fields).ListComplains P place := by
  cases place <;> exact .error h

theorem ofItems_listComplains (d : Document) {items : List Reading} (h : ∀ r ∈ items, r.Complains P place) :
    (ofItems d items).ListComplains P place := by
  cases place <;> exact .mapM h

theorem endless_listComplains (hendless : ∀ e : Error, e.isReported = false → P e)
    (h : P ⟨.document .notStatements, none⟩) (d : Document) : (endless d).ListComplains P place := by
  induction d using endless.induct with
  | case1 entries => exact other_listComplains (.map entries) h
  | case2 items => cases place <;> exact .error (hendless _ rfl)
  | case3 label content ih => exact ih
  | case4 label => cases place <;> exact .error (hendless _ rfl)
  | case5 d hmap hlist hlabelled hagain =>
    have hother : endless d = other d := by rw [endless] <;> assumption
    rw [hother]
    exact other_listComplains d h

theorem inside_again_listComplains (hendless : ∀ e : Error, e.isReported = false → P e)
    (wholes : List (Nat × Document)) (label : Nat)
    (hitems : ∀ r ∈ items filename wholes (.again label), r.Complains P place)
    (h : (∀ l, (inside filename wholes (.again label)).document.content ≠ .list l) →
      P ⟨.document .notStatements, none⟩) :
    (inside filename wholes (.again label)).ListComplains P place := by
  rw [inside] at h ⊢
  rw [items] at hitems
  cases hwhole : wholes.lookup label with
  | none =>
    rw [hwhole] at h
    exact other_listComplains _ (h nofun)
  | some whole =>
    rw [hwhole] at h hitems
    rw [Option.map_some, Option.getD_some] at h ⊢
    rw [document_ofEnclosing] at h
    rw [ofEnclosing]
    split
    · rename_i entries hentries
      refine ofFields_listComplains _ _ (h fun l hl => ?_)
      rw [hentries] at hl
      cases hl
    · rename_i items hlist
      rw [Option.map_some, hlist] at hitems
      exact ofItems_listComplains _ hitems
    · rename_i hlist
      exact endless_listComplains hendless (h hlist) whole

/-- A document as a list of nodes is refused because of one of its items, or because it is no list. -/
theorem bare_listComplains (hendless : ∀ e : Error, e.isReported = false → P e) (wholes : List (Nat × Document))
    (d : Document) (hitems : ∀ r ∈ items filename wholes d, r.Complains P place)
    (h : (∀ l, (bare filename wholes d).document.content ≠ .list l) → P ⟨.document .notStatements, none⟩) :
    (bare filename wholes d).ListComplains P place := by
  induction wholes, d using label_induction with
  | labelled wholes label content ih => exact ih hitems h
  | unlabelled wholes d hd =>
    rw [bare_eq_inside hd] at h ⊢
    cases d with
    | list items =>
      rw [inside, readItems_eq_map]
      refine ofItems_listComplains _ ?_
      intro r hr
      obtain ⟨d, hd, rfl⟩ := List.mem_map.mp hr
      exact complains_bare (hitems _ (List.mem_map_of_mem hd))
    | again label => exact inside_again_listComplains hendless wholes label hitems h
    | map entries =>
      refine ofFields_listComplains _ _ (h fun l => ?_)
      rw [document_inside, Document.inside]
      split <;> nofun
    | labelled label content => cases hd
    | _ =>
      refine other_listComplains _ (h fun l => ?_)
      rw [document_inside, Document.inside]
      split <;> nofun

end

theorem document_bare_list (wholes : List (Nat × Document)) (items : List Document) :
    ∃ l, (bare filename wholes (.list items)).document.content = .list l := by
  rw [bare_eq_inside rfl, document_inside, Document.inside]
  split
  · exact ⟨_, rfl⟩
  · exact ⟨_, rfl⟩

/-- Under a label that is left out nothing is found, and under any other one the same. -/
theorem lookup_filter_eq_some {wholes : List (Nat × Document)} {label label' : Nat} {d : Document}
    (h : (wholes.filter (·.1 != label)).lookup label' = some d) : label' ≠ label ∧ wholes.lookup label' = some d := by
  induction wholes with
  | nil => cases h
  | cons whole rest ih =>
    obtain ⟨label'', d'⟩ := whole
    rw [List.filter_cons] at h
    split at h
    · rename_i hkept
      rw [List.lookup_cons] at h ⊢
      split at h
      · rename_i hfound
        rw [beq_iff_eq] at hfound
        subst hfound
        exact ⟨by simpa using hkept, h⟩
      · exact ih h
    · rename_i hleft
      obtain ⟨hne, hrest⟩ := ih h
      have hlabel : label'' = label := by simpa using hleft
      rw [List.lookup_cons, beq_false_of_ne (hlabel ▸ hne)]
      exact ⟨hne, hrest⟩

/-- What is a list with its label is one without it. -/
theorem document_bare_of_content {wholes : List (Nat × Document)} {d : Document} {l : List Document}
    (h : (inside filename wholes d).document.content = .list l) :
    ∃ l', (bare filename wholes d).document.content = .list l' := by
  cases d with
  | labelled label content =>
    rw [document_inside, Document.inside] at h
    rw [bare]
    split at h
    · cases h
      exact document_bare_list _ l
    · rw [Document.fill, Document.content] at h
      cases content with
      | list items => exact document_bare_list _ items
      | again label' =>
        rw [Document.fill, Option.getD_eq_iff] at h
        obtain hfound | ⟨-, ⟨⟩⟩ := h
        obtain ⟨hne, hfound⟩ := lookup_filter_eq_some hfound
        rw [bare_eq_inside rfl, inside, List.lookup_cons, beq_false_of_ne hne, hfound]
        exact ⟨l, by rw [Option.map_some, Option.getD_some, document_ofEnclosing]; rfl⟩
      | _ => cases h
  | _ => exact ⟨l, h⟩

/-! ## Nodes -/

section

/-- A node has a place: a line, and a column or else the first one. -/
inductive HasPlace (entries : List (Document × Document)) : Nat → Nat → Prop
  | line {line : Nat} (hline : Document.field? "line" entries = some (.int line))
    (hcolumn : Document.field? "column" entries = none) : HasPlace entries line 1
  | lineAndColumn {line column : Nat} (hline : Document.field? "line" entries = some (.int line))
    (hcolumn : Document.field? "column" entries = some (.int column)) : HasPlace entries line column

variable (filename : Option String) (wholes : List (Nat × Document)) (entries : List (Document × Document))

/-- The kind of a node. -/
def HasKind (kind : String) : Prop := Fields.datum? (readEntries filename wholes entries) "node" = some (.text kind)

/-- The readings of what stands inside of a node in the places of other nodes. -/
inductive Part : Position → Reading → Prop
  | node {kind key : String} {place : Position} {d : Document} (hkind : HasKind filename wholes entries kind)
    (hkey : (key, place) ∈ Node.nodeKeys kind) (hd : Document.field? key entries = some d) :
    Part place (bare filename wholes d)
  | item {kind key : String} {place : Position} {d : Document} {r : Reading}
    (hkind : HasKind filename wholes entries kind) (hkey : (key, place) ∈ Node.listKeys kind)
    (hd : Document.field? key entries = some d) (hr : r ∈ items filename wholes d) : Part place r

/-- The errors without a position: something that is no map stands in the place of a node, or something that is neither
a list nor counts as false is the body of a node. -/
inductive Unplaced : Error → Prop
  | noNode {place : Position} {r : Reading} {found : Document} (hpart : Part filename wholes entries place r)
    (hmap : r.document.kindName ≠ "dict") (hfound : found.kindName = r.document.kindName) :
    Unplaced ⟨.document (.notMapping place found), none⟩
  | noList {kind key : String} {d : Document} (hkind : HasKind filename wholes entries kind)
    (hkey : Node.bodyKey? kind = some key) (hd : Document.field? key entries = some d)
    (htrue : (d.inside wholes).isTruthy = true) (hlist : ∀ l, (bare filename wholes d).document.content ≠ .list l) :
    Unplaced ⟨.document .notStatements, none⟩

end

section

variable {wholes : List (Nat × Document)} {entries : List (Document × Document)} {line column : Nat}

theorem document_inside_int (n : Int) : (inside filename wholes (.int n)).document = .int n := by
  rw [document_inside, Document.inside]
  split <;> rfl

theorem datum?_readEntries_int {key : String} {n : Int} (h : Document.field? key entries = some (.int n)) :
    Fields.datum? (readEntries filename wholes entries) key = some (.int n) := by
  rw [Fields.datum?, field?_readEntries, h, Option.map_some, Option.map_some, document_inside_int]

theorem given?_readEntries_int {key : String} {n : Int} (h : Document.field? key entries = some (.int n)) :
    Fields.given? (readEntries filename wholes entries) key = some (inside filename wholes (.int n)) := by
  rw [Fields.given?, field?_readEntries, h, Option.map_some, Option.filter_some, document_inside_int]
  rfl

theorem positionOf_natCast (key : String) (n : Nat) : positionOf key (.int n) = .ok n := by
  rw [positionOf, if_neg (by omega)]

theorem HasPlace.span_eq (h : HasPlace entries line column) :
    Fields.span filename (readEntries filename wholes entries) = .ok (.point line column filename) := by
  have hspan : ∀ {line column : Nat}, Document.field? "line" entries = some (.int line) →
      (Fields.datum? (readEntries filename wholes entries) "column").getD (.int 1) = .int column →
      Fields.span filename (readEntries filename wholes entries) = .ok (.point line column filename) := by
    intro line column hline hcolumn
    rw [Fields.span, given?_readEntries_int hline]
    dsimp only
    rw [document_inside_int, hcolumn, positionOf_natCast, positionOf_natCast]
    rfl
  cases h with
  | line hline hcolumn =>
    refine hspan hline ?_
    rw [Fields.datum?, field?_readEntries, hcolumn]
    rfl
  | lineAndColumn hline hcolumn =>
    refine hspan hline ?_
    rw [datum?_readEntries_int hcolumn]
    rfl

/-- The error is at the position of the node, or it has none because of what stands inside of the node. -/
def Accounted (filename : Option String) (wholes : List (Nat × Document)) (entries : List (Document × Document))
    (span : Span) (e : Error) : Prop :=
  e.isReported = true → e.span = some span ∨ Unplaced filename wholes entries e

variable {span : Span} {place : Position} {r : Reading}

/-- A part of a node that is a map loads, and any other one is in the place of a node. -/
theorem Part.complains (hpart : Part filename wholes entries place r)
    (hloads : r.document.kindName = "dict" → r.Loads place)
    (hrefused : r.document.kindName ≠ "dict" → r.Complains (NoNode place r.document.kindName) place) :
    r.Complains (Accounted filename wholes entries span) place := by
  by_cases hmap : r.document.kindName = "dict"
  · exact (hloads hmap).complains
  · refine (hrefused hmap).imp ?_
    rintro e (hendless | ⟨found, hfound, rfl⟩) he
    · rw [he] at hendless
      cases hendless
    · exact .inr (.noNode hpart hmap hfound)

theorem partsComplain {kind : String} (hkind : HasKind filename wholes entries kind)
    (hloads : ∀ place r, Part filename wholes entries place r → r.document.kindName = "dict" → r.Loads place) :
    Node.PartsComplain (Accounted filename wholes entries span)
      ⟨kind, span, readEntries filename wholes entries⟩ := by
  have hdocument {key : String} {r : Reading}
      (hr : Document.field? key (readEntries filename wholes entries) = some r) :
      ∃ d, Document.field? key entries = some d ∧ inside filename wholes d = r := by
    rwa [field?_readEntries, Option.map_eq_some_iff] at hr
  have hendless : ∀ e : Error, e.isReported = false → Accounted filename wholes entries span e := by
    intro e hendless he
    rw [he] at hendless
    cases hendless
  -- Wherever a list may stand, its items are parts of the node.
  have hitems {key : String} {place : Position} {d : Document} (hkey : (key, place) ∈ Node.listKeys kind)
      (hd : Document.field? key entries = some d) :
      ∀ r ∈ items filename wholes d, r.Complains (Accounted filename wholes entries span) place := by
    intro r hr
    have hpart : Part filename wholes entries place r := .item hkind hkey hd hr
    exact hpart.complains (hloads place r hpart) (items_noNode place wholes d hr)
  refine ⟨?_, ?_, ?_⟩
  · intro key place r hkey hr
    obtain ⟨d, hd, rfl⟩ := hdocument hr
    have hpart : Part filename wholes entries place (bare filename wholes d) := .node hkind hkey hd
    exact complains_bare (hpart.complains (hloads place _ hpart) (bare_noNode place wholes d))
  · intro key place r l hkey hr hlist
    obtain ⟨d, hd, rfl⟩ := hdocument hr
    refine listComplains_bare (bare_listComplains hendless wholes d (hitems hkey hd) fun hother => ?_)
    obtain ⟨l', hl'⟩ := document_bare_of_content hlist
    exact absurd hl' (hother l')
  · intro key r hkey hr htrue
    obtain ⟨d, hd, rfl⟩ := hdocument hr
    rw [document_inside] at htrue
    have hmem := Node.mem_listKeys_of_bodyKey? hkey
    have hstatements : (inside filename wholes d).ListComplains (Accounted filename wholes entries span) .statement :=
      listComplains_bare (bare_listComplains hendless wholes d (hitems hmem hd) fun hother _ =>
        .inr (.noList hkind hkey hd htrue hother))
    exact hstatements

theorem node_complains {α : Type} {P : Error → Prop} {wanted : Position} {fields : Fields}
    {build : Node → Except Error α} (hspan : fields.span filename = .ok span)
    (hown : ∀ e : Error, e.span = some span ∨ e.isReported = false → P e)
    (hbuild : ∀ kind, fields.datum? "node" = some (.text kind) → TreeScript.Complains P (build ⟨kind, span, fields⟩)) :
    TreeScript.Complains P (node filename wanted fields build) := by
  unfold node
  rw [hspan]
  split
  · rename_i kind hkind
    exact hbuild kind hkind
  · cases (((fields.datum? "node").getD .null).plain) with
    | some kind => exact .error (hown _ (.inl rfl))
    | none => exact .error (hown _ (.inr rfl))

/-- A node with a valid position whose parts load is refused at its position, unless something that is no node stands in
the place of a node or its body is no list; then the error says so and has no position. -/
theorem own_fault_placed {e : Error} (hplace : HasPlace entries line column)
    (hloads : ∀ place r, Part filename wholes entries place r → r.document.kindName = "dict" → r.Loads place)
    (h : (inside filename wholes (.map entries)).Fails e place) (he : e.isReported = true) :
    e.span = some (.point line column filename) ∨ Unplaced filename wholes entries e := by
  have hown : ∀ e : Error, e.span = some (.point line column filename) ∨ e.isReported = false →
      Accounted filename wholes entries (.point line column filename) e := by
    rintro e (hspan | hsilent) he
    · exact .inl hspan
    · rw [he] at hsilent
      cases hsilent
  have hcomplains : (inside filename wholes (.map entries)).Complains
      (Accounted filename wholes entries (.point line column filename)) place := by
    rw [inside]
    cases place with
    | statement =>
      refine node_complains hplace.span_eq hown fun kind hkind => ?_
      exact Node.statement_complains hown (partsComplain hkind hloads)
    | expression =>
      refine node_complains hplace.span_eq hown fun kind hkind => ?_
      exact Node.expressionOf_complains hown (partsComplain hkind hloads)
  exact hcomplains.of_fails h he

/-- An assignment of a literal that is in order, with an operator that it does not take. -/
theorem own_fault_placed_operator :
    ∃ (entries : List (Document × Document)) (e : Error), HasPlace entries 12 4 ∧
      (∀ place r, Part none [] entries place r → r.document.kindName = "dict" → r.Loads place) ∧
      (∃ place r, Part none [] entries place r ∧ r.document.kindName = "dict" ∧ r.Loads place) ∧
      (ofDocument none (.map entries)).Fails e .statement ∧ e.isReported = true ∧
      e.span = some (.point 12 4 none) := by
  let value : Document := .map [(.text "node", .text "Literal"), (.text "int", .text "1")]
  let entries : List (Document × Document) :=
    [(.text "node", .text "Assign"), (.text "target", .text "x"), (.text "value", value), (.text "op", .text "**"),
      (.text "line", .int 12), (.text "column", .int 4)]
  have hkind {kind : String} (h : HasKind none [] entries kind) : kind = "Assign" := by
    cases h
    rfl
  have hplace : HasPlace entries 12 4 := .lineAndColumn rfl rfl
  have hassign : HasKind none [] entries "Assign" := rfl
  have hkey : ("value", Position.expression) ∈ Node.nodeKeys "Assign" := by decide
  have hvalue : Part none [] entries .expression (bare none [] value) := .node hassign hkey rfl
  have hliteral : (bare none [] value).Loads .expression := ⟨_, rfl⟩
  have hloads : ∀ place r, Part none [] entries place r → r.document.kindName = "dict" → r.Loads place := by
    intro place r hpart _
    cases hpart with
    | node h hkey hd =>
      rw [hkind h] at hkey
      obtain ⟨rfl, rfl⟩ := Prod.mk.inj (List.mem_singleton.mp hkey)
      cases hd
      exact hliteral
    | item h hkey _ _ =>
      rw [hkind h] at hkey
      cases hkey
  have hfails : (ofDocument none (.map entries)).Fails
      ((Cause.document (.badOperator "'**'" "Assign")).at (.point 12 4 none)) .statement := rfl
  refine ⟨entries, _, hplace, hloads, ⟨_, _, hvalue, rfl, hliteral⟩, hfails, rfl, ?_⟩
  obtain hspan | hunplaced := own_fault_placed hplace hloads hfails rfl
  · exact hspan
  · cases hunplaced

/-- The error has no position if the body of a block is a text, or the expression of a statement is a number. -/
theorem body_fault_unplaced :
    ∃ (block statement : List (Document × Document)) (e e' : Error),
      HasPlace block 3 5 ∧
      (∀ place r, Part none [] block place r → r.document.kindName = "dict" → r.Loads place) ∧
      (ofDocument none (.map block)).Fails e .statement ∧ e.isReported = true ∧ e.span = none ∧
      HasPlace statement 3 5 ∧
      (∀ place r, Part none [] statement place r → r.document.kindName = "dict" → r.Loads place) ∧
      (ofDocument none (.map statement)).Fails e' .statement ∧ e'.isReported = true ∧ e'.span = none := by
  let block : List (Document × Document) :=
    [(.text "node", .text "Block"), (.text "line", .int 3), (.text "column", .int 5), (.text "body", .text "x")]
  let statement : List (Document × Document) :=
    [(.text "node", .text "Expression"), (.text "line", .int 3), (.text "column", .int 5),
      (.text "expression", .int 5)]
  refine ⟨block, statement, ⟨.document .notStatements, none⟩, ⟨.document (.notMapping .expression (.int 5)), none⟩,
    .lineAndColumn rfl rfl, ?_, rfl, rfl, rfl, .lineAndColumn rfl rfl, ?_, rfl, rfl, rfl⟩
  · intro place r hpart hmap
    cases hpart with
    | node hkind hkey _ =>
      cases hkind
      cases hkey
    | item hkind hkey hd hr =>
      cases hkind
      obtain ⟨rfl, -⟩ := Prod.mk.inj (List.mem_singleton.mp hkey)
      cases hd
      cases hr
  · intro place r hpart hmap
    cases hpart with
    | node hkind hkey hd =>
      cases hkind
      obtain ⟨rfl, -⟩ := Prod.mk.inj (List.mem_singleton.mp hkey)
      cases hd
      exact absurd hmap (by decide)
    | item hkind hkey _ _ =>
      cases hkind
      cases hkey

end

end Reading

end TreeScript
