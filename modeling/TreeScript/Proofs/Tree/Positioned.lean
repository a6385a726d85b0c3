/-
Every node inside of a document that loads is at a valid position. A document is followed from its root to the node, one
key after the other: as long as it loads, the node around loads and hands on that the part under the key does. So a
document with a node anywhere in it whose line, or whose column beside a line, is no number from zero on never loads.
Without a line the column is not looked at. A document may contain itself here, since the way to a node does not go
around in it.
-/
import TreeScript.Proofs.Tree.Acceptance
import TreeScript.Proofs.Tree.Loading
import TreeScript.Proofs.Tree.Placement

namespace TreeScript

open Grammar

/-! ## Nodes inside of a document -/

namespace Document

/-- A list that a document is, perhaps with a label, has an item. -/
def HasItem (d item : Document) : Prop := ∃ items, d.content = .list items ∧ item ∈ items

/-- A node stands in a document in the place of a statement or of an expression: the document is the node, or it is
another one that has the node under a key where nodes belong. -/
inductive HasNode (entries : Entries) : Position → Document → Prop
  | self {place : Position} {d : Document} (h : d.content = .map entries) : HasNode entries place d
  | node {place inner : Position} {d part : Document} {around : Entries} {kind key : String}
    (h : d.content = .map around) (hkind : field? "node" around = some (.text kind))
    (hkey : (key, inner) ∈ Node.nodeKeys kind) (hpart : field? key around = some part)
    (hnode : HasNode entries inner part) : HasNode entries place d
  | item {place inner : Position} {d list part : Document} {around : Entries} {kind key : String}
    (h : d.content = .map around) (hkind : field? "node" around = some (.text kind))
    (hkey : (key, inner) ∈ Node.listKeys kind) (hlist : field? key around = some list) (hitem : list.HasItem part)
    (hnode : HasNode entries inner part) : HasNode entries place d

/-- A node stands somewhere among the statements of a program. -/
inductive HasProgramNode (entries : Entries) (d : Document) : Prop
  | bare {part : Document} (hitem : d.HasItem part) (hnode : HasNode entries .statement part) :
    HasProgramNode entries d
  | program {list part : Document} {around : Entries} (h : d.view = .map around)
    (hprogram : field? "program" around = some list) (hitem : list.HasItem part)
    (hnode : HasNode entries .statement part) : HasProgramNode entries d

theorem HasNode.content {entries : Entries} {place : Position} {d : Document} (h : HasNode entries place d) :
    ∃ around, d.content = .map around := by
  cases h with
  | self h => exact ⟨_, h⟩
  | node h => exact ⟨_, h⟩
  | item h => exact ⟨_, h⟩

/-! ### Documents from among others -/

/-- What is found under a label is a document with a label. -/
def AllLabelled (wholes : List (Nat × Document)) : Prop :=
  ∀ label whole, wholes.lookup label = some whole → whole.isLabelled = true

variable {wholes : List (Nat × Document)}

theorem isLabelled_inside (wholes : List (Nat × Document)) (label : Nat) (content : Document) :
    ((labelled label content).inside wholes).isLabelled = true := by
  unfold inside
  split <;> rfl

theorem AllLabelled.cons (h : AllLabelled wholes) (label : Nat) (content : Document) :
    AllLabelled ((label, (labelled label content).inside wholes) :: wholes) := by
  intro label' whole hwhole
  rw [List.lookup_cons] at hwhole
  split at hwhole
  · cases hwhole
    exact isLabelled_inside wholes label content
  · exact h label' whole hwhole

theorem content_inside_map {d : Document} {entries : Entries} (wholes : List (Nat × Document))
    (h : d.content = .map entries) :
    ∃ entries', (d.inside wholes).content = .map entries' := by
  unfold inside
  cases d with
  | map _ => split <;> exact ⟨_, rfl⟩
  | labelled label content =>
    cases h
    split <;> exact ⟨_, rfl⟩
  | _ => cases h

theorem HasItem.content_inside {d item : Document} (h : d.HasItem item) (wholes : List (Nat × Document)) :
    ∃ items, (d.inside wholes).content = .list items ∧ items ≠ [] := by
  obtain ⟨items, hitems, hmem⟩ := h
  obtain ⟨first, rest, rfl⟩ := List.exists_cons_of_ne_nil (List.ne_nil_of_mem hmem)
  unfold inside
  cases d with
  | list _ =>
    cases hitems
    split <;> exact ⟨_, rfl, by simp [fillItems]⟩
  | labelled label content =>
    cases hitems
    split <;> exact ⟨_, rfl, by simp [fillItems]⟩
  | _ => cases hitems

/-- What stands for a document around it has a label, so it is neither null nor a number. -/
theorem eq_of_inside (h : AllLabelled wholes) {d scalar : Document} (hscalar : scalar = .null ∨ ∃ n, scalar = .int n)
    (heq : d.inside wholes = scalar) : d = scalar := by
  unfold inside at heq
  split at heq
  · exact heq
  · cases d with
    | again label =>
      exfalso
      rw [fill] at heq
      cases hfound : wholes.lookup label with
      | none =>
        rw [hfound, Option.getD_none] at heq
        obtain rfl | ⟨n, rfl⟩ := hscalar <;> cases heq
      | some whole =>
        have hlabelled := h label whole hfound
        rw [hfound, Option.getD_some] at heq
        subst heq
        obtain rfl | ⟨n, rfl⟩ := hscalar <;> cases hlabelled
    | list _ | pair _ _ | map _ | labelled _ _ => obtain rfl | ⟨n, rfl⟩ := hscalar <;> cases heq
    | _ => exact heq

end Document

/-! ## Readings -/

theorem positionOf_needs (key : String) (d : Document) : Needs (IsPlace d) (positionOf key d) := by
  intro n hn
  -- Whether the position could be quoted does not matter if it is in order.
  have hdecides := positionOf_decides (W := False) (d := d) key False.elim
  rw [hn] at hdecides
  cases hdecides with
  | ok h => exact h (fun _ => True) fun _ _ => True.intro

namespace Reading

open Document

variable {filename : Option String} {wholes : List (Nat × Document)} {entries : Entries}

theorem datum?_readEntries (wholes : List (Nat × Document)) (entries : Entries) (key : String) :
    Fields.datum? (readEntries filename wholes entries) key = (field? key entries).map (·.inside wholes) := by
  rw [Fields.datum?, field?_readEntries, Option.map_map]
  congr 1
  funext d
  exact document_inside filename wholes d

/-- A node has a span only if its line and its column are in order. -/
theorem span_needs (h : AllLabelled wholes) :
    Needs (Positioned entries) (Fields.span filename (readEntries filename wholes entries)) := by
  have hplace {d : Document} (hd : IsPlace (d.inside wholes)) : IsPlace d := by
    obtain ⟨n, hn⟩ := hd
    exact ⟨n, eq_of_inside h (.inr ⟨_, rfl⟩) hn⟩
  unfold Fields.span
  split
  · rename_i hnone
    refine .ok (.nowhere fun d hd hnull => ?_)
    have hfound : field? "line" (readEntries filename wholes entries) = some (inside filename wholes d) := by
      rw [field?_readEntries, hd, Option.map_some]
    have hdocument := Fields.isNull_of_given? hnone hfound
    rw [document_inside] at hdocument
    exact hnull (eq_of_inside h (.inl rfl) hdocument)
  · rename_i line hline
    have hfound : field? "line" (readEntries filename wholes entries) = some line :=
      Option.eq_some_of_filter_eq_some hline
    rw [field?_readEntries, Option.map_eq_some_iff] at hfound
    obtain ⟨d, hd, rfl⟩ := hfound
    rw [document_inside, datum?_readEntries]
    refine (positionOf_needs _ _).bind fun _ hline => (positionOf_needs _ _).bind fun _ hcolumn =>
      .ok (.line hd (hplace hline) fun c hc => ?_)
    rw [hc] at hcolumn
    exact hplace hcolumn

theorem node_needs {α : Type} (h : AllLabelled wholes) {wanted : Position} {build : Node → Except Error α}
    (hbuild : ∀ n : Node, Needs (n.fields.PartsLoad n.kind) (build n)) :
    Needs (Positioned entries ∧
        ∀ kind, field? "node" entries = some (.text kind) → Fields.PartsLoad (readEntries filename wholes entries) kind)
      (node filename wanted (readEntries filename wholes entries) build) := by
  unfold node
  rw [datum?_readEntries]
  split
  · rename_i kind hkind
    refine (span_needs h).bind fun span hspan a ha => ⟨hspan, fun kind' hkind' => ?_⟩
    have hsame : (Document.text kind').inside wholes = .text kind := by
      rw [hkind', Option.map_some] at hkind
      exact Option.some_inj.mp hkind
    have : kind' = kind := by
      unfold Document.inside at hsame
      split at hsame <;> cases hsame <;> rfl
    subst this
    exact hbuild _ a ha
  · exact .bind (.trivial _) fun _ _ => .bind_error

/-- A map that loads is at a valid position, and what it has inside of it loads too. -/
theorem loads_map (h : AllLabelled wholes) {place : Position} {d : Document} (hd : d.content = .map entries)
    (hload : (inside filename wholes d).Loads place) :
    Positioned entries ∧ ∃ wholes', AllLabelled wholes' ∧ ∀ kind, field? "node" entries = some (.text kind) →
      Fields.PartsLoad (readEntries filename wholes' entries) kind := by
  have hfields {wholes : List (Nat × Document)} (d : Document) (h : AllLabelled wholes)
      (hload : (ofFields filename d (readEntries filename wholes entries)).Loads place) :
      Positioned entries ∧ ∀ kind, field? "node" entries = some (.text kind) →
        Fields.PartsLoad (readEntries filename wholes entries) kind := by
    cases place with
    | statement =>
      obtain ⟨s, hs⟩ := hload
      exact node_needs h (fun n => Node.statement_needs) s hs
    | expression =>
      obtain ⟨e, he⟩ := hload
      exact node_needs h (fun n => Node.expressionOf_needs) e he
  cases d with
  | map _ =>
    cases hd
    rw [inside] at hload
    obtain ⟨hposition, hparts⟩ := hfields _ h hload
    exact ⟨hposition, wholes, h, hparts⟩
  | labelled label content =>
    cases hd
    rw [inside, inside] at hload
    have hcons := h.cons label (.map entries)
    obtain ⟨hposition, hparts⟩ := hfields (.map entries) hcons (by cases place <;> exact hload)
    exact ⟨hposition, _, hcons, hparts⟩
  | _ => cases hd

/-- Every item of a list that loads does so. -/
theorem loads_item (h : AllLabelled wholes) {place : Position} {d item : Document} (hitem : d.HasItem item)
    (hload : (inside filename wholes d).ListLoads place) :
    ∃ wholes', AllLabelled wholes' ∧ (inside filename wholes' item).Loads place := by
  obtain ⟨items, hd, hmem⟩ := hitem
  have hitems {wholes : List (Nat × Document)} (d : Document)
      (hload : (ofItems d (readItems filename wholes items)).ListLoads place) :
      (inside filename wholes item).Loads place := by
    have hread : inside filename wholes item ∈ readItems filename wholes items := by
      rw [readItems_eq_map]
      exact List.mem_map_of_mem hmem
    cases place with
    | statement =>
      obtain ⟨l, hl⟩ := hload
      exact exists_ok_of_mapM hl _ hread
    | expression =>
      obtain ⟨l, hl⟩ := hload
      exact exists_ok_of_mapM hl _ hread
  cases d with
  | list _ =>
    cases hd
    rw [inside] at hload
    exact ⟨wholes, h, hitems _ hload⟩
  | labelled label content =>
    cases hd
    rw [inside, inside] at hload
    exact ⟨_, h.cons label (.list items), hitems (.list items) (by cases place <;> exact hload)⟩
  | _ => cases hd

end Reading

open Document

variable {filename : Option String} {entries : Entries} {d : Document}

/-- Every node inside of a document that loads is at a valid position. -/
theorem Document.HasNode.positioned {wholes : List (Nat × Document)} {place : Position}
    (hnode : HasNode entries place d) (h : AllLabelled wholes)
    (hload : (Reading.inside filename wholes d).Loads place) : Positioned entries := by
  induction hnode generalizing wholes with
  | self hd => exact (Reading.loads_map h hd hload).1
  | node hd hkind hkey hpart hnode ih =>
    obtain ⟨-, wholes', h', hparts⟩ := Reading.loads_map h hd hload
    obtain ⟨around, haround⟩ := hnode.content
    obtain ⟨around', haround'⟩ := content_inside_map wholes' haround
    refine ih h' ((hparts _ hkind).node _ hkey _ around' ?_ ?_)
    · rw [Reading.field?_readEntries, hpart, Option.map_some]
    · rw [Reading.document_inside, haround']
  | @item _ _ _ list part around _ key hd hkind hkey hlist hitem hnode ih =>
    obtain ⟨-, wholes', h', hparts⟩ := Reading.loads_map h hd hload
    obtain ⟨items, hitems, hne⟩ := hitem.content_inside wholes'
    have hread : field? key (Reading.readEntries filename wholes' around) =
        some (Reading.inside filename wholes' list) := by
      rw [Reading.field?_readEntries, hlist, Option.map_some]
    have hloads := (hparts _ hkind).list _ hkey _ items hread (by rw [Reading.document_inside, hitems]) hne
    obtain ⟨wholes'', h'', hload'⟩ := Reading.loads_item h' hitem hloads
    exact ih h'' hload'

theorem Document.HasItem.view_ne_map {item : Document} (h : d.HasItem item) (entries : Entries) :
    d.view ≠ .map entries := by
  obtain ⟨items, hd, -⟩ := h
  cases d with
  | labelled label content =>
    cases hd
    nofun
  | map _ => cases hd
  | _ => nofun

theorem Program.readStatements_needs {part : Document} (hitem : d.HasItem part)
    (hnode : HasNode entries .statement part) : Needs (Positioned entries) (readStatements filename d) := by
  intro l hl
  obtain ⟨items, hd, hmem⟩ := hitem
  unfold readStatements at hl
  rw [hd] at hl
  have hnone : AllLabelled [] := nofun
  have hloads : (Reading.inside filename [] d).ListLoads .statement := ⟨l, hl⟩
  obtain ⟨wholes, h, hload⟩ := Reading.loads_item hnone ⟨items, hd, hmem⟩ hloads
  exact hnode.positioned h hload

/-- Every node of a program that a document gives is at a valid position. -/
theorem Program.ofDocument_needs {name : Document} (hnode : d.HasProgramNode entries) :
    Needs (Positioned entries) (ofDocument filename name d) := by
  unfold ofDocument
  split
  · rename_i around hview
    cases hnode with
    | bare hitem _ => exact absurd hview (hitem.view_ne_map _)
    | program h hprogram hitem hnode =>
      cases hview.symm.trans h
      rw [hprogram]
      exact (readStatements_needs hitem hnode).bind fun _ hposition => .ok hposition
  · rename_i hview
    cases hnode with
    | bare hitem hnode => exact (readStatements_needs hitem hnode).bind fun _ hposition => .ok hposition
    | program h _ _ _ => exact absurd h (hview _)

/-! ## Positions that are refused -/

/-- What stands under a key is neither null nor a number that a line or a column may be. -/
def Grammar.BadPlace (key : String) (entries : Entries) : Prop :=
  ∃ d, field? key entries = some d ∧ d ≠ .null ∧ ¬ IsPlace d

/-- There is something other than null under a key. -/
def Grammar.Given (key : String) (entries : Entries) : Prop := ∃ d, field? key entries = some d ∧ d ≠ .null

theorem Grammar.badPlace_text {key s : String} (h : field? key entries = some (.text s)) : BadPlace key entries :=
  ⟨_, h, nofun, nofun⟩

theorem Grammar.given_int {key : String} {n : Int} (h : field? key entries = some (.int n)) : Given key entries :=
  ⟨_, h, nofun⟩

theorem Grammar.not_positioned (hbad : BadPlace "line" entries ∨ Given "line" entries ∧ BadPlace "column" entries) :
    ¬ Positioned entries := by
  rintro (hnowhere | ⟨hline, hplace, hcolumn⟩)
  · rcases hbad with ⟨line, hline, hnull, -⟩ | ⟨⟨line, hline, hnull⟩, -⟩
    · exact hnowhere line hline hnull
    · exact hnowhere line hline hnull
  · rcases hbad with ⟨line, hline', -, hbad⟩ | ⟨-, column, hcolumn', -, hbad⟩
    · cases hline.symm.trans hline'
      exact hbad hplace
    · exact hbad (hcolumn column hcolumn')

/-- A document is never read as a program if a node somewhere in it has as its line what is neither null nor a number
from zero on, or has a line and such a thing as its column. If it is finite, it is refused, unless there is no room for
it or a number in it is too long for the text that the refusal needs. -/
theorem misplaced_node_refused (hasRoom : Document → Bool) (filename : Option String) (name : Document)
    (hnode : d.HasProgramNode entries)
    (hbad : BadPlace "line" entries ∨ Given "line" entries ∧ BadPlace "column" entries) :
    (∀ p, Program.load hasRoom filename name d ≠ .ok p) ∧
      (d.Finite → ∃ e, Program.load hasRoom filename name d = .error e ∧
        (e.IsRefusal ∨ e.IsUnwritable ∧ ¬ d.Writable ∨ e.IsTooDeep ∧ hasRoom d = false)) ∧
      (d.Finite → d.Writable → hasRoom d = true →
        ∃ e, Program.load hasRoom filename name d = .error e ∧ e.IsRefusal) := by
  have hnever : ∀ p, Program.load hasRoom filename name d ≠ .ok p := by
    intro p hp
    unfold Program.load at hp
    split at hp
    · exact not_positioned hbad (Program.ofDocument_needs hnode p hp)
    · cases hp
  have hloads (hd : d.Finite) := Program.load_loads hasRoom filename name hd
  generalize Program.load hasRoom filename name d = x at hnever hloads
  refine ⟨hnever, fun hd => ?_, fun hd hwritable hroom => ?_⟩
  · cases hloads hd with
    | read => exact absurd rfl (hnever _)
    | refused _ he _ => exact ⟨_, rfl, .inl he⟩
    | unwritable _ he hw _ => exact ⟨_, rfl, .inr (.inl ⟨he, hw⟩)⟩
    | tooDeep hroom he => exact ⟨_, rfl, .inr (.inr ⟨he, hroom⟩)⟩
  · cases hloads hd with
    | read => exact absurd rfl (hnever _)
    | refused _ he _ => exact ⟨_, rfl, he⟩
    | unwritable _ _ hw _ => exact absurd hwritable hw
    | tooDeep hnone _ =>
      rw [hroom] at hnone
      cases hnone

/-- The argument of a call inside of the other branch of a condition has a line, and a column that is a text. -/
theorem misplaced_node_refused_quoted_column :
    ∃ (d : Document) (argument : Entries), d.HasProgramNode argument ∧ Given "line" argument ∧
      BadPlace "column" argument ∧ d.Finite ∧ d.Writable ∧
      ∃ e, Program.load (fun _ => true) none .null d = .error e ∧ e.IsRefusal := by
  let argument : Entries :=
    [(.text "node", .text "Identifier"), (.text "name", .text "x"), (.text "line", .int 3), (.text "column", .text "4")]
  let call : Entries :=
    [(.text "node", .text "Call"), (.text "object", .text "console"), (.text "method", .text "log"),
      (.text "args", .list [.map argument])]
  let effect : Entries := [(.text "node", .text "Expression"), (.text "expression", .map call)]
  let condition : Entries :=
    [(.text "node", .text "If"), (.text "test", .map [(.text "node", .text "Literal"), (.text "bool", .bool true)]),
      (.text "then", .list []), (.text "else", .list [.map effect])]
  have hcall : HasNode argument .expression (.map call) :=
    .item rfl rfl (List.mem_singleton_self _) rfl ⟨_, rfl, List.mem_singleton_self _⟩ (.self rfl)
  have heffect : HasNode argument .statement (.map effect) := .node rfl rfl (List.mem_singleton_self _) rfl hcall
  have helse : ("else", .statement) ∈ Node.listKeys "If" := by decide
  have hcondition : HasNode argument .statement (.map condition) :=
    .item rfl rfl helse rfl ⟨[.map effect], rfl, List.mem_singleton_self _⟩ heffect
  have hnode : (Document.list [.map condition]).HasProgramNode argument :=
    .bare ⟨_, rfl, List.mem_singleton_self _⟩ hcondition
  have hbad : BadPlace "column" argument := badPlace_text rfl
  have hfinite : (Document.list [.map condition]).Finite := by
    simp [Document.Finite, itemsFinite, entriesFinite, condition, effect, call, argument]
  have hthree : Text.IsWritable 3 := by decide
  have hwritable : (Document.list [.map condition]).Writable := by
    simp [Document.Writable, itemsWritable, entriesWritable, condition, effect, call, argument, hthree]
  have hline : Given "line" argument := given_int rfl
  exact ⟨_, argument, hnode, hline, hbad, hfinite, hwritable,
    (misplaced_node_refused (fun _ => true) none .null hnode (.inr ⟨hline, hbad⟩)).2.2 hfinite hwritable rfl⟩

/-- Without a line the column is not looked at, whatever it is. -/
theorem column_without_line_accepted :
    ∃ (d : Document) (entries : Entries), d.Finite ∧ d.HasProgramNode entries ∧ BadPlace "column" entries ∧
      ∃ p, Program.load (fun _ => true) none .null d = .ok p := by
  let entries : Entries := [(.text "node", .text "Block"), (.text "column", .text "x"), (.text "body", .list [])]
  have hnode : (Document.list [.map entries]).HasProgramNode entries :=
    .bare ⟨_, rfl, List.mem_singleton_self _⟩ (.self rfl)
  have hfinite : (Document.list [.map entries]).Finite := by
    simp [Document.Finite, itemsFinite, entriesFinite, entries]
  exact ⟨_, entries, hfinite, hnode, badPlace_text rfl, _, rfl⟩

end TreeScript
