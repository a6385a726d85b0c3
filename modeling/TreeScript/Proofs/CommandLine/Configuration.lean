/-
Which documents settings are taken from. A document that settings can be read from is nothing at all, or a map from
names of options to truth values. Each of these is accepted. Of the others, one that counts as false is accepted as
well, as if it were nothing; one with a key that is no text ends the reading out of order, since the names of the
unknown options cannot be put into words; and all that remain are refused with a message on the file. This says for
each document which of the three it is, by the keys and the truth of the document alone.
-/
import TreeScript.Proofs.CommandLine.Report

namespace TreeScript

/-- The keys of a map, and none of any other document. -/
def Document.keys (d : Document) : List Document :=
  match d.view with
  | .map entries => entries.map Prod.fst
  | _ => []

theorem Document.keys_of_view {d : Document} {entries : List (Document × Document)} (h : d.view = .map entries) :
    d.keys = entries.map Prod.fst := by
  rw [keys, h]

/-- What counts as false has no keys. -/
theorem Document.keys_of_untrue {d : Document} (h : d.isTruthy = false) : d.keys = [] := by
  unfold keys
  split
  · rename_i entries hview
    by_contra hkeys
    rw [isTruthy_of_view hview fun hnil => hkeys (by rw [hnil]; rfl)] at h
    cases h
  · rfl

theorem Document.keys_of_not_map {d : Document} (h : ∀ entries, d.view ≠ .map entries) : d.keys = [] := by
  unfold keys
  split
  · rename_i entries hview
    exact absurd hview (h entries)
  · rfl

/-- Nothing counts as false, also if it has a label. -/
theorem Document.view_ne_null {d : Document} (h : d.isTruthy = true) : d.view ≠ .null := by
  intro hview
  cases d with
  | null => cases h
  | labelled label content =>
    cases content with
    | null => cases h
    | again label' =>
      rw [view, fill, List.lookup_cons] at hview
      split at hview <;> cases hview
    | _ => cases hview
  | _ => cases hview

namespace Config

/-- The fault is that the document of the file is not what settings are read from. -/
def Fault.isInvalid : Fault → Bool
  | notMapping _ => true
  | unknownOptions _ _ => true
  | notBoolean _ _ => true
  | _ => false

/-- A document that settings can be read from. -/
inductive IsSettings (d : Document) : Prop
  | empty (hview : d.view = .null)
  | mapping {entries : List (Document × Document)} (hview : d.view = .map entries)
    (hkeys : ∀ e ∈ entries, ∃ name ∈ optionNames, e.1 = .text name) (hvalues : ∀ e ∈ entries, ∃ b, e.2 = .bool b)

/-! ## Options -/

theorem isOption_iff {key : Document} : isOption key = true ↔ ∃ name ∈ optionNames, key = .text name := by
  rw [isOption, List.any_eq_true]
  refine exists_congr fun name => and_congr_right fun _ => ?_
  cases key with
  | text s =>
    rw [Document.isText, beq_iff_eq]
    simp
  | _ => simp [Document.isText]

theorem text?_of_isOption {key : Document} (h : isOption key = true) : key.text? ≠ none := by
  intro htext
  rw [isOption_of_text? htext] at h
  cases h

theorem bool?_ne_none_iff {d : Document} : d.bool? ≠ none ↔ ∃ b, d = .bool b := by
  cases d <;> simp [Document.bool?]

theorem filter_unknown_eq_nil {keys : List Document} :
    keys.filter (!isOption ·) = [] ↔ ∀ key ∈ keys, isOption key = true := by
  simp

/-! ## What a document is taken for -/

/-- The result of reading settings from a document, and what about the document makes it this one. -/
inductive Reads (path : Path) (d : Document) : Except Fault Overrides → Prop
  | nothing (huntrue : d.isTruthy = false) : Reads path d (.ok ⟨none, none, none⟩)
  | settings {entries : List (Document × Document)} (hview : d.view = .map entries) (h : IsSettings d) :
    Reads path d (.ok ⟨setting? entries "debug", setting? entries "trace", setting? entries "color"⟩)
  | notMapping (htrue : d.isTruthy = true) (hview : ∀ entries, d.view ≠ .map entries) :
    Reads path d (.error (.notMapping path))
  | unnamed {key : Document} (hkey : key ∈ d.keys) (htext : key.text? = none) :
    Reads path d (.error (.unnamedOption path))
  | unknown {names : List String} {key : Document} (htexts : ∀ key ∈ d.keys, key.text? ≠ none) (hkey : key ∈ d.keys)
    (hoption : isOption key = false) : Reads path d (.error (.unknownOptions path names))
  | notBoolean {name : String} {entries : List (Document × Document)} {e : Document × Document}
    (hview : d.view = .map entries) (hoptions : ∀ key ∈ d.keys, isOption key = true) (he : e ∈ entries)
    (hvalue : e.2.bool? = none) : Reads path d (.error (.notBoolean path name))

theorem ofEntries_reads {path : Path} {d : Document} {entries : List (Document × Document)}
    (hview : d.view = .map entries) (hoptions : ∀ key ∈ d.keys, isOption key = true) :
    Reads path d (ofEntries path entries) := by
  unfold ofEntries
  split
  · rename_i key value hfind
    have hnone := List.find?_some hfind
    rw [Option.isNone_iff_eq_none] at hnone
    exact .notBoolean hview hoptions (List.mem_of_find?_eq_some hfind) hnone
  · rename_i hfind
    rw [List.find?_eq_none] at hfind
    refine .settings hview (.mapping hview ?_ ?_)
    · intro e he
      rw [Document.keys_of_view hview] at hoptions
      exact isOption_iff.mp (hoptions e.1 (List.mem_map_of_mem he))
    · intro e he
      exact bool?_ne_none_iff.mp (by simpa using hfind e he)

theorem ofDocument_reads (path : Path) (d : Document) : Reads path d (ofDocument path d) := by
  unfold ofDocument
  cases htrue : d.isTruthy with
  | false => exact .nothing htrue
  | true =>
    rw [if_neg (by simp)]
    split
    · rename_i entries hview
      have hkeys := Document.keys_of_view hview
      dsimp only
      rw [← hkeys]
      split
      · rename_i hempty
        exact ofEntries_reads hview (filter_unknown_eq_nil.mp (List.isEmpty_iff.mp hempty))
      · -- Some key is unknown. It can be put into words if all the unknown ones can.
        rename_i hunknown
        obtain ⟨key, hkey⟩ := List.exists_mem_of_ne_nil _ (mt List.isEmpty_iff.mpr hunknown)
        obtain ⟨hkey, hoption⟩ := List.mem_filter.mp hkey
        split
        · rename_i names hnames
          refine .unknown ?_ hkey (by simpa using hoption)
          intro key' hkey' htext
          rw [mapM_unknown_eq_none_iff.mpr ⟨key', hkey', htext⟩] at hnames
          cases hnames
        · rename_i hnames
          obtain ⟨key', hkey', htext⟩ := mapM_unknown_eq_none_iff.mp hnames
          exact .unnamed hkey' htext
    · rename_i hview
      exact .notMapping htrue hview

/-! ## What makes it so -/

/-- A document that is accepted: one that settings can be read from, or that counts as false. -/
def Accepted (d : Document) : Prop := IsSettings d ∨ d.isTruthy = false

theorem IsSettings.isOption_keys {d : Document} (h : IsSettings d) : ∀ key ∈ d.keys, isOption key = true := by
  intro key hkey
  cases h with
  | empty hview =>
    rw [Document.keys, hview] at hkey
    cases hkey
  | mapping hview hkeys _ =>
    rw [Document.keys_of_view hview] at hkey
    obtain ⟨e, he, rfl⟩ := List.mem_map.mp hkey
    exact isOption_iff.mpr (hkeys e he)

/-- A map with an entry that is no setting is none to read settings from. -/
theorem IsSettings.bool?_ne_none {d : Document} {entries : List (Document × Document)} {e : Document × Document}
    (h : IsSettings d) (hview : d.view = .map entries) (he : e ∈ entries) : e.2.bool? ≠ none := by
  cases h with
  | empty hnull =>
    rw [hview] at hnull
    cases hnull
  | mapping hview' _ hvalues =>
    rw [hview] at hview'
    cases hview'
    exact bool?_ne_none_iff.mpr (hvalues e he)

theorem Accepted.isOption_keys {d : Document} (h : Accepted d) : ∀ key ∈ d.keys, isOption key = true := by
  obtain h | h := h
  · exact h.isOption_keys
  · rw [Document.keys_of_untrue h]
    simp

/-- No key of a document that is accepted is anything but a text. -/
theorem Accepted.text?_keys {d : Document} (h : Accepted d) : ∀ key ∈ d.keys, key.text? ≠ none :=
  fun key hkey => text?_of_isOption (h.isOption_keys key hkey)

section

variable {path : Path} {d : Document} {o : Overrides} {fault : Fault}

theorem Reads.accepted (h : Reads path d (.ok o)) : Accepted d := by
  cases h with
  | nothing huntrue => exact .inr huntrue
  | settings _ h => exact .inl h

/-- A fault that is not about the document of the file is about a key that is no text. -/
theorem Reads.unnamed_of_not_isInvalid (h : Reads path d (.error fault)) (hfault : fault.isInvalid = false) :
    ∃ key ∈ d.keys, key.text? = none := by
  cases h with
  | unnamed hkey htext => exact ⟨_, hkey, htext⟩
  | _ => cases hfault

theorem Reads.invalid (h : Reads path d (.error fault)) (hfault : fault.isInvalid = true) :
    ¬ Accepted d ∧ ∀ key ∈ d.keys, key.text? ≠ none := by
  cases h with
  | notMapping htrue hview =>
    refine ⟨?_, ?_⟩
    · rintro (h | huntrue)
      · cases h with
        | empty hnull => exact Document.view_ne_null htrue hnull
        | mapping hview' _ _ => exact hview _ hview'
      · rw [htrue] at huntrue
        cases huntrue
    · intro key hkey
      rw [Document.keys_of_not_map hview] at hkey
      cases hkey
  | unnamed hkey htext => cases hfault
  | unknown htexts hkey hoption =>
    refine ⟨fun haccepted => ?_, htexts⟩
    rw [haccepted.isOption_keys _ hkey] at hoption
    cases hoption
  | notBoolean hview hoptions he hvalue =>
    refine ⟨?_, fun key hkey => text?_of_isOption (hoptions key hkey)⟩
    rintro (h | huntrue)
    · exact h.bool?_ne_none hview he hvalue
    · rw [Document.isTruthy_of_view hview (List.ne_nil_of_mem he)] at huntrue
      cases huntrue

end

/-! ## Loading -/

section

variable {files : Files} {env : Environment} {choice : Choice} {path : Path} {content : String} {d : Document}

theorem load_of_read (hpath : locate files env choice = .ok path) (hentry : files path = some (.text content))
    (hread : Yaml.read content = .ok d) :
    load files env choice =
      (ofDocument path d).map fun o => (standard.withOverrides o).withOverrides (ofEnvironment env) := by
  unfold load
  rw [hpath]
  dsimp only
  rw [hentry, ofEntry, ofText, hread]

/-- A configuration whose file can be read and decoded is loaded exactly if settings can be read from its document or
the document counts as false. It is refused as invalid exactly if neither is so and every key is a text. What is left is
a document with a key that is no text, which ends the loading out of order. -/
theorem load_verdict (hpath : locate files env choice = .ok path) (hentry : files path = some (.text content))
    (hread : Yaml.read content = .ok d) :
    ((∃ c, load files env choice = .ok c) ↔ IsSettings d ∨ d.isTruthy = false) ∧
      ((∃ fault, load files env choice = .error fault ∧ fault.isInvalid = true) ↔
        ¬ (IsSettings d ∨ d.isTruthy = false) ∧ ∀ key ∈ d.keys, key.text? ≠ none) ∧
      ((∃ fault, load files env choice = .error fault ∧ fault.isInvalid = false) ↔
        ∃ key ∈ d.keys, key.text? = none) := by
  rw [load_of_read hpath hentry hread]
  have hreads := ofDocument_reads path d
  cases hresult : ofDocument path d with
  | ok o =>
    rw [hresult] at hreads
    have haccepted := hreads.accepted
    refine ⟨iff_of_true ⟨_, rfl⟩ haccepted, ?_, ?_⟩
    · exact iff_of_false (by simp [Except.map]) fun h => h.1 haccepted
    · refine iff_of_false (by simp [Except.map]) ?_
      rintro ⟨key, hkey, htext⟩
      exact haccepted.text?_keys key hkey htext
  | error fault =>
    rw [hresult] at hreads
    cases hfault : fault.isInvalid with
    | true =>
      obtain ⟨hrefused, htexts⟩ := hreads.invalid hfault
      refine ⟨iff_of_false (by simp [Except.map]) hrefused, iff_of_true ⟨fault, rfl, hfault⟩ ⟨hrefused, htexts⟩, ?_⟩
      refine iff_of_false (by simp [Except.map, hfault]) ?_
      rintro ⟨key, hkey, htext⟩
      exact htexts key hkey htext
    | false =>
      obtain ⟨key, hkey, htext⟩ := hreads.unnamed_of_not_isInvalid hfault
      refine ⟨iff_of_false (by simp [Except.map]) fun h => ?_, iff_of_false (by simp [Except.map, hfault]) fun h => ?_,
        iff_of_true ⟨fault, rfl, hfault⟩ ⟨key, hkey, htext⟩⟩
      · exact Accepted.text?_keys h key hkey htext
      · exact h.2 key hkey htext

end

/-- A file that sets an option which is not known. -/
theorem load_verdict_unknown_option :
    ∃ (files : Files) (env : Environment) (path : Path) (d : Document),
      locate files env (.file "c.yaml") = .ok path ∧ files path = some (.text "quiet: true\n") ∧
      Yaml.read "quiet: true\n" = .ok d ∧
      ∃ fault, load files env (.file "c.yaml") = .error fault ∧ fault.isInvalid = true := by
  let files : Files := fun path => if path = ⟨"", ["c.yaml"]⟩ then some (.text "quiet: true\n") else none
  let env : Environment := ⟨fun _ => none, none, fun _ => none⟩
  have hpath : locate files env (.file "c.yaml") = .ok ⟨"", ["c.yaml"]⟩ := by decide +kernel
  have hentry : files ⟨"", ["c.yaml"]⟩ = some (.text "quiet: true\n") := by decide +kernel
  have hnames : (Yaml.read "quiet: true\n").map (fun d => d.keys.map Document.text?) = .ok [some "quiet"] := by
    decide +kernel
  obtain ⟨d, hread, hd⟩ := exists_of_map_eq_ok hnames
  obtain ⟨key, hkeys, htext⟩ := List.map_eq_singleton_iff.mp hd
  cases key with
  | text name =>
    cases htext
    obtain ⟨-, hinvalid, -⟩ := load_verdict hpath hentry hread
    refine ⟨files, env, _, d, hpath, hentry, hread, hinvalid.mpr ?_⟩
    refine ⟨fun haccepted => ?_, by simp [hkeys, Document.text?]⟩
    have hoption : isOption (.text "quiet") = true := Accepted.isOption_keys haccepted _ (by simp [hkeys])
    revert hoption
    decide
  | _ => cases htext

/-- A document that is false is taken for no settings, and an option whose name is a number ends the loading out of
order, though neither is a document that settings can be read from. -/
theorem false_is_accepted :
    ∃ (files : Files) (env : Environment) (d d' : Document),
      files ⟨"", ["c.yaml"]⟩ = some (.text "false\n") ∧ Yaml.read "false\n" = .ok d ∧ ¬ IsSettings d ∧
      (∃ c, load files env (.file "c.yaml") = .ok c) ∧
      files ⟨"", ["d.yaml"]⟩ = some (.text "1: true\n") ∧ Yaml.read "1: true\n" = .ok d' ∧ ¬ IsSettings d' ∧
      ∃ fault, load files env (.file "d.yaml") = .error fault ∧ fault.isInvalid = false := by
  let files : Files := fun path =>
    if path = ⟨"", ["c.yaml"]⟩ then some (.text "false\n")
    else if path = ⟨"", ["d.yaml"]⟩ then some (.text "1: true\n")
    else none
  let env : Environment := ⟨fun _ => none, none, fun _ => none⟩
  obtain ⟨hentry, hfalse, hload, hentry', hone, hload'⟩ :
      files ⟨"", ["c.yaml"]⟩ = some (.text "false\n") ∧ (Yaml.read "false\n").map Document.bool? = .ok (some false) ∧
      load files env (.file "c.yaml") = .ok .standard ∧
      files ⟨"", ["d.yaml"]⟩ = some (.text "1: true\n") ∧
      (Yaml.read "1: true\n").map (fun d => d.keys.map Document.text?) = .ok [none] ∧
      load files env (.file "d.yaml") = .error (.unnamedOption ⟨"", ["d.yaml"]⟩) := by
    decide +kernel
  obtain ⟨d, hread, hd⟩ := exists_of_map_eq_ok hfalse
  obtain ⟨d', hread', hd'⟩ := exists_of_map_eq_ok hone
  obtain ⟨key, hkeys, htext⟩ := List.map_eq_singleton_iff.mp hd'
  refine ⟨files, env, d, d', hentry, hread, ?_, ⟨_, hload⟩, hentry', hread', ?_, _, hload', rfl⟩
  · intro h
    cases d with
    | bool b => cases h with
      | empty hview => cases hview
      | mapping hview _ _ => cases hview
    | _ => cases hd
  · intro h
    exact text?_of_isOption (h.isOption_keys key (by simp [hkeys])) htext

end Config

end TreeScript
