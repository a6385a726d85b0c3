/-
Which documents have a text. Only an integer can be without one, so that a document in which every integer, also as a
key or a member of a set, has few enough digits has a text on its own and inside of others.
-/
import Mathlib.Tactic
import TreeScript.Document.Text

namespace TreeScript

mutual

/-- Every integer in the document becomes a text. -/
def Document.Writable : Document → Prop
  | .int n => Text.IsWritable n
  | .list items => itemsWritable items
  | .pair a b => a.Writable ∧ b.Writable
  | .set items => itemsWritable items
  | .map entries => entriesWritable entries
  | .labelled _ content => content.Writable
  | _ => True

def itemsWritable : List Document → Prop
  | [] => True
  | d :: rest => d.Writable ∧ itemsWritable rest

def entriesWritable : List (Document × Document) → Prop
  | [] => True
  | (k, v) :: rest => (k.Writable ∧ v.Writable) ∧ entriesWritable rest

end

theorem entriesWritable_iff {entries : List (Document × Document)} :
    entriesWritable entries ↔ ∀ e ∈ entries, e.1.Writable ∧ e.2.Writable := by
  induction entries with
  | nil => simp [entriesWritable]
  | cons e rest ih => rw [entriesWritable, ih, List.forall_mem_cons]

/-- The document has a text. -/
def Document.HasText (d : Document) : Prop := d.plain.isSome = true

namespace Document

mutual

theorem Writable.quotedIn : ∀ {d : Document}, d.Writable → ∀ marks, ∃ s, d.quotedIn marks = some s
  | .int _, h, _ => ⟨_, if_pos h⟩
  | .list _, h, marks => by
    obtain ⟨parts, hparts⟩ := itemsWritable_quoted h marks
    rw [Document.quotedIn, hparts]
    exact ⟨_, rfl⟩
  | .pair _ _, h, marks => by
    obtain ⟨s, hs⟩ := h.1.quotedIn marks
    obtain ⟨t, ht⟩ := h.2.quotedIn marks
    rw [Document.quotedIn, hs, ht]
    exact ⟨_, rfl⟩
  | .set _, h, marks => by
    rw [Document.quotedIn]
    split
    · exact ⟨_, rfl⟩
    · obtain ⟨parts, hparts⟩ := itemsWritable_quoted h marks
      rw [hparts]
      exact ⟨_, rfl⟩
  | .map _, h, marks => by
    obtain ⟨parts, hparts⟩ := entriesWritable_quoted h marks
    rw [Document.quotedIn, hparts]
    exact ⟨_, rfl⟩
  | .labelled _ content, h, marks => by
    have hcontent : content.Writable := h
    rw [Document.quotedIn]
    split
    · exact ⟨_, rfl⟩
    · exact hcontent.quotedIn _
  | .null, _, _ | .bool _, _, _ | .double _, _, _ | .text _, _, _ | .date _, _, _ | .moment _, _, _ | .bytes _, _, _
  | .again _, _, _ => ⟨_, rfl⟩

theorem itemsWritable_quoted :
    ∀ {items : List Document}, itemsWritable items → ∀ marks, ∃ parts, quotedItems marks items = some parts
  | [], _, _ => ⟨_, rfl⟩
  | _ :: _, h, marks => by
    obtain ⟨s, hs⟩ := Writable.quotedIn h.1 marks
    obtain ⟨parts, hparts⟩ := itemsWritable_quoted h.2 marks
    rw [quotedItems, hs, hparts]
    exact ⟨_, rfl⟩

theorem entriesWritable_quoted :
    ∀ {entries : List (Document × Document)}, entriesWritable entries →
      ∀ marks, ∃ parts, quotedEntries marks entries = some parts
  | [], _, _ => ⟨_, rfl⟩
  | (_, _) :: _, h, marks => by
    obtain ⟨s, hs⟩ := Writable.quotedIn h.1.1 marks
    obtain ⟨t, ht⟩ := Writable.quotedIn h.1.2 marks
    obtain ⟨parts, hparts⟩ := entriesWritable_quoted h.2 marks
    rw [quotedEntries, hs, ht, hparts]
    exact ⟨_, rfl⟩

end

variable {d : Document}

theorem Writable.quoted (h : d.Writable) : ∃ s, d.quoted = some s := h.quotedIn []

theorem Writable.plain (h : d.Writable) : ∃ s, d.plain = some s := by
  cases d with
  | text | date | moment => exact ⟨_, rfl⟩
  | _ => exact h.quoted

end Document

end TreeScript
