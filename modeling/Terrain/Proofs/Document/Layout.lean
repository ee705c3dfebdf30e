import Terrain.Proofs.Markup.Written

/-!
# Documents that were written

The declaration in front of a document tells its reader nothing, and the name of the root element
tells the layout.
-/

namespace Terrain

open Markup

variable {content : List Char} {nodes : List Node}

namespace Document

lemma read_declaration : Scan.start.read declaration = Scan.start := by decide

/-- The declaration leaves no events behind. -/
lemma events_declaration (name content : List Char) :
    events (declaration ++ element name content) = events (element name content) := by
  have hfront : withoutByteOrderMark (declaration ++ element name content) =
      declaration ++ element name content := rfl
  have hrest : withoutByteOrderMark (element name content) = element name content := rfl
  rw [events, events, hfront, hrest, Scan.read_append, read_declaration]

lemma body_declaration (text : List Char) : body (declaration ++ text) = text := rfl

/-- A text that starts with another mark than an instruction has no declaration. -/
lemma body_of_not_instruction {c : Char} (hc : c ≠ '?') (text : List Char) :
    body ('<' :: c :: text) = '<' :: c :: text := by
  have hkept : ('<' :: c :: text).dropWhile isSpace = '<' :: c :: text :=
    List.dropWhile_cons_of_neg (by decide)
  have hfront : ¬"<?xml".toList.isPrefixOf ('<' :: c :: text) = true := by
    simp [Ne.symm hc]
  rw [body]
  simp only [hkept, if_neg hfront]

/-- Neither has a document that starts with its root element. -/
lemma body_element {name : List Char} (hname : IsName name) (content : List Char) :
    body (element name content) = element name content := by
  obtain ⟨c, name, rfl⟩ := List.exists_cons_of_ne_nil hname.1
  refine body_of_not_instruction (c := c) ?_ _
  rintro rfl
  exact absurd (hname.2 _ List.mem_cons_self) (by decide)

/-- A document is read through its root element. -/
lemma readRoot_element {α : Type} {name : List Char} (read : Node → Except SchemaFault α)
    (hname : IsName name) (h : Writes content nodes) :
    readRoot read (declaration ++ element name content) =
      (read (.element name [] nodes true)).mapError .schema := by
  rw [readRoot, body_declaration, h.root?_element hname]

end Document

namespace DocumentLayout

lemma isName_root (layout : DocumentLayout) : IsName layout.root := by
  cases layout <;> decide

lemma ofRoot_root (layout : DocumentLayout) : ofRoot layout.root = .ok layout := by
  cases layout <;> rfl

lemma detect_of_scans {events : List Event} (layout : DocumentLayout) (h : Scans content events) :
    detect (Document.element layout.root content) = .ok layout := by
  rw [detect, h.events_eq layout.isName_root]
  change ofRoot (localName layout.root) = _
  rw [layout.isName_root.localName, ofRoot_root]

/-- A document with the root element of a layout is one in that layout. -/
lemma detect_element (layout : DocumentLayout) (h : Writes content nodes) :
    detect (Document.declaration ++ Document.element layout.root content) = .ok layout := by
  obtain ⟨events, -, hscan, -⟩ := h.reads
  rw [detect, Document.events_declaration]
  exact detect_of_scans layout hscan

end DocumentLayout

end Terrain
