import Mathlib.Tactic
import Terrain.Markup.Reading

/-!
# The fields of a record

A record is read from the children of an element, one after another. What is read does not depend on
their order: each field needs just one child of its name, and every other child has to be one that can
be passed over (`foldlM_takeField_none`).
-/

namespace Terrain.Markup

/-! ### Results -/

section Results

variable {ε α β : Type} {x : Except ε α} {b : β}

lemma bind_eq_ok_iff {f : α → Except ε β} :
    (x >>= f) = .ok b ↔ ∃ a, x = .ok a ∧ f a = .ok b := by
  cases x with
  | error e => exact ⟨fun h => (nomatch h), fun ⟨_, h, _⟩ => (nomatch h)⟩
  | ok a => exact ⟨fun h => ⟨a, rfl, h⟩, fun ⟨_, h, h'⟩ => Except.ok.inj h ▸ h'⟩

lemma map_eq_ok_iff {f : α → β} : x.map f = .ok b ↔ ∃ a, x = .ok a ∧ f a = b := by
  cases x with
  | error e => exact ⟨fun h => (nomatch h), fun ⟨_, h, _⟩ => (nomatch h)⟩
  | ok a => simp [Except.map]

end Results

/-! ### Children -/

/-- The name of an element without its prefix; a text has none. -/
def Node.name? : Node → Option (List Char)
  | .element name .. => some (localName name)
  | .text _ => none

/-- The elements with the name of a field. -/
def named (field : String) (nodes : List Node) : List Node :=
  nodes.filter fun node => node.name? = some field.toList

/-- Just one child has the name of a field, and a value is read from it. -/
def HoldsOnce {α : Type} (field : String) (read : Node → Except SchemaFault α) (nodes : List Node)
    (value : α) : Prop :=
  ∃ node, named field nodes = [node] ∧ read node = .ok value

/-- A child that has the name of a field, or one that can be passed over. -/
def Passes (fields : List String) (node : Node) : Prop :=
  (∃ field ∈ fields, node.name? = some field.toList) ∨ skip node = .ok ()

/-- A closed element with the given children and well-formed attributes. -/
def IsRecord (node : Node) (children : List Node) : Prop :=
  ∃ name attributes, node = .element name attributes children true ∧
    attributesWellFormed attributes = true

variable {field : String} {node : Node} {nodes : List Node}

lemma named_cons : named field (node :: nodes) =
    if node.name? = some field.toList then node :: named field nodes else named field nodes := by
  rw [named, List.filter_cons]
  simp only [decide_eq_true_eq]
  rfl

/-- A child that is passed over changes nothing. -/
lemma map_skip_eq_ok_iff {σ : Type} {record record' : σ} :
    (skip node).map (fun _ => record) = .ok record' ↔ skip node = .ok () ∧ record = record' := by
  rw [map_eq_ok_iff]
  exact ⟨fun ⟨⟨⟩, hskip, heq⟩ => ⟨hskip, heq⟩, fun ⟨hskip, heq⟩ => ⟨(), hskip, heq⟩⟩

lemma readRecord_eq_ok_iff {σ : Type} {start record : σ}
    {child : σ → Node → Except SchemaFault σ} :
    readRecord start child node = .ok record ↔
      ∃ children, IsRecord node children ∧ children.foldlM child start = .ok record := by
  cases node with
  | text content =>
    refine ⟨fun h => (nomatch h), ?_⟩
    rintro ⟨_, ⟨_, _, h, _⟩, _⟩
    cases h
  | element name attributes children closed =>
    rw [readRecord]
    constructor
    · intro h
      cases hformed : attributesWellFormed attributes with
      | false =>
        rw [hformed] at h
        cases h
      | true =>
        rw [hformed] at h
        obtain ⟨record', hfold, hclosed⟩ := bind_eq_ok_iff.mp h
        cases closed with
        | false => cases hclosed
        | true => exact ⟨children, ⟨name, attributes, rfl, hformed⟩, Except.ok.inj hclosed ▸ hfold⟩
    · rintro ⟨children', ⟨name', attributes', heq, hformed⟩, hfold⟩
      cases heq
      rw [hformed]
      exact bind_eq_ok_iff.mpr ⟨record, hfold, rfl⟩

/-! ### One field -/

section TakeField

variable {α : Type} {read : Node → Except SchemaFault α} {held : Option α} {value : α}

/-- Takes the value of a field from a child that has its name. -/
def takeField (field : String) (read : Node → Except SchemaFault α) (held : Option α) (node : Node) :
    Except SchemaFault (Option α) :=
  if node.name? = some field.toList then readOnce field held (read node) else .ok held

lemma readOnce_eq_ok_iff {value' : Option α} {result : Except SchemaFault α} :
    readOnce field held result = .ok value' ↔
      held = none ∧ ∃ value, result = .ok value ∧ value' = some value := by
  cases held with
  | some held => simp [readOnce]
  | none =>
    rw [readOnce, map_eq_ok_iff]
    simp [eq_comm]

/-- A field with a value takes no other. -/
lemma foldlM_takeField_some (value : α) :
    nodes.foldlM (takeField field read) (some value) = .ok held ↔
      held = some value ∧ named field nodes = [] := by
  induction nodes with
  | nil =>
    change Except.ok (some value) = Except.ok held ↔ held = some value ∧ [] = []
    simp [eq_comm]
  | cons node nodes ih =>
    rw [List.foldlM_cons, takeField, named_cons]
    split_ifs
    · simp [bind_eq_ok_iff, readOnce_eq_ok_iff]
    · exact ih

/-- A field gets its value from the only child of its name. -/
lemma foldlM_takeField_none :
    nodes.foldlM (takeField field read) none = .ok (some value) ↔ HoldsOnce field read nodes value := by
  induction nodes with
  | nil =>
    change Except.ok none = Except.ok (some value) ↔ ∃ node, [] = [node] ∧ read node = .ok value
    simp
  | cons node nodes ih =>
    rw [List.foldlM_cons, takeField, HoldsOnce, named_cons]
    split_ifs
    · rw [bind_eq_ok_iff]
      constructor
      · rintro ⟨held, hheld, hrest⟩
        obtain ⟨-, value', hvalue, rfl⟩ := readOnce_eq_ok_iff.mp hheld
        obtain ⟨heq, hnone⟩ := (foldlM_takeField_some value').mp hrest
        exact ⟨node, by rw [hnone], Option.some.inj heq ▸ hvalue⟩
      · rintro ⟨node', hnode, hvalue⟩
        obtain ⟨rfl, hnone⟩ := List.cons.inj hnode
        exact ⟨some value, readOnce_eq_ok_iff.mpr ⟨rfl, value, hvalue, rfl⟩,
          (foldlM_takeField_some value).mpr ⟨rfl, hnone⟩⟩
    · exact ih

end TakeField

end Terrain.Markup
