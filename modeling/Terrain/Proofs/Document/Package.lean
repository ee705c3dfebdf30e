import Terrain.Document
import Terrain.Proofs.Markup.Fields

/-!
# Packages in documents

A package may be written in many ways: the elements of its fields stand in any order, between other
elements, with blanks and prefixes, and its numbers have more than one spelling. `Describes` says that a
document holds a package, and the documents that do are those that are read as one
(`readRoot_eq_ok_iff`).
-/

namespace Terrain

open Markup

namespace Package

variable {p : Package} {f f' : PackageFields} {node : Node} {nodes : List Node}

/-! ### The fields of a package -/

def fieldNames : List String := ["Version", "SizeX", "SizeY", "SizeZ", "CompressionFactor", "Map"]

/-- The children of an element hold a package: each field just once, in any order, and nothing else
that could not be passed over. -/
structure Holds (nodes : List Node) (p : Package) : Prop where
  version : HoldsOnce "Version" (readValue Number.readInt32?) nodes p.version
  width : HoldsOnce "SizeX" (readValue Number.readInt32?) nodes p.width
  height : HoldsOnce "SizeY" (readValue Number.readInt32?) nodes p.height
  altitude : HoldsOnce "SizeZ" (readValue Number.readInt32?) nodes p.altitude
  factor : HoldsOnce "CompressionFactor" (readValue Number.readSingle?) nodes p.factor
  map : HoldsOnce "Map" readMap nodes p.map
  others : ∀ node ∈ nodes, Passes fieldNames node

/-- A document holds a package: its root element, whatever its name, has one element for the package
among its children, and nothing else that could not be passed over. -/
def Describes (p : Package) (text : List Char) : Prop :=
  ∃ root children, root? (Document.body text) = some root ∧ IsRecord root children ∧
    (∀ child ∈ children, Passes [name] child) ∧
    ∃ node nodes, named name children = [node] ∧ IsRecord node nodes ∧ Holds nodes p

/-- Every field takes what the children have for it. -/
structure Takes (f : PackageFields) (nodes : List Node) (f' : PackageFields) : Prop where
  version : nodes.foldlM (takeField "Version" (readValue Number.readInt32?)) f.version =
    .ok f'.version
  width : nodes.foldlM (takeField "SizeX" (readValue Number.readInt32?)) f.width = .ok f'.width
  height : nodes.foldlM (takeField "SizeY" (readValue Number.readInt32?)) f.height = .ok f'.height
  altitude : nodes.foldlM (takeField "SizeZ" (readValue Number.readInt32?)) f.altitude =
    .ok f'.altitude
  factor : nodes.foldlM (takeField "CompressionFactor" (readValue Number.readSingle?)) f.factor =
    .ok f'.factor
  map : nodes.foldlM (takeField "Map" readMap) f.map = .ok f'.map

lemma takes_nil : Takes f [] f' ↔ f = f' := by
  cases f
  cases f'
  constructor
  · rintro ⟨h₁, h₂, h₃, h₄, h₅, h₆⟩
    cases h₁; cases h₂; cases h₃; cases h₄; cases h₅; cases h₆
    rfl
  · rintro ⟨⟩
    exact ⟨rfl, rfl, rfl, rfl, rfl, rfl⟩

lemma takes_cons : Takes f (node :: nodes) f' ↔ ∃ f₁, Takes f [node] f₁ ∧ Takes f₁ nodes f' := by
  have hcons {α : Type} (take : Option α → Node → Except SchemaFault (Option α))
      (held held' : Option α) : (node :: nodes).foldlM take held = .ok held' ↔
        ∃ held₁, [node].foldlM take held = .ok held₁ ∧ nodes.foldlM take held₁ = .ok held' := by
    rw [← List.singleton_append, List.foldlM_append, bind_eq_ok_iff]
  constructor
  · rintro ⟨h₁, h₂, h₃, h₄, h₅, h₆⟩
    obtain ⟨version, hversion, h₁⟩ := (hcons _ _ _).mp h₁
    obtain ⟨width, hwidth, h₂⟩ := (hcons _ _ _).mp h₂
    obtain ⟨height, hheight, h₃⟩ := (hcons _ _ _).mp h₃
    obtain ⟨altitude, haltitude, h₄⟩ := (hcons _ _ _).mp h₄
    obtain ⟨factor, hfactor, h₅⟩ := (hcons _ _ _).mp h₅
    obtain ⟨map, hmap, h₆⟩ := (hcons _ _ _).mp h₆
    exact ⟨⟨version, width, height, altitude, factor, map⟩,
      ⟨hversion, hwidth, hheight, haltitude, hfactor, hmap⟩, ⟨h₁, h₂, h₃, h₄, h₅, h₆⟩⟩
  · rintro ⟨f₁, h, h'⟩
    exact ⟨(hcons _ _ _).mpr ⟨_, h.version, h'.version⟩, (hcons _ _ _).mpr ⟨_, h.width, h'.width⟩,
      (hcons _ _ _).mpr ⟨_, h.height, h'.height⟩, (hcons _ _ _).mpr ⟨_, h.altitude, h'.altitude⟩,
      (hcons _ _ _).mpr ⟨_, h.factor, h'.factor⟩, (hcons _ _ _).mpr ⟨_, h.map, h'.map⟩⟩

/-- Of a child, a field takes what stands there for it and for no other field. -/
lemma takes_singleton : Takes f [node] f' ↔
    takeField "Version" (readValue Number.readInt32?) f.version node = .ok f'.version ∧
    takeField "SizeX" (readValue Number.readInt32?) f.width node = .ok f'.width ∧
    takeField "SizeY" (readValue Number.readInt32?) f.height node = .ok f'.height ∧
    takeField "SizeZ" (readValue Number.readInt32?) f.altitude node = .ok f'.altitude ∧
    takeField "CompressionFactor" (readValue Number.readSingle?) f.factor node = .ok f'.factor ∧
    takeField "Map" readMap f.map node = .ok f'.map := by
  have hone {α : Type} (take : Option α → Node → Except SchemaFault (Option α)) (held : Option α) :
      [node].foldlM take held = take held node := by
    rw [List.foldlM_cons, funext (fun held => List.foldlM_nil), bind_pure]
  constructor
  · rintro ⟨h₁, h₂, h₃, h₄, h₅, h₆⟩
    rw [hone] at h₁ h₂ h₃ h₄ h₅ h₆
    exact ⟨h₁, h₂, h₃, h₄, h₅, h₆⟩
  · rintro ⟨h₁, h₂, h₃, h₄, h₅, h₆⟩
    exact ⟨(hone _ _).trans h₁, (hone _ _).trans h₂, (hone _ _).trans h₃, (hone _ _).trans h₄,
      (hone _ _).trans h₅, (hone _ _).trans h₆⟩

/-- A child with the name of a field gives its value to this field. -/
lemma readChild_eq_ok_iff_of_mem {field : String} (hmem : field ∈ fieldNames)
    (hname : node.name? = some field.toList) : readChild f node = .ok f' ↔ Takes f [node] f' := by
  have hmap {α β : Type} {x : Except SchemaFault α} {b : β} {g : α → β} :
      g <$> x = .ok b ↔ ∃ a, x = .ok a ∧ g a = b := map_eq_ok_iff
  cases node with
  | text content => cases hname
  | element name attributes children closed =>
    have hlocal : localName name = field.toList := Option.some.inj hname
    rw [readChild, hlocal, takes_singleton]
    simp only [takeField, hname, Option.some_inj]
    generalize Node.element name attributes children closed = node
    cases f
    cases f'
    rw [readField]
    simp only [fieldNames, List.mem_cons, List.not_mem_nil, or_false] at hmem
    rcases hmem with rfl | rfl | rfl | rfl | rfl | rfl <;> simp [hmap] <;> tauto

/-- A child without the name of a field has to be one that can be passed over. -/
lemma readChild_of_not_mem (h : ∀ field ∈ fieldNames, node.name? ≠ some field.toList) :
    readChild f node = (skip node).map fun _ => f := by
  cases node with
  | text content => rw [readChild]
  | element name attributes children closed =>
    simp only [fieldNames, List.forall_mem_cons, Node.name?, ne_eq, Option.some_inj] at h
    obtain ⟨hversion, hwidth, hheight, haltitude, hfactor, hmap, -⟩ := h
    rw [readChild, readField, if_neg hversion, if_neg hwidth, if_neg hheight, if_neg haltitude,
      if_neg hfactor, if_neg hmap]
    cases skip (.element name attributes children closed) <;> rfl

lemma takes_of_not_mem (h : ∀ field ∈ fieldNames, node.name? ≠ some field.toList) :
    Takes f [node] f' ↔ f = f' := by
  have hnone {α : Type} {field : String} {read : Node → Except SchemaFault α} {held : Option α}
      (hmem : field ∈ fieldNames) : takeField field read held node = .ok held :=
    if_neg (h field hmem)
  cases f
  cases f'
  rw [takes_singleton, hnone (by decide), hnone (by decide), hnone (by decide), hnone (by decide),
    hnone (by decide), hnone (by decide)]
  simp

/-- What one child does to the fields. -/
lemma readChild_eq_ok_iff :
    readChild f node = .ok f' ↔ Passes fieldNames node ∧ Takes f [node] f' := by
  by_cases hfield : ∃ field ∈ fieldNames, node.name? = some field.toList
  · obtain ⟨field, hmem, hname⟩ := hfield
    have hpasses : Passes fieldNames node := .inl ⟨field, hmem, hname⟩
    rw [readChild_eq_ok_iff_of_mem hmem hname, and_iff_right hpasses]
  · have hother (field) (hmem : field ∈ fieldNames) : node.name? ≠ some field.toList := fun hname =>
      hfield ⟨field, hmem, hname⟩
    rw [readChild_of_not_mem hother, map_skip_eq_ok_iff, takes_of_not_mem hother, Passes,
      or_iff_right hfield]

/-- What all children do to the fields, whatever their order is. -/
lemma foldlM_readChild_eq_ok_iff : nodes.foldlM readChild f = .ok f' ↔
    (∀ node ∈ nodes, Passes fieldNames node) ∧ Takes f nodes f' := by
  induction nodes generalizing f with
  | nil =>
    rw [takes_nil]
    change Except.ok f = Except.ok f' ↔ _
    simp
  | cons node nodes ih =>
    rw [List.foldlM_cons, bind_eq_ok_iff, takes_cons, List.forall_mem_cons]
    simp only [readChild_eq_ok_iff, ih]
    exact ⟨fun ⟨f₁, ⟨hnode, htake⟩, hnodes, htakes⟩ => ⟨⟨hnode, hnodes⟩, f₁, htake, htakes⟩,
      fun ⟨⟨hnode, hnodes⟩, f₁, htake, htakes⟩ => ⟨f₁, ⟨hnode, htake⟩, hnodes, htakes⟩⟩

/-! ### The package of a document -/

/-- The fields of a package with none missing. -/
def fields (p : Package) : PackageFields :=
  ⟨some p.version, some p.width, some p.height, some p.altitude, some p.factor, some p.map⟩

lemma ofFields_eq_ok_iff : ofFields f = .ok p ↔ f = p.fields := by
  have hrequired {α : Type} {field : String} {held : Option α} {value : α} :
      readRequired field held = .ok value ↔ held = some value := by
    cases held <;> simp [readRequired]
  have hpure {q : Package} : (pure q : Except SchemaFault Package) = .ok p ↔ q = p := by
    simp [pure, Except.pure]
  cases f
  cases p
  simp only [ofFields, bind_eq_ok_iff, hrequired, hpure, fields, PackageFields.mk.injEq,
    Package.mk.injEq]
  constructor
  · rintro ⟨_, rfl, _, rfl, _, rfl, _, rfl, _, rfl, _, rfl, rfl, rfl, rfl, rfl, rfl, rfl⟩
    exact ⟨rfl, rfl, rfl, rfl, rfl, rfl⟩
  · rintro ⟨rfl, rfl, rfl, rfl, rfl, rfl⟩
    exact ⟨_, rfl, _, rfl, _, rfl, _, rfl, _, rfl, _, rfl, rfl, rfl, rfl, rfl, rfl, rfl⟩

/-- With no field known yet, the children of an element make a package if they hold it. -/
lemma holds_iff : Holds nodes p ↔ (∀ node ∈ nodes, Passes fieldNames node) ∧
    Takes ⟨none, none, none, none, none, none⟩ nodes p.fields := by
  constructor
  · rintro ⟨h₁, h₂, h₃, h₄, h₅, h₆, hothers⟩
    exact ⟨hothers, foldlM_takeField_none.mpr h₁, foldlM_takeField_none.mpr h₂,
      foldlM_takeField_none.mpr h₃, foldlM_takeField_none.mpr h₄, foldlM_takeField_none.mpr h₅,
      foldlM_takeField_none.mpr h₆⟩
  · rintro ⟨hothers, h₁, h₂, h₃, h₄, h₅, h₆⟩
    exact ⟨foldlM_takeField_none.mp h₁, foldlM_takeField_none.mp h₂, foldlM_takeField_none.mp h₃,
      foldlM_takeField_none.mp h₄, foldlM_takeField_none.mp h₅, foldlM_takeField_none.mp h₆, hothers⟩

lemma ofElement_eq_ok_iff :
    ofElement node = .ok p ↔ ∃ nodes, IsRecord node nodes ∧ Holds nodes p := by
  rw [ofElement, bind_eq_ok_iff]
  simp only [ofFields_eq_ok_iff, exists_eq_right, readRecord_eq_ok_iff, foldlM_readChild_eq_ok_iff,
    holds_iff]

variable {held held' : Option Package}

lemma readRootChild_eq_ok_iff : readRootChild held node = .ok held' ↔
    Passes [name] node ∧ takeField name ofElement held node = .ok held' := by
  cases node with
  | text content =>
    rw [readRootChild, map_skip_eq_ok_iff]
    simp [Passes, takeField, Node.name?]
  | element found attributes children closed =>
    rw [readRootChild]
    split_ifs with hname
    · simp [Passes, takeField, Node.name?, hname]
    · rw [map_skip_eq_ok_iff]
      simp [Passes, takeField, Node.name?, hname]

lemma foldlM_readRootChild_eq_ok_iff : nodes.foldlM readRootChild held = .ok held' ↔
    (∀ node ∈ nodes, Passes [name] node) ∧
      nodes.foldlM (takeField name ofElement) held = .ok held' := by
  induction nodes generalizing held with
  | nil => simp
  | cons node nodes ih =>
    rw [List.foldlM_cons, List.foldlM_cons, bind_eq_ok_iff, bind_eq_ok_iff, List.forall_mem_cons]
    simp only [readRootChild_eq_ok_iff, ih]
    exact ⟨fun ⟨h₁, ⟨hnode, htake⟩, hnodes, htakes⟩ => ⟨⟨hnode, hnodes⟩, h₁, htake, htakes⟩,
      fun ⟨⟨hnode, hnodes⟩, h₁, htake, htakes⟩ => ⟨h₁, ⟨hnode, htake⟩, hnodes, htakes⟩⟩

lemma ofRoot_eq_ok_iff : ofRoot node = .ok p ↔ ∃ children, IsRecord node children ∧
    (∀ child ∈ children, Passes [name] child) ∧ HoldsOnce name ofElement children p := by
  have hrequired : ∀ held : Option Package, readRequired name held = .ok p ↔ held = some p := by
    rintro (_ | q) <;> simp [readRequired]
  rw [ofRoot, bind_eq_ok_iff]
  simp only [hrequired, exists_eq_right, readRecord_eq_ok_iff, foldlM_readRootChild_eq_ok_iff,
    foldlM_takeField_none]

variable {text : List Char}

/-- A document is read as the package that it describes, and as no other. -/
theorem readRoot_eq_ok_iff : Document.readRoot ofRoot text = .ok p ↔ p.Describes text := by
  have herror {x : Except SchemaFault Package} : x.mapError Error.schema = .ok p ↔ x = .ok p := by
    cases x <;> simp [Except.mapError]
  rw [Document.readRoot, Describes]
  split
  · next root hroot =>
    rw [herror, ofRoot_eq_ok_iff]
    simp only [hroot, Option.some_inj, HoldsOnce, ofElement_eq_ok_iff]
    constructor
    · rintro ⟨children, hrecord, hothers, node, hnode, nodes, hnodes, hholds⟩
      exact ⟨root, children, rfl, hrecord, hothers, node, nodes, hnode, hnodes, hholds⟩
    · rintro ⟨root', children, rfl, hrecord, hothers, node, nodes, hnode, hnodes, hholds⟩
      exact ⟨children, hrecord, hothers, node, hnode, nodes, hnodes, hholds⟩
  · next hroot => simp [hroot]

end Package

end Terrain
