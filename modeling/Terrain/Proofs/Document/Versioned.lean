import Terrain.Proofs.Document.Layout
import Terrain.Proofs.Document.Package
import Terrain.Proofs.HeightGrid
import Terrain.Proofs.Number.Shortest

/-!
# Reading back a versioned document

A package is found in its document with all its fields, whatever its sizes are. A region of whole
patches makes a package that is accepted, so it comes back as it was.
-/

namespace Terrain

open HeightGrid Markup

namespace Package

/-! ### Writing -/

/-- Signs, points and digits need no care in a document. -/
lemma isPlain_of_number {text : List Char}
    (h : ∀ c ∈ text, c = '-' ∨ c = '.' ∨ Number.isDigit c = true) : IsPlain text := by
  intro c hc
  obtain rfl | rfl | hdigit := h c hc
  · decide
  · decide
  · have hname : c.isAlphanum = true := by simp [Char.isAlphanum, ← Number.isDigit_eq, hdigit]
    refine ⟨?_, ?_, not_isBlank_of_isAlphanum hname⟩ <;> rintro rfl <;>
      exact absurd hdigit (by decide)

lemma isPlain_integerText (n : Int) : IsPlain (Number.integerText n) :=
  isPlain_of_number fun _ hc => (Number.mem_integerText hc).imp_right Or.inr

lemma isPlain_singleText {x : Float32} {s : Bool} {m : Nat} {e : Int}
    (h : Number.ofSingle x = .finite s m e) : IsPlain (Number.singleText x).toList := by
  rw [Number.singleText, h]
  exact isPlain_of_number fun _ hc => Number.Decimal.mem_positional hc

/-- The element of an integer. -/
def integerNode (name : String) (n : Int32) : Node :=
  leaf name.toList (Number.integerText n.toInt)

/-- The element of a map, with one element for each integer. -/
def mapNode (map : List Int32) : Node :=
  .element "Map".toList [] (map.map (integerNode itemName)) true

/-- The elements of the fields of a package. -/
def children (p : Package) : List Node :=
  [integerNode "Version" p.version, integerNode "SizeX" p.width, integerNode "SizeY" p.height,
    integerNode "SizeZ" p.altitude,
    leaf "CompressionFactor".toList (Number.singleText p.factor).toList, mapNode p.map]

lemma writes_integerElement {name : String} (hname : IsName name.toList) (n : Int32) :
    Writes (integerElement name n) [integerNode name n] :=
  .leaf hname (isPlain_integerText _)

lemma writes_mapElement (map : List Int32) : Writes (mapElement map) [mapNode map] := by
  rw [mapElement]
  split_ifs with hempty
  · rw [List.isEmpty_iff.mp hempty]
    exact .closed (by decide : IsName "Map".toList)
  · exact .element (by decide) (.flatMap fun n _ => writes_integerElement (by decide) n)

variable {p : Package}

/-- A factor is written if it is a number. -/
lemma writes_toElement {s : Bool} {m : Nat} {e : Int}
    (h : Number.ofSingle p.factor = .finite s m e) :
    Writes p.toElement [.element name.toList [] p.children true] := by
  have hversion := writes_integerElement (by decide : IsName "Version".toList) p.version
  have hwidth := writes_integerElement (by decide : IsName "SizeX".toList) p.width
  have hheight := writes_integerElement (by decide : IsName "SizeY".toList) p.height
  have haltitude := writes_integerElement (by decide : IsName "SizeZ".toList) p.altitude
  have hfactor := Writes.leaf (by decide : IsName "CompressionFactor".toList) (isPlain_singleText h)
  refine .element (by decide) ?_
  exact ((((hversion.append hwidth).append hheight).append haltitude).append hfactor).append
    (writes_mapElement p.map)

/-! ### Reading a map -/

lemma readValue_integerNode (name : String) (n : Int32) :
    readValue Number.readInt32? (integerNode name n) = .ok n :=
  readValue_leaf name.toList (Number.readInt32?_integerText n)

lemma readItem_integerNode (name : String) (n : Int32) : readItem (integerNode name n) = .ok n :=
  readValue_integerNode name n

/-- The next integer of a map may come: the elements so far stand next to it, or there are none. -/
def MapReading.IsOpen (m : MapReading) : Prop := m.run = some itemName.toList ∨ m.met = false

lemma readMapChild_integerNode {m : MapReading} (h : m.IsOpen) (n : Int32) :
    readMapChild m (integerNode itemName n) = .ok ⟨n :: m.items, some itemName.toList, true⟩ := by
  have hadd : m.add itemName.toList (integerNode itemName n) =
      .ok ⟨n :: m.items, some itemName.toList, true⟩ := by
    rw [MapReading.add, readItem_integerNode]
    rfl
  have hname : localName itemName.toList = itemName.toList := by decide
  have hchild : readMapChild m (integerNode itemName n) =
      if m.run = some itemName.toList then m.add itemName.toList (integerNode itemName n)
      else if localName itemName.toList = itemName.toList then
        if m.met then .error (.duplicate itemName)
        else m.add itemName.toList (integerNode itemName n)
      else (skip (integerNode itemName n)).map fun _ => { m with run := none } := rfl
  rw [hchild, hadd]
  rcases h with hrun | hmet
  · rw [if_pos hrun]
  · simp [hname, hmet]

lemma foldlM_integerNodes {m : MapReading} (h : m.IsOpen) (map : List Int32) :
    ∃ m', (map.map (integerNode itemName)).foldlM readMapChild m = .ok m' ∧
      m'.items = map.reverse ++ m.items := by
  induction map generalizing m with
  | nil => exact ⟨m, rfl, rfl⟩
  | cons n map ih =>
    -- behind an integer the run goes on by its name, however it began
    obtain ⟨m', hm', hitems⟩ := ih (m := ⟨n :: m.items, some itemName.toList, true⟩) (.inl rfl)
    refine ⟨m', ?_, ?_⟩
    · rw [List.map_cons, foldlM_cons_of_ok (readMapChild_integerNode h n), hm']
    · rw [hitems, List.reverse_cons, List.append_assoc]
      rfl

lemma readMap_mapNode (map : List Int32) : readMap (mapNode map) = .ok map := by
  obtain ⟨m, hm, hitems⟩ := foldlM_integerNodes (m := ⟨[], none, false⟩) (.inr rfl) map
  rw [readMap, mapNode, readRecord_element, hm]
  change Except.ok m.items.reverse = _
  rw [hitems, List.append_nil, List.reverse_reverse]

/-! ### Reading a package -/

/-- The elements that are written for a package hold it. -/
lemma holds_children
    (hfactor : Number.readSingle? (Number.singleText p.factor).toList = some p.factor) :
    Holds p.children p where
  version := ⟨integerNode "Version" p.version, rfl, readValue_integerNode _ _⟩
  width := ⟨integerNode "SizeX" p.width, rfl, readValue_integerNode _ _⟩
  height := ⟨integerNode "SizeY" p.height, rfl, readValue_integerNode _ _⟩
  altitude := ⟨integerNode "SizeZ" p.altitude, rfl, readValue_integerNode _ _⟩
  factor := ⟨leaf "CompressionFactor".toList (Number.singleText p.factor).toList, rfl,
    readValue_leaf _ hfactor⟩
  map := ⟨mapNode p.map, rfl, readMap_mapNode _⟩
  others := by
    simp only [children, List.forall_mem_cons]
    exact ⟨.inl ⟨"Version", by decide, rfl⟩, .inl ⟨"SizeX", by decide, rfl⟩,
      .inl ⟨"SizeY", by decide, rfl⟩, .inl ⟨"SizeZ", by decide, rfl⟩,
      .inl ⟨"CompressionFactor", by decide, rfl⟩, .inl ⟨"Map", by decide, rfl⟩,
      fun _ h => absurd h List.not_mem_nil⟩

/-- A package is found in its document. -/
theorem describes_toElement {s : Bool} {m : Nat} {e : Int}
    (h : Number.ofSingle p.factor = .finite s m e) : p.Describes (Document.declaration ++
      Document.element DocumentLayout.versioned.root p.toElement) := by
  have hroot := (writes_toElement h).root?_element (DocumentLayout.isName_root .versioned)
  rw [← Document.body_declaration (Document.element _ _)] at hroot
  refine ⟨_, _, hroot, ⟨_, _, rfl, rfl⟩, fun child hchild => ?_, _, p.children, rfl,
    ⟨_, _, rfl, rfl⟩, holds_children (Number.readSingle?_singleText h)⟩
  rw [List.mem_singleton.mp hchild]
  exact .inl ⟨name, List.mem_cons_self, rfl⟩

/-! ### The region of a package -/

/-- A package of whole patches with a proper factor is judged by the number of its heights. -/
lemma toGrid_eq_ofCompressedMap (hwidth : IsSize p.width) (hheight : IsSize p.height)
    (hfinite : p.factor.isFinite = true) (hpos : 0 < p.factor) :
    p.toGrid = ofCompressedMap p.map p.factor p.width.toInt.toNat p.height.toInt.toNat
      p.altitude.toInt.toNat := by
  have hfactor : ¬(!(p.factor.isFinite && 0 < p.factor)) = true := by simp [hfinite, hpos]
  rw [toGrid, if_neg (not_not.mpr ⟨hwidth, hheight⟩), if_neg hfactor]

lemma isSize_ofNat {n : Nat} (hn : n < 2 ^ 31) (hpatch : n % patchSize = 0) :
    IsSize (Int32.ofNat n) :=
  ⟨Int32.not_lt.mp (not_ofNat_lt_zero hn), by rw [toNat_toInt_ofNat hn, hpatch]⟩

variable {g : HeightGrid}

/-- The package of a region of whole patches makes the region. -/
lemma exists_toGrid_ofGrid (hwidth : g.width % patchSize = 0) (hheight : g.height % patchSize = 0)
    (hw : g.width < 2 ^ 31) (hh : g.height < 2 ^ 31) (haltitude : g.altitude < 2 ^ 31)
    (hpos : 0 < g.factor) (hfinite : g.factor.isFinite = true) :
    ∃ r, (ofGrid g).toGrid = .ok r ∧
      r.IsFresh g.width g.height g.altitude g.factor g.storedAt := by
  rw [toGrid_eq_ofCompressedMap (p := ofGrid g) (isSize_ofNat hw hwidth) (isSize_ofNat hh hheight)
    hfinite hpos]
  simp only [ofGrid, toNat_toInt_ofNat hw, toNat_toInt_ofNat hh, toNat_toInt_ofNat haltitude]
  exact g.shows_self.exists_ofCompressedMap g.factor g.altitude

end Package

namespace VersionedDocument

lemma result_decode (text : List Char) :
    (decode text).result = (Document.readRoot Package.ofRoot text).bind Package.toGrid := by
  rw [decode]
  simp only [Logged.result_bind, Logged.result_ofExcept, Logged.result_noteIf]
  rfl

end VersionedDocument

namespace Document

variable {g : HeightGrid}

lemma encode_of_not_hasLegacySize (h : ¬g.HasLegacySize) :
    encode g = declaration ++ VersionedDocument.encode g := by
  have hlayout : DocumentLayout.ofGrid g = .versioned := if_neg h
  rw [encode, hlayout]

lemma result_decode_of_versioned {text : List Char}
    (h : DocumentLayout.detect text = .ok .versioned) (width height altitude : Nat) :
    (decode width height altitude text).result = (VersionedDocument.decode text).result := by
  rw [decode, h]
  rfl

/-- A region of whole patches, but for the legacy size, is written in the versioned layout and comes
back as it was, whatever region it is read into. -/
theorem decode_encode_versioned (g : HeightGrid) (width height altitude : Nat)
    (hwidth : g.width % patchSize = 0) (hheight : g.height % patchSize = 0)
    (hw : g.width < 2 ^ 31) (hh : g.height < 2 ^ 31) (haltitude : g.altitude < 2 ^ 31)
    (hsize : ¬g.HasLegacySize) (hpos : 0 < g.factor) (hfinite : g.factor.isFinite = true) :
    DocumentLayout.detect (encode g) = .ok .versioned ∧
      ∃ r, (decode width height altitude (encode g)).result = .ok r ∧
        r.IsFresh g.width g.height g.altitude g.factor g.storedAt ∧ (r == g) = true := by
  obtain ⟨m, e, hfactor, -⟩ := Number.exists_of_pos hpos hfinite
  have hpackage : Number.ofSingle (Package.ofGrid g).factor = .finite false m e := hfactor
  have hdetect : DocumentLayout.detect (encode g) = .ok .versioned := by
    rw [encode_of_not_hasLegacySize hsize]
    exact DocumentLayout.detect_element .versioned (Package.writes_toElement hpackage)
  obtain ⟨r, hr, hfresh⟩ :=
    Package.exists_toGrid_ofGrid hwidth hheight hw hh haltitude hpos hfinite
  refine ⟨hdetect, r, ?_, hfresh, beq_iff.mpr ⟨hfresh.altitude_eq, ?_, ?_⟩⟩
  · rw [result_decode_of_versioned hdetect, VersionedDocument.result_decode,
      encode_of_not_hasLegacySize hsize, VersionedDocument.encode,
      Package.readRoot_eq_ok_iff.mpr (Package.describes_toElement hpackage), Except.bind, hr]
  · rw [hfresh.factor_eq]
    exact (Number.ofSingle_beq_iff ⟨_, _, _, hfactor, rfl⟩ ⟨_, _, _, hfactor, rfl⟩).mpr rfl
  · exact (hfresh.toShows.cells_eq_iff g.shows_self).mpr fun x y _ _ => rfl

/-- A region at the lowest height, with a factor that no short binary fraction is. -/
def lowest : HeightGrid := .ofHeights ⟨4096, 0.1, .replicate 16 32 Int32.minValue, by decide⟩

theorem decode_encode_versioned_lowest :
    DocumentLayout.detect (encode lowest) = .ok .versioned ∧
      ∃ r, (decode 256 256 0 (encode lowest)).result = .ok r ∧ (r == lowest) = true := by
  obtain ⟨hdetect, r, hr, -, hsame⟩ := decode_encode_versioned lowest 256 256 0
    (by decide) (by decide) (by decide) (by decide) (by decide) (fun h => absurd h.1 (by decide))
    (by decide +kernel) (by decide +kernel)
  exact ⟨hdetect, r, hr, hsame⟩

end Document

end Terrain
