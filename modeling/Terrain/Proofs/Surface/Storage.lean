import Terrain.Proofs.Surface.Doubles
import Terrain.Proofs.Surface.Edit
import Terrain.Proofs.Surface.Loading

/-!
# Nothing is looked for outside of the storage

Every operation on a surface finds its cells and flags in the storage, whatever it is given, and every
division has something to divide by. Reading a blob or a document may fail, but not for that reason.
-/

namespace Terrain

open HeightGrid

/-! ### Masks -/

/-- Whether a mask allows a point, with the access to the cell of the point. -/
def Mask.allowsChecked (m : Mask) (p : Point) : Except Error Bool :=
  if m.cells.Contains p.x.toInt p.y.toInt then
    fromStorage (m.cells.at? p.x.toInt.toNat p.y.toInt.toNat)
  else .ok false

/-- A point that a mask contains has a cell in it. -/
lemma Mask.allowsChecked_eq (m : Mask) (p : Point) : m.allowsChecked p = .ok (m.allows p) := by
  rw [allowsChecked, allows, Grid.get?]
  split_ifs with h
  · obtain ⟨hx, hy, hwidth, hheight⟩ := h
    obtain ⟨allowed, hcell⟩ := Grid.exists_at?_eq_some (g := m.cells)
      (x := p.x.toInt.toNat) (y := p.y.toInt.toNat) (by omega) (by omega)
    rw [hcell]
    rfl
  · rfl

/-! ### Surfaces -/

namespace Surface

lemma exists_heightAt (s : Surface) (x y : Float32) : ∃ height, s.heightAt x y = .ok height := by
  rw [heightAt]
  split_ifs
  · exact exists_get s _ _
  · exact ⟨0, rfl⟩

lemma exists_eq_readDirty (s : Surface) (x y : Int32) (clearing : Bool) :
    ∃ r, s.readDirty x y clearing = .ok r := by
  obtain ⟨dirty, s', hread, -⟩ := exists_readDirty s x y clearing
  exact ⟨(dirty, s'), hread⟩

lemma ofDoubles_ne (doubles : Grid Float) (width height altitude : Nat) :
    ofDoubles doubles width height altitude ≠ .error .outOfStorage := by
  by_cases fits : Fits width height
  · obtain ⟨s, hs, -⟩ := exists_ofDoubles doubles fits altitude
    simp [hs]
  · simp [ofDoubles_of_not_fits doubles fits altitude]

/-- No operation on a surface whose sizes are coordinates reaches beyond the storage of its cells and
flags. Reading and writing cells, reading flags, merges and brushes go through with any points, numbers,
masks and other surfaces, whatever the library of elementary functions gives, and any rectangle of
doubles fits into any region that there can be. Loading a blob or a document either goes through or
fails for another reason, and so does every reader on its own, for a region of any size. -/
theorem operations_in_storage (s : Surface) (hs : s.Addressable) :
    (∀ x y, ∃ height, s.get x y = .ok height) ∧
    (∀ x y height, ∃ s', s.set x y height = .ok s') ∧
    (∀ x y clearing, ∃ r, s.readDirty x y clearing = .ok r) ∧
    (∀ x y, ∃ r, s.readTainted x y = .ok r) ∧
    (∀ x y, ∃ height, s.heightAt x y = .ok height) ∧
    (∀ lib source d rotation pivot,
      ∃ s', (s.merge lib source d rotation pivot).result = .ok s') ∧
    (∀ lib mask stroke, ∃ s', Raise.apply lib s mask stroke = .ok s') ∧
    (∀ reference mask stroke, ∃ s', Revert.apply reference s mask stroke = .ok s') ∧
    (∀ (mask : Mask) p, mask.allowsChecked p = .ok (mask.allows p)) ∧
    (∀ doubles width height altitude,
      (Fits width height → ∃ s', ofDoubles doubles width height altitude = .ok s') ∧
        ofDoubles doubles width height altitude ≠ .error .outOfStorage) ∧
    (∀ code bytes, (s.loadBlob code bytes).result ≠ .error .outOfStorage) ∧
    (∀ text, (s.loadDocument text).result ≠ .error .outOfStorage) ∧
    (∀ width height altitude code bytes,
      (Blob.decode width height altitude code bytes).result ≠ .error .outOfStorage) ∧
    (∀ width height altitude text,
      (Document.decode width height altitude text).result ≠ .error .outOfStorage) ∧
    ∀ map factor width height altitude,
      ofCompressedMap map factor width height altitude ≠ .error .outOfStorage := by
  refine ⟨exists_get s, ?_, exists_eq_readDirty s, fun x y => exists_eq_readDirty s x y true,
    exists_heightAt s, ?_, ?_, ?_, Mask.allowsChecked_eq, ?_, ?_, ?_, ?_, ?_, ?_⟩
  · intro x y height
    exact Edit.exists_apply hs .nearest (.set x y height)
  · intro lib source d rotation pivot
    exact Edit.exists_apply hs lib (.merge source d rotation pivot)
  · intro lib mask stroke
    exact Edit.exists_apply hs lib (.raise mask stroke)
  · intro reference mask stroke
    exact Edit.exists_apply hs .nearest (.revert reference mask stroke)
  · intro doubles width height altitude
    refine ⟨fun fits => ?_, ofDoubles_ne doubles width height altitude⟩
    obtain ⟨s', hs', -⟩ := exists_ofDoubles doubles fits altitude
    exact ⟨s', hs'⟩
  · intro code bytes
    exact (yields_loadBlob hs code bytes).ne
  · intro text
    exact (yields_loadDocument hs text).ne
  · intro width height altitude code bytes
    exact (Blob.yields_decode width height altitude code bytes).ne
  · intro width height altitude text
    exact (Document.yields_decode width height altitude text).ne
  · intro map factor width height altitude
    exact (yields_ofCompressedMap map factor width height altitude).ne

/-- A surface without cells has nothing to divide by, and is not asked to divide. -/
theorem operations_in_storage_empty : (∃ height, (ofSize 0 0).get 0 0 = .ok height) ∧
    ∃ s', Raise.apply .nearest (ofSize 0 0) (.all (ofSize 0 0)) ⟨0, 0, 5, 1⟩ = .ok s' := by
  obtain ⟨hget, -, -, -, -, -, hraise, -⟩ :=
    operations_in_storage (ofSize 0 0) ⟨by decide, by decide⟩
  exact ⟨hget 0 0, hraise .nearest (.all (ofSize 0 0)) ⟨0, 0, 5, 1⟩⟩

end Surface

end Terrain
