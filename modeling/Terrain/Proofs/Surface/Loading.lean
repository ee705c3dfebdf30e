import Terrain.Proofs.Blob.Resize
import Terrain.Proofs.Document.Acceptance
import Terrain.Proofs.Document.Legacy
import Terrain.Proofs.Surface.Touch
import Terrain.Surface.Loading

/-!
# What is read

Every cell that a reader writes is in the storage, so a blob or a document is read or refused for what
it holds, or for its size. A region that was read has the size that was asked for, or one that a
document can name. Terrain that was read in place of an addressable surface is therefore addressable
again, and no patch of it is dirty.
-/

namespace Terrain

open HeightGrid

/-! ### Results -/

/-- A result with a property, or an error that is not that of an access outside of the storage. -/
def Yields {α : Type} (P : α → Prop) : Except Error α → Prop
  | .ok a => P a
  | .error e => e ≠ .outOfStorage

section Yields

variable {α β ε : Type} {P : α → Prop} {Q : β → Prop} {r : Except Error α}

lemma Yields.ne (h : Yields P r) : r ≠ .error .outOfStorage := by
  rintro rfl
  exact h rfl

lemma Yields.of_ok (h : Yields P r) {a : α} (hr : r = .ok a) : P a := by
  rw [hr] at h
  exact h

lemma Yields.mono {P' : α → Prop} (h : Yields P r) (hP : ∀ a, P a → P' a) : Yields P' r := by
  cases r with
  | error e => exact h
  | ok a => exact hP a h

lemma Yields.bind (h : Yields P r) {f : α → Except Error β} (hf : ∀ a, P a → Yields Q (f a)) :
    Yields Q (r.bind f) := by
  cases r with
  | error e => exact h
  | ok a => exact hf a h

/-- An error that tells the cause of another one. -/
lemma yields_mapError (r : Except ε α) {cause : ε → Error} (h : ∀ e, cause e ≠ .outOfStorage) :
    Yields (fun _ => True) (r.mapError cause) := by
  cases r with
  | error e => exact h e
  | ok a => trivial

end Yields

variable {width height altitude : Nat}

/-! ### Blobs -/

/-- The size of a region. -/
def HeightGrid.HasSize (width height : Nat) (g : HeightGrid) : Prop :=
  g.width = width ∧ g.height = height

lemma HeightGrid.Shows.hasSize {g : HeightGrid} {factor : Float32} {cell : Nat → Nat → Int32}
    (h : g.Shows width height altitude factor cell) : g.HasSize width height :=
  ⟨h.width_eq, h.height_eq⟩

/-- A reader that has found no fault goes by whether there can be a region of the size. -/
lemma HeightGrid.yields_of_fits {r : Except Error HeightGrid}
    (hfits : Fits width height → ∃ g, r = .ok g ∧ g.HasSize width height)
    (hlarge : ¬Fits width height → r = .error .uncountable) : Yields (HasSize width height) r := by
  by_cases fits : Fits width height
  · obtain ⟨g, hg, hsize⟩ := hfits fits
    rw [hg]
    exact hsize
  · rw [hlarge fits]
    simp [Yields]

lemma Compressed.yields_decode (width height altitude : Nat) (bytes : List UInt8) :
    Yields (HasSize width height) (decode width height altitude bytes).result := by
  match hfault : fault? bytes with
  | some e =>
    rw [result_decode, hfault]
    rw [fault?] at hfault
    split_ifs at hfault <;>
    · cases hfault
      simp [Yields]
  | none =>
    refine yields_of_fits (fun fits => ?_) fun hlarge => ?_
    · obtain ⟨g, hg, hfilled⟩ := exists_decode_filled hfault fits altitude
      exact ⟨g, hg, hfilled.shows_self.hasSize⟩
    · exact result_decode_of_not_fits hfault hlarge altitude

lemma Legacy.yields_decode (width height altitude : Nat) (bytes : List UInt8) :
    Yields (HasSize width height) (decode width height altitude bytes).result := by
  match hfault : fault? bytes with
  | some e =>
    rw [result_decode, hfault]
    rw [fault?] at hfault
    split_ifs at hfault
    cases hfault
    simp [Yields]
  | none =>
    refine yields_of_fits (fun fits => ?_) fun hlarge => ?_
    · obtain ⟨g, hg, hfresh⟩ := exists_decode hfault fits altitude
      exact ⟨g, hg, hfresh.hasSize⟩
    · exact result_decode_of_not_fits hfault hlarge altitude

lemma Blob.yields_decode (width height altitude : Nat) (code : Int32) (bytes : List UInt8) :
    Yields (HasSize width height) (decode width height altitude code bytes).result := by
  rw [result_decode]
  split_ifs
  · exact Compressed.yields_decode width height altitude bytes
  · exact Legacy.yields_decode width height altitude bytes

/-! ### Documents -/

lemma HeightGrid.yields_ofCompressedMap (map : List Int32) (factor : Float32)
    (width height altitude : Nat) :
    Yields (HasSize width height) (ofCompressedMap map factor width height altitude) := by
  rcases Nat.lt_or_ge map.length (width * height) with hshort | henough
  · rw [ofCompressedMap, if_pos hshort]
    simp [Yields]
  refine yields_of_fits (fun fits => ?_) fun hlarge => ?_
  · obtain ⟨g, hg, hfresh⟩ := exists_ofCompressedMap fits henough factor altitude
    exact ⟨g, hg, hfresh.hasSize⟩
  · exact ofCompressedMap_of_not_fits hlarge henough factor altitude

lemma LegacyDocument.yields_ofBytes (width height altitude : Nat) (bytes : List UInt8) :
    Yields (HasSize width height) (ofBytes width height altitude bytes) := by
  rcases Nat.lt_or_ge (bytes.length / 4) (width * height) with hshort | henough
  · rw [ofBytes_of_lt hshort]
    simp [Yields]
  refine yields_of_fits (fun fits => ?_) fun hlarge => ?_
  · obtain ⟨g, hg, hfresh⟩ := exists_ofBytes fits henough altitude
    exact ⟨g, hg, hfresh.hasSize⟩
  · exact ofBytes_of_not_fits hlarge henough altitude

namespace Document

lemma yields_detect (text : List Char) : Yields (fun _ => True) (DocumentLayout.detect text) := by
  rw [DocumentLayout.detect]
  induction Markup.events text with
  | nil => simp [DocumentLayout.ofEvents, Yields]
  | cons event rest ih =>
    cases event with
    | start name _ =>
      rw [DocumentLayout.ofEvents, DocumentLayout.ofRoot]
      split_ifs <;> simp [Yields]
    | malformed => simp [DocumentLayout.ofEvents, Yields]
    | _ => exact ih

lemma yields_readRoot {α : Type} (read : Markup.Node → Except SchemaFault α) (text : List Char) :
    Yields (fun _ => True) (readRoot read text) := by
  rw [readRoot]
  split
  · exact yields_mapError _ fun _ => by simp
  · simp [Yields]

/-- A region that was read from a document has the size that was asked for or one with coordinates. -/
lemma yields_decode (width height altitude : Nat) (text : List Char) :
    Yields (fun g => g.HasSize width height ∨ (g.width < 2 ^ 31 ∧ g.height < 2 ^ 31))
      (decode width height altitude text).result := by
  rw [decode, Logged.result_bind]
  refine (yields_detect text).bind fun layout _ => ?_
  cases layout with
  | legacy =>
    refine (yields_readRoot LegacyDocument.readData text).bind fun data _ => ?_
    refine (yields_mapError _ fun _ => by simp).bind fun bytes _ => ?_
    exact (LegacyDocument.yields_ofBytes width height altitude bytes).mono fun g => Or.inl
  | versioned =>
    rw [VersionedDocument.result_decode]
    refine (yields_readRoot Package.ofRoot text).bind fun p _ => ?_
    rw [Package.toGrid]
    split_ifs
    · simp [Yields]
    · refine (yields_ofCompressedMap _ _ _ _ _).mono fun g hg => Or.inr ?_
      exact ⟨hg.1 ▸ Package.toNat_toInt_lt _, hg.2 ▸ Package.toNat_toInt_lt _⟩
    · simp [Yields]

end Document

/-! ### Surfaces -/

namespace Surface

variable {s s' : Surface}

/-- A load goes through if what it reads does. -/
lemma result_ofRead_iff (read : Logged HeightGrid) :
    (read >>= fun g => pure (ofRead g)).result = .ok s' ↔
      ∃ g, read.result = .ok g ∧ s' = ofRead g := by
  rw [Logged.result_bind]
  constructor
  · intro h
    cases hread : read.result with
    | error e =>
      rw [hread] at h
      cases h
    | ok g =>
      rw [hread] at h
      exact ⟨g, rfl, (Except.ok.inj h).symm⟩
  · rintro ⟨g, hg, rfl⟩
    rw [hg]
    rfl

lemma not_dirty_of_ofRead {read : Logged HeightGrid}
    (h : (read >>= fun g => pure (ofRead g)).result = .ok s') (p : Nat × Nat) :
    ¬s'.grid.Dirty p := by
  obtain ⟨g, -, rfl⟩ := (result_ofRead_iff read).mp h
  exact HeightGrid.not_dirty_clearFlags g p

lemma yields_loadBlob (hs : s.Addressable) (code : Int32) (bytes : List UInt8) :
    Yields Addressable (s.loadBlob code bytes).result := by
  rw [loadBlob, Logged.result_bind]
  refine (Blob.yields_decode _ _ s.grid.altitude code bytes).bind fun g hg => ?_
  exact ⟨hg.1.trans_lt hs.width_lt, hg.2.trans_lt hs.height_lt⟩

lemma yields_loadDocument (hs : s.Addressable) (text : List Char) :
    Yields Addressable (s.loadDocument text).result := by
  rw [loadDocument, Logged.result_bind]
  refine (Document.yields_decode _ _ s.grid.altitude text).bind fun g hg => ?_
  rcases hg with hsame | hsmall
  · exact ⟨hsame.1.trans_lt hs.width_lt, hsame.2.trans_lt hs.height_lt⟩
  · exact ⟨hsmall.1, hsmall.2⟩

end Surface

end Terrain
