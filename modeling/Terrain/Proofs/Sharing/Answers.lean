import Terrain.Proofs.PatchFlags.Calls
import Terrain.Proofs.Surface.History

/-!
# Answers

An action on a surface answers, besides what it leaves of the surface. Whether an action loads other
terrain, and of what size, is told by what it reads.
-/

namespace Terrain

namespace Surface

variable {lib : Number.MathLibrary} {s s' : Surface}

/-- The answer of a load, and what it leaves. -/
def settle (s : Surface) (loaded : Logged Surface) : Reply × Surface :=
  match loaded.result with
  | .ok s' => (.done, s')
  | .error e => (.failed e, s)

namespace Action

/-- The answer of an action, and what it leaves of the surface. -/
def answer (lib : Number.MathLibrary) (s : Surface) : Action → Except Error (Reply × Surface)
  | edit e => (e.apply lib s).map fun s' => (.done, s')
  | readDirty x y clearing => (s.readDirty x y clearing).map fun (flagged, s') => (.dirty flagged, s')
  | readTainted x y => (s.readTainted x y).map fun (flagged, s') => (.dirty flagged, s')
  | markAll => .ok (.done, s.markAll)
  | clearFlags => .ok (.done, s.clearFlags)
  | drain => .ok (.patches s.drain.1, s.drain.2)
  | loadBlob code bytes => .ok (s.settle (s.loadBlob code bytes))
  | loadDocument text => .ok (s.settle (s.loadDocument text))

/-- What an action reads in place of the terrain, if it is a load. -/
def read? (h : Heights) : Action → Option (Logged HeightGrid)
  | loadBlob code bytes => some (Blob.decode h.cells.width h.cells.height h.altitude code bytes)
  | loadDocument text => some (Document.decode h.cells.width h.cells.height h.altitude text)
  | _ => none

/-- An action that loads other terrain. -/
def Loads (s : Surface) (a : Action) (s' : Surface) : Prop :=
  match a with
  | loadBlob code bytes => (s.loadBlob code bytes).result = .ok s'
  | loadDocument text => (s.loadDocument text).result = .ok s'
  | _ => False

/-- An action that loads terrain of another size. -/
def Resizes (s : Surface) (a : Action) : Prop :=
  ∃ s', a.Loads s s' ∧ ¬(s'.grid.width = s.grid.width ∧ s'.grid.height = s.grid.height)

/-- The answers belong to what the actions leave. -/
lemma answer_snd (lib : Number.MathLibrary) (s : Surface) (a : Action) :
    (a.answer lib s).map Prod.snd = a.apply lib s := by
  cases a with
  | edit e =>
    rw [answer, apply]
    cases e.apply lib s <;> rfl
  | readDirty x y clearing =>
    rw [answer, apply]
    cases s.readDirty x y clearing <;> rfl
  | readTainted x y =>
    rw [answer, apply]
    cases s.readTainted x y <;> rfl
  | markAll | clearFlags | drain => rfl
  | loadBlob code bytes =>
    rw [answer, apply, settle, afterLoad]
    cases (s.loadBlob code bytes).result <;> rfl
  | loadDocument text =>
    rw [answer, apply, settle, afterLoad]
    cases (s.loadDocument text).result <;> rfl

lemma exists_answer (hs : s.Addressable) (lib : Number.MathLibrary) (a : Action) :
    ∃ reply s', a.answer lib s = .ok (reply, s') ∧ s'.Addressable := by
  obtain ⟨s', hs', haddressable⟩ := hs.exists_apply lib a
  rw [← answer_snd] at hs'
  cases hanswer : a.answer lib s with
  | error e =>
    rw [hanswer] at hs'
    cases hs'
  | ok r =>
    rw [hanswer] at hs'
    cases hs'
    exact ⟨r.1, r.2, rfl, haddressable⟩

/-- A load answers by what it reads. -/
lemma answer_of_read? {a : Action} {read : Logged HeightGrid}
    (h : a.read? s.grid.toHeights = some read) :
    a.answer lib s = .ok (s.settle (read >>= fun g => pure (ofRead g))) := by
  cases a with
  | loadBlob | loadDocument =>
    cases h
    rfl
  | edit | readDirty | readTainted | markAll | clearFlags | drain => cases h

lemma loads_iff {a : Action} : a.Loads s s' ↔ ∃ read g,
    a.read? s.grid.toHeights = some read ∧ read.result = .ok g ∧ s' = ofRead g := by
  cases a with
  | loadBlob | loadDocument =>
    refine (result_ofRead_iff _).trans ⟨?_, ?_⟩
    · rintro ⟨g, hg, rfl⟩
      exact ⟨_, g, rfl, hg, rfl⟩
    · rintro ⟨_, g, hread, hg, rfl⟩
      cases hread
      exact ⟨g, hg, rfl⟩
  | edit | readDirty | readTainted | markAll | clearFlags | drain =>
    exact iff_of_false id fun ⟨_, _, h, _⟩ => by cases h

lemma not_dirty_of_loads {a : Action} (h : a.Loads s s') (p : Nat × Nat) : ¬s'.grid.Dirty p := by
  obtain ⟨-, g, -, -, rfl⟩ := loads_iff.mp h
  exact HeightGrid.not_dirty_clearFlags g p

end Action

end Surface

end Terrain
