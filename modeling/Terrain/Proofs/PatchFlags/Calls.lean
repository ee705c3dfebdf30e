import Terrain.Error
import Terrain.Proofs.PatchFlags

/-!
# Calls on flags

Flags are worked on through a handle, one call after another. A call answers, and leaves flags of as
many columns and rows.
-/

namespace Terrain

/-- What an operation answers. -/
inductive Reply where
  | done
  | dirty (flagged : Bool)
  | patches (flagged : List (Nat × Nat))
  | failed (e : Error)

/-- What can be done through a handle. -/
inductive FlagCall where
  | mark (x y : Nat)
  | read (x y : Nat) (clearing : Bool)
  | markAll
  | clear
  | drain

/-- The answer of a call, and the flags after it. -/
def FlagCall.answer (f : PatchFlags) : FlagCall → Except Error (Reply × PatchFlags)
  | mark x y => (fromStorage (f.mark? x y)).map fun f => (.done, f)
  | read x y clearing =>
    (fromStorage (f.read? x y clearing)).map fun (flagged, f) => (.dirty flagged, f)
  | markAll => .ok (.done, f.markAll)
  | clear => .ok (.done, f.clear)
  | drain => .ok (.patches f.drain.1, f.drain.2)

lemma FlagCall.dims_answer {f f' : PatchFlags} {c : FlagCall} {reply : Reply}
    (h : c.answer f = .ok (reply, f')) : f'.columns = f.columns ∧ f'.rows = f.rows := by
  cases c with
  | mark x y =>
    rw [answer, PatchFlags.mark?] at h
    split_ifs at h
    · cases h
      exact ⟨rfl, rfl⟩
    · cases h
  | read x y clearing =>
    rw [answer, PatchFlags.read?] at h
    cases hdirty : f.isDirty? x y with
    | none =>
      rw [hdirty] at h
      cases h
    | some flagged =>
      rw [hdirty] at h
      cases h
      cases clearing <;> exact ⟨rfl, rfl⟩
  | markAll | clear | drain =>
    cases h
    exact ⟨rfl, rfl⟩

end Terrain
