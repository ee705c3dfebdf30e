import Mathlib.Logic.Basic
import Terrain.Sharing

/-!
# The store

What stands behind a reference, after every operation on the store. A reference to new flags is none
that was in use, so taking up new flags changes nothing behind the old references.
-/

namespace Terrain

namespace FlagStore

variable {s t : FlagStore} {ref other : FlagRef} {flags flags' : PatchFlags}

/-- A store is known by what stands behind its references. -/
lemma ext_get? (h : ∀ ref, s.get? ref = t.get? ref) : s = t := by
  obtain ⟨held⟩ := s
  obtain ⟨held'⟩ := t
  exact congrArg mk (Array.ext_getElem? fun i => h ⟨i⟩)

lemma get?_set_eq (s : FlagStore) (ref other : FlagRef) (flags : PatchFlags) :
    (s.set ref flags).get? other =
      if ref = other then (s.get? other).map fun _ => flags else s.get? other := by
  rw [get?_set]
  by_cases href : ref = other
  · subst href
    by_cases hlt : ref.index < s.held.size
    · simp [hlt, get?]
    · simp [hlt, get?]
  · simp [href]

lemma get?_clear (s : FlagStore) (ref other : FlagRef) :
    (s.clear ref).get? other =
      if ref = other then (s.get? other).map .clear else s.get? other := by
  obtain ⟨i⟩ := ref
  obtain ⟨j⟩ := other
  change (s.held.modify i .clear)[j]? = _
  rw [Array.getElem?_modify]
  simp only [FlagRef.mk.injEq]
  rfl

/-- The reference to new flags is none that was in use. -/
lemma get?_insert (s : FlagStore) (flags : PatchFlags) (ref : FlagRef) :
    (s.insert flags).2.get? ref =
      if ref = (s.insert flags).1 then some flags else s.get? ref := by
  obtain ⟨i⟩ := ref
  change (s.held.push flags)[i]? = if FlagRef.mk i = ⟨s.held.size⟩ then _ else _
  rw [Array.getElem?_push]
  simp only [FlagRef.mk.injEq]
  rfl

lemma insert_set_fst (s : FlagStore) (ref : FlagRef) (flags flags' : PatchFlags) :
    ((s.set ref flags).insert flags').1 = (s.insert flags').1 :=
  congrArg FlagRef.mk (Array.size_setIfInBounds)

lemma insert_ne (h : s.get? ref = some flags) (flags' : PatchFlags) :
    (s.insert flags').1 ≠ ref := by
  rintro rfl
  exact absurd (Array.getElem?_eq_some_iff.mp h).1 (Nat.lt_irrefl _)

end FlagStore

/-- Clear flags are known by the numbers of their columns and rows. -/
lemma PatchFlags.clear_eq {f g : PatchFlags} (hcolumns : f.columns = g.columns)
    (hrows : f.rows = g.rows) : f.clear = g.clear := by
  obtain ⟨columns, rows, flags, hf⟩ := f
  obtain ⟨columns', rows', flags', hg⟩ := g
  dsimp only at hcolumns hrows
  subst hcolumns hrows
  have hlength : flags.length = flags'.length := hf.trans hg.symm
  simp only [clear, withFlags, Bitset.clear, hlength]

end Terrain
