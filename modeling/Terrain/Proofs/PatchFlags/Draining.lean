import Mathlib.Data.Finset.Prod
import Terrain.Proofs.Bitset.Lowest
import Terrain.Proofs.PatchFlags.Calls

/-!
# Draining what was marked

Flags are worked on by calls, one after another. Next to them goes a plain set of patches, to which
a mark adds a patch, from which a clearing read takes one, and which is emptied by a drain. The
flags always tell of that set: a drain lists it row by row, and a read at a cell of the grid tells
whether the patch of the cell belongs to it.
-/

namespace Terrain

/-! ### Calls on flags and on sets of patches -/

/-- The patch whose flag a cell is found at: for a cell of the grid it is the patch of the cell, and
to the right of the grid the rows go on. -/
def patchFoundAt (columns x y : Nat) : Nat × Nat :=
  let patch := y / patchSize * columns + x / patchSize
  (patch % columns, patch / columns)

lemma patchFoundAt_of_lt {columns x : Nat} (hx : x / patchSize < columns) (y : Nat) :
    patchFoundAt columns x y = patchAt x y :=
  Prod.ext (Grid.flat_mod hx) (Grid.flat_div hx)

namespace FlagCall

/-- The flags after a call. A call that fails changes nothing. -/
def after (f : PatchFlags) (c : FlagCall) : PatchFlags :=
  match c.answer f with
  | .ok (_, f') => f'
  | .error _ => f

/-- What a call makes of a set of flagged patches. -/
def effect (columns rows : Nat) (flagged : Finset (Nat × Nat)) : FlagCall → Finset (Nat × Nat)
  | mark x y => insert (patchAt x y) flagged
  | read x y clearing => if clearing then flagged.erase (patchFoundAt columns x y) else flagged
  | markAll => .range columns ×ˢ .range rows
  | clear | drain => ∅

end FlagCall

namespace PatchFlags

/-- The flags after one call after another. -/
def run (f : PatchFlags) (calls : List FlagCall) : PatchFlags := calls.foldl FlagCall.after f

/-- The patches that are flagged after one call after another on clear flags. -/
def flaggedBy (columns rows : Nat) (calls : List FlagCall) : Finset (Nat × Nat) :=
  calls.foldl (FlagCall.effect columns rows) ∅

/-- A patch comes before another one row by row. -/
def Precedes (p q : Nat × Nat) : Prop := p.2 < q.2 ∨ (p.2 = q.2 ∧ p.1 < q.1)

variable {f : PatchFlags} {x y x' y' : Nat} {p : Nat × Nat} {flagged : Finset (Nat × Nat)}

/-! ### What a drain lists -/

lemma precedes_coordinates (f : PatchFlags) {i j : Nat} (h : i < j) :
    Precedes (f.coordinates i) (f.coordinates j) := by
  have hi := Nat.div_add_mod i f.columns
  have hj := Nat.div_add_mod j f.columns
  rcases (Nat.div_le_div_right (c := f.columns) h.le).lt_or_eq with hlt | heq
  · exact .inl hlt
  · refine .inr ⟨heq, ?_⟩
    rw [heq] at hi
    simp only [coordinates]
    omega

lemma pairwise_drain (f : PatchFlags) : f.drain.1.Pairwise Precedes :=
  List.pairwise_map.mpr (f.flags.pairwise_toList.imp f.precedes_coordinates)

lemma length_drain (f : PatchFlags) : f.drain.1.length = f.count :=
  (List.length_map _).trans f.flags.length_toList

/-- The patches are those of the bits that are left to be the lowest one of a word. -/
lemma drain_eq_peel (f : PatchFlags) : f.drain.1 = f.flags.peel.map f.coordinates := by
  rw [Bitset.peel_eq_toList]
  rfl

lemma count_clear (f : PatchFlags) : f.clear.count = 0 := Bitset.count_empty

lemma drain_clear (f : PatchFlags) : f.clear.drain = ([], f.clear) :=
  congrArg (fun bits => (bits.map f.coordinates, f.clear)) Bitset.toList_empty

/-! ### Flags and the set of patches -/

/-- The flags tell of a set of patches, and no bit without a patch is set. -/
structure Tracks (f : PatchFlags) (flagged : Finset (Nat × Nat)) : Prop where
  within : f.flags.Within
  mem_iff : ∀ p, p ∈ flagged ↔ f.Flagged p

lemma tracks_new {width height : Nat} (fits : Fits width height) :
    (new width height fits).Tracks ∅ where
  within := Bitset.within_empty
  mem_iff := fun p => iff_of_false (Finset.notMem_empty p) (not_flagged_new p)

lemma tracks_clear (f : PatchFlags) : f.clear.Tracks ∅ where
  within := Bitset.within_empty
  mem_iff := fun p => iff_of_false (Finset.notMem_empty p) (not_flagged_clear f p)

lemma tracks_markAll (f : PatchFlags) :
    f.markAll.Tracks (.range f.columns ×ˢ .range f.rows) where
  within := Bitset.within_fill _
  mem_iff := by
    intro p
    rw [flagged_markAll, Finset.mem_product, Finset.mem_range, Finset.mem_range, Has]

lemma Tracks.mark (h : f.Tracks flagged) (hc : f.Has (patchAt x y)) :
    (f.mark x y).Tracks (insert (patchAt x y) flagged) where
  within := h.within.insert (bit_lt_length hc)
  mem_iff := by
    intro p
    rw [Finset.mem_insert, h.mem_iff, flagged_mark hc, or_comm]

lemma Tracks.clearAt (h : f.Tracks flagged) (x y : Nat) :
    (f.clearAt x y).Tracks (flagged.erase (patchFoundAt f.columns x y)) where
  within := h.within.erase _
  mem_iff := by
    intro p
    rw [Finset.mem_erase, h.mem_iff, flagged_clearAt_iff, and_comm]
    rfl

/-- A cell that can be counted and has no flag is not found at a flagged patch. -/
lemma Tracks.not_mem_of_isDirty? (h : f.Tracks flagged) (hcounted : f.patchOf x y < Grid.placeCount)
    (hnone : f.isDirty? x y = none) : patchFoundAt f.columns x y ∉ flagged := by
  rw [h.mem_iff]
  rintro ⟨-, hget⟩
  have hbit : f.bit (patchFoundAt f.columns x y) = f.patchOf x y := bit_coordinates _
  rw [isDirty?, if_pos hcounted] at hnone
  rw [hbit] at hget
  exact absurd (hnone.symm.trans hget) (by simp)

/-- A mark of a cell of the grid goes through. -/
lemma answer_mark (hc : f.Has (patchAt x y)) :
    (FlagCall.mark x y).answer f = .ok (.done, f.mark x y) := by
  have hmark : f.mark? x y = some (f.mark x y) := if_pos (finds_of_has hc)
  rw [FlagCall.answer, hmark]
  rfl

/-- A call that stays where cells can be counted, and marks cells of the grid only. -/
def Admits (f : PatchFlags) : FlagCall → Prop
  | .mark x y => f.Has (patchAt x y)
  | .read x y _ => f.patchOf x y < Grid.placeCount
  | _ => True

/-- One call: the flags go on to tell of the set, with as many columns and rows as before. -/
lemma Tracks.after (h : f.Tracks flagged) {c : FlagCall} (hc : f.Admits c) :
    (c.after f).Tracks (c.effect f.columns f.rows flagged) := by
  cases c with
  | mark x y =>
    rw [FlagCall.after, answer_mark hc]
    exact h.mark hc
  | read x y clearing =>
    rw [FlagCall.after, FlagCall.answer, read?, FlagCall.effect]
    cases hdirty : f.isDirty? x y with
    | none =>
      rw [Finset.erase_eq_of_notMem (h.not_mem_of_isDirty? hc hdirty), ite_self]
      exact h
    | some dirty =>
      cases clearing with
      | false => exact h
      | true => exact h.clearAt x y
  | markAll => exact tracks_markAll f
  | clear | drain => exact tracks_clear f

lemma dims_after (f : PatchFlags) (c : FlagCall) :
    (c.after f).columns = f.columns ∧ (c.after f).rows = f.rows := by
  rw [FlagCall.after]
  cases h : c.answer f with
  | error e => exact ⟨rfl, rfl⟩
  | ok r => exact FlagCall.dims_answer h

lemma dims_run (f : PatchFlags) (calls : List FlagCall) :
    (f.run calls).columns = f.columns ∧ (f.run calls).rows = f.rows := by
  induction calls generalizing f with
  | nil => exact ⟨rfl, rfl⟩
  | cons c rest ih =>
    obtain ⟨hcolumns, hrows⟩ := f.dims_after c
    obtain ⟨hcolumns', hrows'⟩ := ih (c.after f)
    exact ⟨hcolumns'.trans hcolumns, hrows'.trans hrows⟩

/-- Which calls are admitted depends on the sizes alone. -/
lemma admits_after {c c' : FlagCall} (h : f.Admits c') : (c.after f).Admits c' := by
  obtain ⟨hcolumns, hrows⟩ := f.dims_after c
  cases c' with
  | mark x y =>
    rw [Admits, Has, hcolumns, hrows]
    exact h
  | read x y clearing =>
    rw [Admits, patchOf, hcolumns]
    exact h
  | markAll | clear | drain => trivial

/-- A whole run. -/
lemma Tracks.run (h : f.Tracks flagged) {calls : List FlagCall} (hcalls : ∀ c ∈ calls, f.Admits c) :
    (f.run calls).Tracks (calls.foldl (FlagCall.effect f.columns f.rows) flagged) := by
  induction calls generalizing f flagged with
  | nil => exact h
  | cons c rest ih =>
    obtain ⟨hcolumns, hrows⟩ := f.dims_after c
    have hrest := ih (h.after (hcalls c List.mem_cons_self)) fun c' hmem =>
      admits_after (hcalls c' (List.mem_cons_of_mem _ hmem))
    rw [hcolumns, hrows] at hrest
    exact hrest

/-! ### What the calls answer -/

lemma Tracks.mem_drain (h : f.Tracks flagged) : p ∈ f.drain.1 ↔ p ∈ flagged := by
  rw [h.mem_iff]
  constructor
  · intro hp
    obtain ⟨i, hi, rfl⟩ := List.mem_map.mp hp
    have hget := Bitset.mem_toList.mp hi
    -- the bit is one of a patch, since no other is set
    have hlt := h.within i hget
    rw [f.length_flags] at hlt
    refine ⟨Grid.mod_lt_and_div_lt hlt, ?_⟩
    rw [bit_coordinates]
    exact hget
  · exact fun hp => (PatchFlags.mem_drain hp.1).mpr hp

lemma Tracks.isDirty? (h : f.Tracks flagged) (hc : f.Has (patchAt x y)) :
    f.isDirty? x y = some (decide (patchAt x y ∈ flagged)) := by
  obtain ⟨dirty, hdirty⟩ : ∃ dirty, f.isDirty? x y = some dirty :=
    ⟨_, (isDirty?_eq_get? hc).trans (Bitset.get?_eq_some (reaches_bit hc))⟩
  have hmem : patchAt x y ∈ flagged ↔ f.isDirty? x y = some true :=
    isDirty?_eq_get? hc ▸ (h.mem_iff _).trans (and_iff_right hc)
  rw [hdirty, Option.some_inj] at hmem
  rw [hdirty]
  simp [hmem]

/-- A read at a cell of the grid answers, whether or not it clears. -/
lemma Tracks.exists_answer_read (h : f.Tracks flagged) (hc : f.Has (patchAt x y))
    (clearing : Bool) : ∃ f', (FlagCall.read x y clearing).answer f =
      .ok (.dirty (decide (patchAt x y ∈ flagged)), f') := by
  rw [FlagCall.answer, read?, h.isDirty? hc]
  exact ⟨_, rfl⟩

/-- Cells of one patch are found at one flag. -/
lemma answer_read_congr (f : PatchFlags) (h : patchAt x y = patchAt x' y') (clearing : Bool) :
    (FlagCall.read x y clearing).answer f = (FlagCall.read x' y' clearing).answer f := by
  obtain ⟨hx, hy⟩ := Prod.mk.inj h
  have hpatch : f.patchOf x y = f.patchOf x' y' := by rw [patchOf, patchOf, hx, hy]
  simp only [FlagCall.answer, read?, PatchFlags.isDirty?, clearAt, hpatch]

/-- A mark is not seen at a cell of another patch. -/
lemma isDirty?_mark (hc : f.Has (patchAt x y)) (hc' : f.Has (patchAt x' y'))
    (h : patchAt x y ≠ patchAt x' y') : (f.mark x y).isDirty? x' y' = f.isDirty? x' y' := by
  have hne : f.patchOf x y ≠ f.bit (patchAt x' y') := fun hbit => h ((bit_inj hc hc').mp hbit)
  have hhas : (f.mark x y).Has (patchAt x' y') := hc'
  rw [isDirty?_eq_get? hhas, isDirty?_eq_get? hc']
  refine (Bitset.get?_insert f.flags (f.patchOf x y) (f.bit (patchAt x' y'))).trans ?_
  simp [hne]

/-- There are flags for every grid whose sizes stay a patch below `2 ^ 32` and which has less patches
than that. Let any calls be made on them, of which none marks a cell outside of the grid, or reads one
so far outside that the number of its patch needs more than 32 bits. A drain then lists just the
patches that are flagged by these calls, each of them once, row by row and in each row column by
column. They are patches of the grid and those that are found by taking away the lowest bit of a word
again and again, and there are as many of them as were counted before; afterwards none is counted, and
another drain lists nothing. A read at a cell of the grid finds its patch and tells whether it is
flagged, whether or not it clears the flag. Cells of one patch are read with the same answer, and a
mark of a cell goes through and does not change what is read at a cell of another patch. -/
theorem run_drains_marked (width height : Nat) (hwidth : width + 16 < 2 ^ 32)
    (hheight : height + 16 < 2 ^ 32) (hcount : patchCount width * patchCount height < 2 ^ 32)
    (calls : List FlagCall) (hmarks : ∀ x y, .mark x y ∈ calls → x < width ∧ y < height)
    (hreads : ∀ x y clearing, .read x y clearing ∈ calls →
      y / 16 * patchCount width + x / 16 < 2 ^ 32) :
    ∃ made, new? width height = some made ∧
      let f := made.run calls
      let flagged := flaggedBy (patchCount width) (patchCount height) calls
      (∃ patches f', FlagCall.drain.answer f = .ok (.patches patches, f') ∧
        (∀ p, p ∈ patches ↔ p ∈ flagged) ∧ patches.Nodup ∧ patches.Pairwise Precedes ∧
        (∀ p ∈ patches, p.1 < patchCount width ∧ p.2 < patchCount height) ∧
        patches = f.flags.peel.map f.coordinates ∧
        patches.length = f.count ∧ f'.count = 0 ∧
        FlagCall.drain.answer f' = .ok (.patches [], f')) ∧
      (∀ x y clearing, x < width → y < height → patchFoundAt (patchCount width) x y = patchAt x y ∧
        ∃ f', (FlagCall.read x y clearing).answer f =
          .ok (.dirty (decide (patchAt x y ∈ flagged)), f')) ∧
      (∀ x y x' y' clearing, patchAt x y = patchAt x' y' →
        (FlagCall.read x y clearing).answer f = (FlagCall.read x' y' clearing).answer f) ∧
      (∀ x y, x < width → y < height → ∃ f', (FlagCall.mark x y).answer f = .ok (.done, f') ∧
        ∀ x' y', x' < width → y' < height → patchAt x y ≠ patchAt x' y' →
          f'.isDirty? x' y' = f.isDirty? x' y') := by
  have fits : Fits width height := ⟨⟨hwidth, hheight⟩, hcount⟩
  refine ⟨new width height fits, dif_pos fits, ?_⟩
  intro f flagged
  obtain ⟨hcolumns, hrows⟩ : f.columns = patchCount width ∧ f.rows = patchCount height :=
    dims_run (new width height fits) calls
  have htracks : f.Tracks flagged := (tracks_new fits).run fun c hc => by
    cases c with
    | mark x y => exact has_of_lt rfl rfl (hmarks x y hc).1 (hmarks x y hc).2
    | read x y clearing => exact hreads x y clearing hc
    | markAll | clear | drain => trivial
  have hhas : ∀ {x y}, x < width → y < height → f.Has (patchAt x y) := has_of_lt hcolumns hrows
  have hordered := f.pairwise_drain
  refine ⟨⟨f.drain.1, f.drain.2, rfl, fun p => htracks.mem_drain, hordered.imp ?_, hordered, ?_,
    f.drain_eq_peel, f.length_drain, f.count_clear, ?_⟩, ?_, ?_, ?_⟩
  · rintro p q hpq rfl
    rcases hpq with hlt | ⟨-, hlt⟩ <;> exact lt_irrefl _ hlt
  · intro p hp
    obtain ⟨hcolumn, hrow⟩ := ((htracks.mem_iff p).mp (htracks.mem_drain.mp hp)).1
    exact ⟨hcolumn.trans_eq hcolumns, hrow.trans_eq hrows⟩
  · have hempty : f.drain.2.drain = ([], f.drain.2) := f.drain_clear
    rw [FlagCall.answer, hempty]
  · exact fun x y clearing hx hy => ⟨patchFoundAt_of_lt (div_patchSize_lt hx) y,
      htracks.exists_answer_read (hhas hx hy) clearing⟩
  · exact fun x y x' y' clearing hpatch => f.answer_read_congr hpatch clearing
  · intro x y hx hy
    exact ⟨_, answer_mark (hhas hx hy),
      fun x' y' hx' hy' hne => isDirty?_mark (hhas hx hy) (hhas hx' hy') hne⟩

/-- A grid with ragged edges, of which two patches stay flagged, one in the first word of bits and one
in the second. -/
theorem run_drains_marked_ragged :
    let calls : List FlagCall := [.markAll, .drain, .mark 149 119, .mark 19 20, .mark 3 0,
      .read 16 16 true, .read 5 5 false]
    ∃ made f', new? 150 120 = some made ∧
      FlagCall.drain.answer (made.run calls) = .ok (.patches [(0, 0), (9, 7)], f') ∧
      f'.count = 0 := by
  intro calls
  obtain ⟨made, hmade, ⟨patches, f', hdrain, -, -, -, -, -, -, hcount, -⟩, -⟩ :=
    run_drains_marked 150 120 (by decide) (by decide) (by decide) calls
      (fun x y hmark => by
        simp only [calls, List.mem_cons, List.not_mem_nil, FlagCall.mark.injEq, reduceCtorEq,
          false_or, or_false] at hmark
        omega)
      fun x y clearing hread => by
        simp only [calls, List.mem_cons, List.not_mem_nil, FlagCall.read.injEq, reduceCtorEq,
          false_or, or_false] at hread
        rcases hread with ⟨rfl, rfl, -⟩ | ⟨rfl, rfl, -⟩ <;> decide
  have hpatches : patches = [(0, 0), (9, 7)] := by
    obtain rfl : new 150 120 = made := Option.some_inj.mp hmade
    cases hdrain
    decide +kernel
  exact ⟨made, f', hmade, hpatches ▸ hdrain, hcount⟩

/-- A size that is a patch below `2 ^ 32` is too large: the sum that rounds it up to whole patches
overflows, and there are no flags. Nor can every cell be read: the number of a patch that is far
outside overflows as well. -/
theorem not_run_drains_marked : new? 4294967280 0 = none ∧
    (FlagCall.read 0 4042322176 true).answer (new 272 16) = .error .outOfStorage :=
  ⟨dif_neg (by decide), rfl⟩

end PatchFlags

end Terrain
