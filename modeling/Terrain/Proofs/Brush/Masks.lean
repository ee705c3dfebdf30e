import Terrain.Proofs.Brush.Revert
import Terrain.Proofs.Brush.Rise
import Terrain.Proofs.Surface.Commuting

/-!
# Brushes through masks

A brush leaves every cell alone that its mask does not allow, and does in every other what it would do
without a mask. A stroke may therefore be split by masks that have no cell in common: the parts may be
done in any order, and together they are the stroke (`Brush.apply_disjoint_masks`).
-/

namespace Terrain

open Surface

/-- A mask allows what its grid says of the cells in it. -/
lemma Mask.allows_ofFn {width height : Nat} {f : Nat → Nat → Bool}
    {hcount : width * height < Grid.placeCount} {p : Point} :
    Mask.allows ⟨.ofFn width height f hcount⟩ p = true ↔
      ((0 ≤ p.x.toInt ∧ p.x.toInt < width) ∧ 0 ≤ p.y.toInt ∧ p.y.toInt < height) ∧
        f p.x.toInt.toNat p.y.toInt.toNat = true := by
  have hcontains : (Grid.ofFn width height f hcount).Contains p.x.toInt p.y.toInt ↔
      (0 ≤ p.x.toInt ∧ p.x.toInt < width) ∧ 0 ≤ p.y.toInt ∧ p.y.toInt < height := by
    simp only [Grid.Contains, Grid.ofFn]
    tauto
  rw [← hcontains, allows, Grid.get?]
  split_ifs with h
  · obtain ⟨⟨hx, hx'⟩, hy, hy'⟩ := hcontains.mp h
    rw [Grid.at?_ofFn f (by omega) (by omega), Option.getD_some]
    exact (and_iff_right h).symm
  · simp [h]

/-- A brush of one of the two kinds; the second one has the surface that it reverts to. -/
inductive Brush where
  | raise
  | revert (reference : Surface)

namespace Brush

variable {lib : Number.MathLibrary} {s t : Surface} {mask : Mask} {stroke : Stroke}

def apply (lib : Number.MathLibrary) : Brush → Surface → Mask → Stroke → Except Error Surface
  | raise => Raise.apply lib
  | revert reference => Revert.apply reference

/-- Whether a brush can be applied to a surface whatever the stroke is: a dome needs sizes that are
coordinates. -/
def Applies : Brush → Surface → Prop
  | raise, s => s.Addressable
  | revert _, _ => True

/-- The points that a brush looks at. -/
def points (lib : Number.MathLibrary) : Brush → Surface → Stroke → List Point
  | raise => Raise.points lib
  | revert _ => Revert.points

/-- The height that a brush gives to a point, if it reaches that far. -/
def rule (lib : Number.MathLibrary) : Brush → Stroke → Point → Float → Option Float
  | raise => fun stroke => Raise.raised? lib stroke (Raise.radius lib stroke.strength)
  | revert reference => Revert.rule reference

/-- The points of a brush depend on the sizes of the surface alone. -/
lemma points_congr (brush : Brush) (h : s.SameFrame t) (stroke : Stroke) :
    brush.points lib t stroke = brush.points lib s stroke := by
  cases brush with
  | raise => exact Raise.points_congr h lib stroke
  | revert reference =>
    simp only [points, Revert.points, h.extent_eq]

/-- A brush that goes through paints its points. -/
lemma painted_of_apply {brush : Brush} (h : brush.apply lib s mask stroke = .ok t) :
    s.Painted mask (brush.rule lib stroke) (brush.points lib s stroke) t := by
  cases brush with
  | raise => exact Raise.painted_of_apply h
  | revert reference =>
    obtain ⟨t', ht', hpainted⟩ := Revert.exists_apply reference s mask stroke
    exact Except.ok.inj (ht'.symm.trans h) ▸ hpainted

lemma exists_apply {brush : Brush} (h : brush.Applies s) (lib : Number.MathLibrary) (mask : Mask)
    (stroke : Stroke) : ∃ t, brush.apply lib s mask stroke = .ok t := by
  cases brush with
  | raise =>
    obtain ⟨t, ht, -⟩ := Raise.exists_apply h lib mask stroke
    exact ⟨t, ht⟩
  | revert reference =>
    obtain ⟨t, ht, -⟩ := Revert.exists_apply reference s mask stroke
    exact ⟨t, ht⟩

/-- What a brush does at its allowed points, one after another. -/
def outcome (lib : Number.MathLibrary) (brush : Brush) (s : Surface) (mask : Mask) (stroke : Stroke) :
    Surface :=
  ((brush.points lib s stroke).filter mask.allows).foldl (repainted (brush.rule lib stroke)) s

/-- A brush follows its rule at one allowed point after another, on every surface of the same sizes, or
it fails under every mask. -/
lemma apply_eq_outcome (lib : Number.MathLibrary) (brush : Brush) (s : Surface) (stroke : Stroke) :
    (∀ t, s.SameFrame t → ∀ mask,
        brush.apply lib t mask stroke = .ok (brush.outcome lib t mask stroke)) ∨
      ∀ mask, brush.apply lib s mask stroke = .error .crossedBounds := by
  cases brush with
  | raise =>
    simp only [outcome, apply, points, rule, Raise.apply, Raise.points]
    split_ifs
    · exact .inl fun t ht mask => rfl
    · by_cases hs : s.Addressable
      · refine .inl fun t ht mask => ?_
        rw [Raise.box_of_addressable (ht.addressable hs), ok_bind]
        exact paint_eq (fun _ _ => rfl) mask t _
      · simp only [Raise.box_of_not_addressable hs]
        exact .inr fun mask => rfl
  | revert reference =>
    simp only [outcome, apply, points, rule, Revert.apply, Revert.points]
    split_ifs
    · exact .inl fun t ht mask => paint_eq (Revert.reverted?_eq reference stroke) mask t _
    · exact .inl fun t ht mask => rfl

/-- A stroke may be split in two by masks that share no cell. -/
lemma bind_apply_eq (lib : Number.MathLibrary) (brush : Brush) (s : Surface) (stroke : Stroke)
    {a b u : Mask} (hdisjoint : ∀ p, ¬(a.allows p = true ∧ b.allows p = true))
    (hunion : ∀ p, u.allows p = true ↔ a.allows p = true ∨ b.allows p = true) :
    (brush.apply lib s a stroke).bind (fun s' => brush.apply lib s' b stroke) =
      brush.apply lib s u stroke := by
  rcases brush.apply_eq_outcome lib s stroke with hok | hfails
  · have ha := hok s (sameFrame_self s) a
    have hframe := (painted_of_apply ha).frame
    rw [ha, hok s (sameFrame_self s) u, Except.bind, hok _ hframe b, outcome,
      brush.points_congr hframe stroke, outcome, outcome,
      foldl_repainted_disjoint hdisjoint hunion]
  · rw [hfails a, hfails u]
    rfl

/-- Masks that share no cell split a stroke into parts: one after the other, in any order, they leave
the surface that the whole stroke leaves, flags included, or they fail as the whole stroke does. A cell
that the mask does not allow stays as it is, and so do the sizes, the altitude and the factor. A brush
that reverts to a reference always goes through, and so does a dome on a surface whose sizes are
coordinates. -/
theorem apply_disjoint_masks (lib : Number.MathLibrary) (brush : Brush) (s : Surface) (stroke : Stroke)
    (a b u : Mask) (hdisjoint : ∀ p, ¬(a.allows p = true ∧ b.allows p = true))
    (hunion : ∀ p, u.allows p = true ↔ a.allows p = true ∨ b.allows p = true) :
    ((brush.apply lib s a stroke).bind (fun s' => brush.apply lib s' b stroke) =
        brush.apply lib s u stroke ∧
      (brush.apply lib s b stroke).bind (fun s' => brush.apply lib s' a stroke) =
        brush.apply lib s u stroke) ∧
    ∀ mask, (brush.Applies s → ∃ t, brush.apply lib s mask stroke = .ok t) ∧
      ∀ t, brush.apply lib s mask stroke = .ok t → s.SameFrame t ∧
        ∀ p, mask.allows p = false → t.stored? p = s.stored? p := by
  refine ⟨⟨brush.bind_apply_eq lib s stroke hdisjoint hunion, ?_⟩, fun mask => ?_⟩
  · exact brush.bind_apply_eq lib s stroke (fun p h => hdisjoint p h.symm)
      fun p => (hunion p).trans or_comm
  · refine ⟨fun h => exists_apply h lib mask stroke, fun t ht => ?_⟩
    have hpainted := painted_of_apply ht
    refine ⟨hpainted.frame, fun p hforbidden => ?_⟩
    rw [hpainted.stored_eq, if_neg fun h => Bool.false_ne_true (hforbidden.symm.trans h.2)]

end Brush

/-- A stroke on the edge of a surface, once for the cells of the first row and once for the others. -/
theorem Brush.apply_disjoint_masks_rows : ∃ t,
    (raise.apply .nearest (.ofSize 16 16) ⟨.ofFn 16 1 fun _ _ => true⟩ ⟨8, 0, 2, 1⟩).bind
        (fun s' => raise.apply .nearest s' ⟨.ofFn 20 16 fun _ y => y ≠ 0⟩ ⟨8, 0, 2, 1⟩) = .ok t ∧
      (raise.apply .nearest (.ofSize 16 16) ⟨.ofFn 20 16 fun _ y => y ≠ 0⟩ ⟨8, 0, 2, 1⟩).bind
        (fun s' => raise.apply .nearest s' ⟨.ofFn 16 1 fun _ _ => true⟩ ⟨8, 0, 2, 1⟩) = .ok t ∧
      raise.apply .nearest (.ofSize 16 16) ⟨.ofFn 20 16 fun x y => y ≠ 0 ∨ x < 16⟩ ⟨8, 0, 2, 1⟩ =
        .ok t := by
  have hdisjoint (p : Point) : ¬(Mask.allows ⟨.ofFn 16 1 fun _ _ => true⟩ p = true ∧
      Mask.allows ⟨.ofFn 20 16 fun _ y => y ≠ 0⟩ p = true) := by
    simp only [Mask.allows_ofFn, decide_eq_true_eq, and_true]
    omega
  have hunion (p : Point) : Mask.allows ⟨.ofFn 20 16 fun x y => y ≠ 0 ∨ x < 16⟩ p = true ↔
      Mask.allows ⟨.ofFn 16 1 fun _ _ => true⟩ p = true ∨
        Mask.allows ⟨.ofFn 20 16 fun _ y => y ≠ 0⟩ p = true := by
    simp only [Mask.allows_ofFn, decide_eq_true_eq, and_true]
    omega
  obtain ⟨⟨hab, hba⟩, hall⟩ := apply_disjoint_masks .nearest raise (.ofSize 16 16) ⟨8, 0, 2, 1⟩
    ⟨.ofFn 16 1 fun _ _ => true⟩ ⟨.ofFn 20 16 fun _ y => y ≠ 0⟩
    ⟨.ofFn 20 16 fun x y => y ≠ 0 ∨ x < 16⟩ hdisjoint hunion
  obtain ⟨t, ht⟩ := (hall ⟨.ofFn 20 16 fun x y => y ≠ 0 ∨ x < 16⟩).1 ⟨by decide, by decide⟩
  exact ⟨t, hab.trans ht, hba.trans ht, ht⟩

end Terrain
