import Terrain.Brush.Revert
import Terrain.Merge
import Terrain.Proofs.Brush.Sides

/-!
# Edits of a surface

An operation that writes heights is a list of touches, which depends on the surface it starts from.
Only a dome may have none, where the surface is not addressable; for every other operation, and for
every operation on an addressable surface, the edit goes through.
-/

namespace Terrain

open Surface

/-! ### Brushes -/

/-- Gives an allowed point the height that a rule finds for it. -/
def paintTouch (mask : Mask) (rule : Point → Float → Except Error (Option Float)) (p : Point) :
    Touch := fun s => do
  if mask.allows p then
    let height? ← rule p (← s.get p.x p.y)
    pure (height?.map fun height => (p, height))
  else pure none

lemma paint_eq_edit (s : Surface) (mask : Mask) (points : List Point)
    (rule : Point → Float → Except Error (Option Float)) :
    s.paint mask points rule = s.edit (points.map (paintTouch mask rule)) := by
  rw [paint, edit, List.foldlM_map]
  congr
  funext s p
  rw [touch, paintTouch]
  split_ifs
  · obtain ⟨before, hbefore⟩ := exists_get s p.x p.y
    rw [hbefore, ok_bind, ok_bind]
    cases rule p before with
    | error e => rfl
    | ok height? => cases height? <;> rfl
  · rfl

lemma total_paintTouch {mask : Mask} {rule : Point → Float → Except Error (Option Float)}
    (hrule : ∀ p before, ∃ height?, rule p before = .ok height?) (p : Point) :
    (paintTouch mask rule p).Total := by
  intro s
  rw [paintTouch]
  split_ifs
  · obtain ⟨before, hbefore⟩ := exists_get s p.x p.y
    obtain ⟨height?, hheight⟩ := hrule p before
    rw [hbefore, ok_bind, hheight]
    exact ⟨_, rfl⟩
  · exact ⟨none, rfl⟩

namespace Raise

variable {lib : Number.MathLibrary} {s : Surface} {mask : Mask} {stroke : Stroke}
  {touched : List Touch}

/-- The touches of a dome, if it has a box or needs none. -/
def touches (lib : Number.MathLibrary) (s : Surface) (mask : Mask) (stroke : Stroke) :
    Except Error (List Touch) :=
  let radius := radius lib stroke.strength
  if radius ≤ 0 then .ok []
  else
    (box s stroke radius).map fun box =>
      box.points.map (paintTouch mask fun p height => .ok (raised? lib stroke radius p height))

lemma apply_eq_edit (lib : Number.MathLibrary) (s : Surface) (mask : Mask) (stroke : Stroke) :
    apply lib s mask stroke = (touches lib s mask stroke).bind s.edit := by
  rw [apply, touches]
  split_ifs
  · rfl
  · cases box s stroke (radius lib stroke.strength) with
    | error e => rfl
    | ok box => exact paint_eq_edit _ _ _ _

lemma exists_touches (hs : s.Addressable) (lib : Number.MathLibrary) (mask : Mask)
    (stroke : Stroke) : ∃ touched, touches lib s mask stroke = .ok touched := by
  rw [touches]
  split_ifs
  · exact ⟨[], rfl⟩
  · rw [box_of_addressable hs]
    exact ⟨_, rfl⟩

lemma total_of_mem (htouched : touches lib s mask stroke = .ok touched) {t : Touch}
    (h : t ∈ touched) : t.Total := by
  rw [touches] at htouched
  split_ifs at htouched
  · cases htouched
    cases h
  · cases hbox : box s stroke (radius lib stroke.strength) with
    | error e =>
      rw [hbox] at htouched
      cases htouched
    | ok box =>
      rw [hbox] at htouched
      cases htouched
      obtain ⟨p, -, rfl⟩ := List.mem_map.mp h
      exact total_paintTouch (fun p before => ⟨_, rfl⟩) p

end Raise

namespace Revert

def touches (reference s : Surface) (mask : Mask) (stroke : Stroke) : List Touch :=
  if 0 < stroke.duration then s.extent.points.map (paintTouch mask (reverted? reference stroke))
  else []

lemma apply_eq_edit (reference s : Surface) (mask : Mask) (stroke : Stroke) :
    apply reference s mask stroke = s.edit (touches reference s mask stroke) := by
  rw [apply, touches]
  split_ifs
  · exact paint_eq_edit _ _ _ _
  · rfl

lemma exists_reverted? (reference : Surface) (stroke : Stroke) (p : Point) (before : Float) :
    ∃ height?, reverted? reference stroke p before = .ok height? := by
  rw [reverted?]
  cases weight? stroke p with
  | none => exact ⟨none, rfl⟩
  | some weight =>
    obtain ⟨target, htarget⟩ := exists_get reference p.x p.y
    dsimp only
    rw [htarget]
    exact ⟨_, rfl⟩

lemma total_of_mem {reference s : Surface} {mask : Mask} {stroke : Stroke} {t : Touch}
    (h : t ∈ touches reference s mask stroke) : t.Total := by
  rw [touches] at h
  split_ifs at h
  · obtain ⟨p, -, rfl⟩ := List.mem_map.mp h
    exact total_paintTouch (exists_reverted? reference stroke) p
  · cases h

end Revert

/-! ### Merges -/

namespace Merge

def moveTouch (source : Surface) (d : Displacement) (p : Point) : Touch := fun _ => do
  let height ← source.get p.x p.y
  pure (some (p.add d.offset, height + d.rise))

/-- Gives a point close to a target the height of the target, if it differs too much. -/
def smoothTouch (target : Point) (height : Float) (p : Point) : Touch := fun s => do
  let before ← s.get p.x p.y
  pure (if p = target ∨ threshold < (before - height).abs then some (p, height) else none)

/-- Turns one cell of the source into a region. -/
def turnTouches (region source : Surface) (d : Displacement) (sine cosine : Float32) (pivot : Pivot)
    (p : Point) : List Touch :=
  let target := (turned sine cosine pivot p).add d.offset
  if target ∈ region.extent then
    match source.get p.x p.y with
    | .ok height => (close region target).points.map (smoothTouch target (height + d.rise))
    | .error _ => []
  else []

def touches (lib : Number.MathLibrary) (region source : Surface) (d : Displacement)
    (rotation : Float32) (pivot : Pivot) : List Touch :=
  if rotation == 0 then source.extent.points.map (moveTouch source d)
  else
    let sine := lib.sineSingle rotation
    let cosine := lib.cosineSingle rotation
    source.extent.points.flatMap (turnTouches region source d sine cosine pivot)

variable {lib : Number.MathLibrary} {s region source : Surface} {d : Displacement} {pivot : Pivot}
  {sine cosine : Float32}

lemma total_moveTouch (source : Surface) (d : Displacement) (p : Point) :
    (moveTouch source d p).Total := by
  intro s
  obtain ⟨height, hheight⟩ := exists_get source p.x p.y
  rw [moveTouch, hheight]
  exact ⟨_, rfl⟩

lemma total_smoothTouch (target : Point) (height : Float) (p : Point) :
    (smoothTouch target height p).Total := by
  intro s
  obtain ⟨before, hbefore⟩ := exists_get s p.x p.y
  rw [smoothTouch, hbefore]
  exact ⟨_, rfl⟩

lemma total_turnTouches (p : Point) :
    ∀ t ∈ turnTouches region source d sine cosine pivot p, t.Total := by
  intro t h
  obtain ⟨height, hheight⟩ := exists_get source p.x p.y
  rw [turnTouches, hheight] at h
  split_ifs at h
  · obtain ⟨q, -, rfl⟩ := List.mem_map.mp h
    exact total_smoothTouch _ _ q
  · cases h

lemma total_of_mem {rotation : Float32} {t : Touch}
    (h : t ∈ touches lib region source d rotation pivot) : t.Total := by
  rw [touches] at h
  split_ifs at h
  · obtain ⟨p, -, rfl⟩ := List.mem_map.mp h
    exact total_moveTouch source d p
  · obtain ⟨p, -, hp⟩ := List.mem_flatMap.mp h
    exact total_turnTouches p t hp

lemma moveCell_eq_touch (s source : Surface) (d : Displacement) (p : Point) :
    moveCell source d s p = s.touch (moveTouch source d p) := by
  obtain ⟨height, hheight⟩ := exists_get source p.x p.y
  rw [moveCell, touch, moveTouch, hheight]
  rfl

lemma smoothInto_eq_edit (s : Surface) (target : Point) (height : Float) :
    smoothInto s target height =
      s.edit ((close s target).points.map (smoothTouch target height)) := by
  rw [smoothInto, edit, List.foldlM_map]
  congr
  funext s p
  obtain ⟨before, hbefore⟩ := exists_get s p.x p.y
  rw [touch, smoothTouch, hbefore, ok_bind, ok_bind]
  split_ifs <;> rfl

lemma turnCell_eq_edit (hs : s.extent = region.extent) (p : Point) :
    turnCell source d sine cosine pivot s p =
      s.edit (turnTouches region source d sine cosine pivot p) := by
  obtain ⟨height, hheight⟩ := exists_get source p.x p.y
  rw [turnCell, turnTouches, hs, hheight]
  generalize (turned sine cosine pivot p).add d.offset = target
  have hclose : close region target = close s target := by rw [close, close, hs]
  dsimp only
  split_ifs
  · rw [ok_bind, hclose]
    exact smoothInto_eq_edit s target (height + d.rise)
  · rfl

lemma cells_eq_edit (lib : Number.MathLibrary) (s source : Surface) (d : Displacement)
    (rotation : Float32) (pivot : Pivot) :
    cells lib s source d rotation pivot = s.edit (touches lib s source d rotation pivot) := by
  rw [cells, touches]
  split_ifs
  · rw [edit, List.foldlM_map]
    congr
    funext s p
    exact moveCell_eq_touch s source d p
  · exact foldlM_eq_edit (fun _ p hs => turnCell_eq_edit hs p) total_turnTouches _ rfl

end Merge

/-! ### Edits -/

/-- An operation that writes heights, with what it is given. -/
inductive Edit where
  | set (x y : Int32) (height : Float)
  | merge (source : Surface) (d : Merge.Displacement) (rotation : Float32) (pivot : Merge.Pivot)
  | raise (mask : Mask) (stroke : Stroke)
  | revert (reference : Surface) (mask : Mask) (stroke : Stroke)

namespace Edit

/-- What an operation leaves of a surface. -/
def apply (lib : Number.MathLibrary) (s : Surface) : Edit → Except Error Surface
  | set x y height => s.set x y height
  | merge source d rotation pivot => (s.merge lib source d rotation pivot).result
  | raise mask stroke => Raise.apply lib s mask stroke
  | revert reference mask stroke => Revert.apply reference s mask stroke

/-- The touches of an operation. -/
def touches (lib : Number.MathLibrary) (s : Surface) : Edit → Except Error (List Touch)
  | set x y height => .ok [fun _ => .ok (some (⟨x, y⟩, height))]
  | merge source d rotation pivot => .ok (Merge.touches lib s source d rotation pivot)
  | raise mask stroke => Raise.touches lib s mask stroke
  | revert reference mask stroke => .ok (Revert.touches reference s mask stroke)

variable {lib : Number.MathLibrary} {s s' : Surface} {e : Edit} {touched : List Touch}

/-- Every operation writes one cell after another. -/
lemma apply_eq_edit (lib : Number.MathLibrary) (s : Surface) (e : Edit) :
    e.apply lib s = (e.touches lib s).bind s.edit := by
  cases e with
  | set x y height =>
    change s.set x y height = s.set x y height >>= pure
    exact (bind_pure _).symm
  | merge source d rotation pivot =>
    rw [apply, touches, Surface.merge, Logged.result_bind]
    exact Merge.cells_eq_edit lib s source d rotation pivot
  | raise mask stroke => exact Raise.apply_eq_edit lib s mask stroke
  | revert reference mask stroke => exact Revert.apply_eq_edit reference s mask stroke

lemma exists_touches (hs : s.Addressable) (lib : Number.MathLibrary) (e : Edit) :
    ∃ touched, e.touches lib s = .ok touched := by
  cases e with
  | raise mask stroke => exact Raise.exists_touches hs lib mask stroke
  | set | merge | revert => exact ⟨_, rfl⟩

lemma total_of_mem (htouched : e.touches lib s = .ok touched) {t : Touch} (h : t ∈ touched) :
    t.Total := by
  cases e with
  | set x y height =>
    cases htouched
    rw [List.mem_singleton.mp h]
    exact fun _ => ⟨_, rfl⟩
  | merge source d rotation pivot =>
    cases htouched
    exact Merge.total_of_mem h
  | raise mask stroke => exact Raise.total_of_mem htouched h
  | revert reference mask stroke =>
    cases htouched
    exact Revert.total_of_mem h

/-- An operation that goes through is an edit, and keeps the frame. -/
lemma edit_of_apply (h : e.apply lib s = .ok s') :
    ∃ touched, e.touches lib s = .ok touched ∧ (∀ t ∈ touched, t.Total) ∧
      s.edit touched = .ok s' ∧ s.SameFrame s' := by
  rw [apply_eq_edit] at h
  cases htouched : e.touches lib s with
  | error e =>
    rw [htouched] at h
    cases h
  | ok touched =>
    rw [htouched] at h
    have htotal : ∀ t ∈ touched, t.Total := fun t => total_of_mem htouched
    obtain ⟨s₁, hs₁, hframe⟩ := exists_edit htotal s
    obtain rfl : s₁ = s' := Except.ok.inj (hs₁.symm.trans h)
    exact ⟨touched, rfl, htotal, hs₁, hframe⟩

/-- On an addressable surface every operation goes through. -/
lemma exists_apply (hs : s.Addressable) (lib : Number.MathLibrary) (e : Edit) :
    ∃ s', e.apply lib s = .ok s' := by
  obtain ⟨touched, htouched⟩ := exists_touches hs lib e
  obtain ⟨s', hs', -⟩ := exists_edit (fun t => total_of_mem htouched) s
  exact ⟨s', by rw [apply_eq_edit, htouched]; exact hs'⟩

/-- A write of what is not finite, of a point outside the region, or of what stands there. -/
def Idle (s : Surface) : Edit → Prop
  | set x y height =>
    height.isFinite = false ∨ s.cell? x y = none ∨ ∃ cx cy, s.cell? x y = some (cx, cy) ∧
      s.grid.stored? cx cy = some (Height.quantize height s.grid.factor)
  | _ => False

lemma Idle.apply_eq (h : e.Idle s) : e.apply lib s = .ok s := by
  cases e with
  | set x y height =>
    rw [apply, Surface.set]
    cases hcell : s.cell? x y with
    | none => rfl
    | some c =>
      have hset : s.grid.set c.1 c.2 height = .done s.grid := by
        rw [HeightGrid.set]
        split_ifs with hfinite
        · rcases h with hinfinite | hout | ⟨cx, cy, hin, hstored⟩
          · exact absurd (hinfinite.symm.trans hfinite) Bool.false_ne_true
          · exact absurd (hout.symm.trans hcell) (by simp)
          · cases hin.symm.trans hcell
            rw [HeightGrid.setStored, hstored]
            exact if_pos rfl
        · rfl
      dsimp only
      rw [hset]
      rfl
  | merge source d rotation pivot => cases h
  | raise mask stroke => cases h
  | revert reference mask stroke => cases h

end Edit

end Terrain
