import Terrain.Brush
import Terrain.Proofs.Surface.Cells

/-!
# Painting

A brush looks at every point of its list once, so what it stores at a point depends on nothing but the
height that was there before, and a patch becomes dirty just when one of its cells changes.
-/

namespace Terrain

/-- The column and the row of the patch of a point of the region. -/
def Point.patch (p : Point) : Nat × Nat := patchAt p.x.toInt.toNat p.y.toInt.toNat

namespace Surface

open HeightGrid

variable {s s₁ t : Surface} {mask : Mask} {p : Point}

/-- The patch of a point is that of its cell. -/
lemma patch_of_cell? {c : Nat × Nat} (h : s.cell? p.x p.y = some c) : p.patch = patchAt c.1 c.2 := by
  rw [cell?] at h
  split_ifs at h
  obtain rfl := Option.some.inj h
  rfl

/-! ### One point -/

/-- What a rule makes of a stored height: the height that it finds is stored if it is finite. -/
def repaint (rule : Float → Option Float) (factor : Float32) (stored : Int32) : Int32 :=
  match rule (Height.ofStored stored factor) with
  | some height => if height.isFinite then Height.quantize height factor else stored
  | none => stored

/-- A repainted integer is as it was, or what a finite height that the rule found is stored as. -/
lemma repaint_cases (rule : Float → Option Float) (factor : Float32) (n : Int32) :
    repaint rule factor n = n ∨ ∃ height, rule (Height.ofStored n factor) = some height ∧
      height.isFinite = true ∧ repaint rule factor n = Height.quantize height factor := by
  rw [repaint]
  split
  · rename_i height hrule
    split_ifs with hfinite
    · exact .inr ⟨height, hrule, hfinite, rfl⟩
    · exact .inl rfl
  · exact .inl rfl

/-- One point of a brush stroke. -/
def paintPoint (mask : Mask) (rule : Point → Float → Except Error (Option Float)) (s : Surface)
    (p : Point) : Except Error Surface := do
  if mask.allows p then
    match ← rule p (← s.get p.x p.y) with
    | some height => s.set p.x p.y height
    | none => pure s
  else pure s

/-- A surface after at most one point of it was painted. -/
structure PaintedAt (s : Surface) (mask : Mask) (rule : Point → Float → Option Float) (p : Point)
    (t : Surface) : Prop where
  frame : s.SameFrame t
  stored_eq : ∀ q, t.stored? q =
    if p = q ∧ mask.allows p = true then (s.stored? q).map (repaint (rule p) s.grid.factor)
    else s.stored? q
  dirty_iff : ∀ P, t.grid.Dirty P ↔ s.grid.Dirty P ∨ (t.stored? p ≠ s.stored? p ∧ P = p.patch)

lemma paintedAt_self {rule : Point → Float → Option Float}
    (h : mask.allows p = true → (s.stored? p).map (repaint (rule p) s.grid.factor) = s.stored? p) :
    s.PaintedAt mask rule p s where
  frame := sameFrame_self s
  stored_eq := by
    intro q
    split_ifs with hq
    · obtain ⟨rfl, hallows⟩ := hq
      exact (h hallows).symm
    · rfl
  dirty_iff := fun P => (or_iff_left fun hne => hne.1 rfl).symm

variable {rule : Point → Float → Option Float} {act : Point → Float → Except Error (Option Float)}

/-- The surface after a rule was followed at a point. -/
def repainted (rule : Point → Float → Option Float) (s : Surface) (p : Point) : Surface :=
  match s.cell? p.x p.y with
  | some (x, y) => ⟨s.grid.write x y (repaint (rule p) s.grid.factor (s.grid.storedAt x y))⟩
  | none => s

lemma repainted_of_cell? {x y : Nat} (h : s.cell? p.x p.y = some (x, y)) :
    s.repainted rule p =
      ⟨s.grid.write x y (repaint (rule p) s.grid.factor (s.grid.storedAt x y))⟩ := by
  rw [repainted, h]

lemma repainted_of_none (h : s.cell? p.x p.y = none) : s.repainted rule p = s := by
  rw [repainted, h]

/-- A brush does at an allowed point what its rule says. -/
lemma paintPoint_eq (hact : ∀ p h, act p h = .ok (rule p h)) (mask : Mask) (s : Surface)
    (p : Point) :
    paintPoint mask act s p = .ok (if mask.allows p then s.repainted rule p else s) := by
  rw [paintPoint]
  split_ifs
  swap
  · rfl
  rw [get_eq_level, ok_bind, hact, ok_bind]
  cases hp : s.cell? p.x p.y with
  | none =>
    rw [repainted_of_none hp]
    cases rule p (s.level p) with
    | none => rfl
    | some height => exact set_of_not_mem (cell?_eq_none_iff.mp hp) height
  | some c =>
    obtain ⟨hx, hy⟩ := lt_of_cell? hp
    have hstored : s.stored? p = some (s.grid.storedAt c.1 c.2) := by
      rw [stored?, hp, Option.map_some]
    rw [repainted_of_cell? hp, level_of_stored? hstored]
    cases hrule : rule p (Height.ofStored (s.grid.storedAt c.1 c.2) s.grid.factor) with
    | none =>
      rw [repaint, hrule, write, if_pos (stored?_eq_storedAt hx hy)]
      rfl
    | some height =>
      dsimp only
      rw [set, hp, repaint, hrule]
      dsimp only
      rw [HeightGrid.set]
      split_ifs
      · rw [setStored_eq_write hx hy]
        rfl
      · rw [write, if_pos (stored?_eq_storedAt hx hy)]
        rfl

lemma paintedAt_repainted (mask : Mask) (rule : Point → Float → Option Float) (s : Surface)
    (p : Point) : s.PaintedAt mask rule p (if mask.allows p then s.repainted rule p else s) := by
  split_ifs with hallows
  swap
  · exact paintedAt_self fun h => absurd h hallows
  cases hp : s.cell? p.x p.y with
  | none =>
    rw [repainted_of_none hp]
    exact paintedAt_self fun _ => by rw [stored?, hp, Option.map_none, Option.map_none]
  | some c =>
    obtain ⟨hx, hy⟩ := lt_of_cell? hp
    have hbefore : s.stored? p = some (s.grid.storedAt c.1 c.2) := by
      rw [stored?, hp, Option.map_some]
    have hwrote := wrote_write hx hy (repaint (rule p) s.grid.factor (s.grid.storedAt c.1 c.2))
    rw [repainted_of_cell? hp]
    refine ⟨sameFrame_of_edited (hwrote.edited hx hy), fun q => ?_, fun P => ?_⟩
    · rw [stored?_of_wrote hp hwrote]
      simp only [hallows, and_true]
      split_ifs with hpq
      · rw [← hpq, hbefore, Option.map_some]
      · rfl
    · rw [hwrote.dirty_iff, stored?_of_wrote hp hwrote, if_pos rfl, hbefore,
        stored?_eq_storedAt hx hy, patch_of_cell? hp, ne_comm]

/-! ### Many points -/

/-- A surface of which some points were painted. -/
structure Painted (s : Surface) (mask : Mask) (rule : Point → Float → Option Float)
    (points : List Point) (t : Surface) : Prop where
  frame : s.SameFrame t
  stored_eq : ∀ p, t.stored? p = if p ∈ points ∧ mask.allows p = true then
    (s.stored? p).map (repaint (rule p) s.grid.factor) else s.stored? p
  dirty_iff : ∀ P, t.grid.Dirty P ↔ s.grid.Dirty P ∨ ∃ p, t.stored? p ≠ s.stored? p ∧ P = p.patch

lemma painted_nil (s : Surface) (mask : Mask) (rule : Point → Float → Option Float) :
    s.Painted mask rule [] s where
  frame := sameFrame_self s
  stored_eq := fun _ => (if_neg fun h => List.not_mem_nil h.1).symm
  dirty_iff := fun _ => (or_iff_left fun ⟨_, hne, _⟩ => hne rfl).symm

/-- A point that was not painted before is painted as it was at the start. -/
lemma Painted.snoc {done : List Point} (h : s.Painted mask rule done s₁)
    (h₁ : s₁.PaintedAt mask rule p t) (hp : p ∉ done) : s.Painted mask rule (done ++ [p]) t where
  frame := h.frame.trans h₁.frame
  stored_eq := by
    intro q
    rw [h₁.stored_eq, h.stored_eq, h.frame.factor_eq]
    by_cases hpq : p = q
    · subst hpq
      simp [hp]
    · simp [hpq, Ne.symm hpq]
  dirty_iff := by
    intro P
    have hstart : s₁.stored? p = s.stored? p := by rw [h.stored_eq, if_neg fun hdone => hp hdone.1]
    have hother : ∀ q, p ≠ q → t.stored? q = s₁.stored? q := fun q hpq => by
      rw [h₁.stored_eq, if_neg fun heq => hpq heq.1]
    rw [h₁.dirty_iff, h.dirty_iff, or_assoc]
    refine or_congr_right ⟨?_, ?_⟩
    · rintro (⟨q, hne, hP⟩ | ⟨hne, hP⟩)
      · refine ⟨q, ?_, hP⟩
        rwa [hother q fun heq => hne (heq ▸ hstart)]
      · exact ⟨p, hstart ▸ hne, hP⟩
    · rintro ⟨q, hne, hP⟩
      by_cases hpq : p = q
      · subst hpq
        exact .inr ⟨hstart.symm ▸ hne, hP⟩
      · exact .inl ⟨q, hother q hpq ▸ hne, hP⟩

/-- A brush with a rule that always answers goes through, and paints every point of its list. -/
lemma exists_paint (hact : ∀ p h, act p h = .ok (rule p h)) {points : List Point}
    (hnodup : points.Nodup) (s : Surface) (mask : Mask) :
    ∃ t, s.paint mask points act = .ok t ∧ s.Painted mask rule points t := by
  have hstep : ∀ before p after s₁, before ++ p :: after = points →
      s.Painted mask rule before s₁ → ∃ s₂, paintPoint mask act s₁ p = .ok s₂ ∧
        s.Painted mask rule (before ++ [p]) s₂ := by
    intro before p after s₁ hsplit h
    rw [← hsplit] at hnodup
    have hp : p ∉ before := fun hbefore =>
      List.disjoint_of_nodup_append hnodup hbefore List.mem_cons_self
    exact ⟨_, paintPoint_eq hact mask s₁ p, h.snoc (paintedAt_repainted mask rule s₁ p) hp⟩
  exact exists_foldlM_prefix (painted_nil s mask rule) hstep

end Surface

end Terrain
