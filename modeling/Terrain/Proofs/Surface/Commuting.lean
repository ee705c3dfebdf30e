import Mathlib.Data.List.Perm.Basic
import Terrain.Proofs.Surface.Painting

/-!
# Painting in any order

What a rule does at a point depends on nothing but the height that is stored there, so what is done at
two points may be done in any order, flags included (`repainted_comm`). A list of points may then be
painted in parts, if every allowed point belongs to just one of them (`foldl_repainted_disjoint`).
-/

namespace Terrain

namespace HeightGrid

variable {g : HeightGrid} {x y x' y' : Nat}

/-! ### Cells -/

/-- A write is not seen at another place. -/
lemma stored?_write_of_ne (h : g.cells.place x y ≠ g.cells.place x' y') (n : Int32) :
    (g.write x y n).stored? x' y' = g.stored? x' y' := by
  rw [write]
  split_ifs
  · rfl
  · change (g.cells.put x y n).at? x' y' = g.cells.at? x' y'
    rw [Grid.at?_put, if_neg fun hplace => h hplace.1]

lemma put_mark_comm (h : g.cells.place x y ≠ g.cells.place x' y') (n n' : Int32) :
    (((g.put x y n).mark x y).put x' y' n').mark x' y' =
      (((g.put x' y' n').mark x' y').put x y n).mark x y := by
  simp only [put, mark, mk.injEq, Heights.mk.injEq, true_and]
  exact ⟨Grid.put_comm h n n', g.flags.mark_comm x y x' y'⟩

/-- Writes at two places may change their order. -/
lemma write_comm (h : g.cells.place x y ≠ g.cells.place x' y') (n n' : Int32) :
    (g.write x y n).write x' y' n' = (g.write x' y' n').write x y n := by
  have hkept := stored?_write_of_ne h n
  have hkept' := stored?_write_of_ne h.symm n'
  rw [write.eq_def (g.write x y n), write.eq_def (g.write x' y' n'), hkept, hkept', write, write]
  split_ifs
  · rfl
  · rfl
  · rfl
  · exact put_mark_comm h n n'

end HeightGrid

namespace Surface

open HeightGrid

variable {rule : Point → Float → Option Float}
  {act : Point → Float → Except Error (Option Float)}

/-! ### Points -/

lemma sameFrame_repainted (rule : Point → Float → Option Float) (s : Surface) (p : Point) :
    s.SameFrame (s.repainted rule p) := by
  rw [repainted]
  split
  · rw [write]
    split_ifs
    · exact sameFrame_self s
    · exact ⟨rfl, rfl, rfl, rfl⟩
  · exact sameFrame_self s

/-- What is done at two points may be done in any order. -/
lemma repainted_comm (rule : Point → Float → Option Float) (s : Surface) (p q : Point) :
    (s.repainted rule p).repainted rule q = (s.repainted rule q).repainted rule p := by
  have hcell (q x y) := (sameFrame_repainted rule s q).cell?_eq x y
  by_cases hpq : p = q
  · rw [hpq]
  cases hp : s.cell? p.x p.y with
  | none => rw [repainted_of_none hp, repainted_of_none ((hcell _ _ _).trans hp)]
  | some c =>
    cases hq : s.cell? q.x q.y with
    | none => rw [repainted_of_none hq, repainted_of_none ((hcell _ _ _).trans hq)]
    | some d =>
      obtain ⟨hx, hy⟩ := lt_of_cell? hp
      obtain ⟨hx', hy'⟩ := lt_of_cell? hq
      have hplace : s.grid.cells.place c.1 c.2 ≠ s.grid.cells.place d.1 d.2 := by
        rw [ne_eq, Grid.place_inj hx hy hx' hy', ← Prod.ext_iff]
        rintro rfl
        exact hpq (cell?_inj hp hq)
      rw [repainted_of_cell? ((hcell _ _ _).trans hq), repainted_of_cell? ((hcell _ _ _).trans hp),
        (sameFrame_repainted rule s p).factor_eq, (sameFrame_repainted rule s q).factor_eq,
        repainted_of_cell? hp, repainted_of_cell? hq]
      simp only [storedAt, stored?_write_of_ne hplace, stored?_write_of_ne hplace.symm]
      exact congrArg mk (write_comm hplace _ _)

/-! ### Lists of points -/

lemma paint_eq (hact : ∀ p h, act p h = .ok (rule p h)) (mask : Mask) (s : Surface)
    (points : List Point) :
    s.paint mask points act = .ok ((points.filter mask.allows).foldl (repainted rule) s) := by
  induction points generalizing s with
  | nil => rfl
  | cons p points ih =>
    change paintPoint mask act s p >>= (fun s => s.paint mask points act) = _
    rw [paintPoint_eq hact, ok_bind, ih, List.filter_cons]
    split_ifs <;> rfl

/-- What two masks allow apart from each other can be painted in one go. -/
lemma foldl_repainted_disjoint {a b u : Mask}
    (hdisjoint : ∀ p, ¬(a.allows p = true ∧ b.allows p = true))
    (hunion : ∀ p, u.allows p = true ↔ a.allows p = true ∨ b.allows p = true) (s : Surface)
    (points : List Point) :
    (points.filter b.allows).foldl (repainted rule)
        ((points.filter a.allows).foldl (repainted rule) s) =
      (points.filter u.allows).foldl (repainted rule) s := by
  have hfirst : ∀ p, (a.allows p && u.allows p) = a.allows p := fun p => by
    rw [Bool.eq_iff_iff, Bool.and_eq_true, hunion]
    tauto
  have hsecond : ∀ p, (!a.allows p && u.allows p) = b.allows p := fun p => by
    have hp := hdisjoint p
    rw [Bool.eq_iff_iff, Bool.and_eq_true, Bool.not_eq_true', ← Bool.not_eq_true, hunion]
    tauto
  have hperm := List.filter_append_perm a.allows (points.filter u.allows)
  simp only [List.filter_filter, hfirst, hsecond] at hperm
  rw [← List.foldl_append]
  exact hperm.foldl_eq' (fun p _ q _ s => repainted_comm rule s p q) s

end Surface

end Terrain
