import Terrain.Proofs.Surface.Cells

/-!
# Merges with a turn

A turned cell of the source is written to the cell it comes to and to those close to it that differ
too much. The cells that follow two targets overlap, and a later target reads what an earlier one
wrote, so that the merge as a whole is known by where every cell can have its height from.
-/

namespace Terrain.Merge

open Surface

variable {lib : Number.MathLibrary} {s s' source : Surface} {d : Displacement} {rotation : Float32}
  {pivot : Pivot} {p q t : Point} {height : Float}

/-! ### Cells close to a target -/

/-- On each axis, a point is at most the reach away from another one. -/
def Near (q t : Point) : Prop :=
  |q.x.toInt - t.x.toInt| ≤ reach.toInt ∧ |q.y.toInt - t.y.toInt| ≤ reach.toInt

instance (q t : Point) : Decidable (Near q t) := inferInstanceAs (Decidable (_ ∧ _))

lemma near_self (t : Point) : Near t t := by
  rw [Near, sub_self, sub_self, abs_zero]
  decide

/-- The cells close to a point are those of the region that are near it, also where the square around
the point reaches beyond the largest coordinate. -/
lemma mem_close : q ∈ close s t ↔ q ∈ s.extent ∧ Near q t := by
  have hreach : reach.toInt = 2 := rfl
  have hback : (-reach).toInt = -2 := rfl
  have hone : (1 : Int32).toInt = 1 := rfl
  have hwidth := s.width.toInt_lt
  have hheight := s.height.toInt_lt
  rw [close, Extent.mem_inter, and_comm]
  refine and_congr_right fun hq => ?_
  rw [mem_extent_iff] at hq
  have hx : (Extent.ofMax (t.add ⟨-reach, -reach⟩) (t.add ⟨reach, reach⟩)).upper.x.toInt = _ :=
    Extent.toInt_saturatingAdd_span _ _
  have hy : (Extent.ofMax (t.add ⟨-reach, -reach⟩) (t.add ⟨reach, reach⟩)).upper.y.toInt = _ :=
    Extent.toInt_saturatingAdd_span _ _
  rw [Extent.mem_iff_toInt, hx, hy, Near, abs_le, abs_le, hreach]
  simp only [Extent.ofMax, Extent.ofUpper, Extent.ofShape, Point.add, toInt_saturatingAdd, hreach,
    hback, hone]
  omega

/-- A cell that follows a target: the target itself, or one that differs too much. -/
def Follows (s : Surface) (t : Point) (height : Float) (q : Point) : Prop :=
  q = t ∨ threshold < (s.level q - height).abs

instance (s : Surface) (t : Point) (height : Float) (q : Point) :
    Decidable (Follows s t height q) :=
  inferInstanceAs (Decidable (_ ∨ _))

/-- A touch of smoothing changes the point that it touches, if that follows the target. -/
lemma exists_touch_smoothTouch (hfinite : height.isFinite = true) (s : Surface) (t p : Point) :
    ∃ s', s.touch (smoothTouch t height p) = .ok s' ∧ s.SameFrame s' ∧ ∀ q, s'.stored? q =
      if p = q ∧ Follows s t height p then
        (s.stored? q).map fun _ => Height.quantize height s.grid.factor
      else s.stored? q := by
  have hfollows : (p = t ∨ threshold < (s.level p - height).abs) ↔ Follows s t height p := Iff.rfl
  rw [touch, smoothTouch, get_eq_level, ok_bind]
  simp only [hfollows]
  split_ifs with hfollow
  · obtain ⟨s', hs', hframe, hstored⟩ := exists_set_stored? s p height
    refine ⟨s', hs', hframe, fun q => (hstored q).trans ?_⟩
    simp only [hfinite, hfollow]
  · refine ⟨s, rfl, sameFrame_self s, fun q => ?_⟩
    rw [if_neg fun h => hfollow h.2]

/-- What is known while a height is smoothed into a region: the points that the loop has passed store
it if they followed the target before, and the others are as they were. -/
structure Smoothed (s : Surface) (t : Point) (height : Float) (done : List Point) (s' : Surface) :
    Prop where
  frame : s.SameFrame s'
  stored_eq : ∀ q ∈ s.extent, s'.stored? q =
    if q ∈ done ∧ Follows s t height q then some (Height.quantize height s.grid.factor)
    else s.stored? q

lemma Smoothed.exists_touch {done : List Point} (h : Smoothed s t height done s')
    (hfinite : height.isFinite = true) (hp : p ∈ s.extent) (hfresh : p ∉ done) :
    ∃ s₂, s'.touch (smoothTouch t height p) = .ok s₂ ∧
      Smoothed s t height (done ++ [p]) s₂ := by
  -- the point has not been touched, so it follows the target as it did at the start
  have hsame : s'.level p = s.level p := by
    rw [level, level, h.frame.factor_eq, h.stored_eq p hp, if_neg fun hdone => hfresh hdone.1]
  have hfollows : Follows s' t height p ↔ Follows s t height p := by rw [Follows, Follows, hsame]
  obtain ⟨s₂, hs₂, hframe₂, hstored₂⟩ := exists_touch_smoothTouch hfinite s' t p
  refine ⟨s₂, hs₂, h.frame.trans hframe₂, fun q hq => ?_⟩
  rw [hstored₂, h.stored_eq q hq, h.frame.factor_eq]
  simp only [hfollows]
  by_cases hpq : p = q
  · subst hpq
    obtain ⟨n, hn⟩ := exists_stored? hq
    simp [hfresh, hn]
  · simp [hpq, Ne.symm hpq]

/-- After a height was smoothed into a region, the cells near the target store it that followed the
target before, and no others changed. -/
lemma exists_smoothInto_stored? (hfinite : height.isFinite = true) (s : Surface) (t : Point) :
    ∃ s', smoothInto s t height = .ok s' ∧ s.SameFrame s' ∧ ∀ q ∈ s.extent, s'.stored? q =
      if Near q t ∧ Follows s t height q then some (Height.quantize height s.grid.factor)
      else s.stored? q := by
  have hstep : ∀ before p after s₁, before ++ p :: after = (close s t).points →
      Smoothed s t height before s₁ → ∃ s₂, s₁.touch (smoothTouch t height p) = .ok s₂ ∧
        Smoothed s t height (before ++ [p]) s₂ := by
    intro before p after s₁ hsplit h
    have hmem : p ∈ (close s t).points := hsplit ▸ List.mem_append_right _ List.mem_cons_self
    have hnodup := Extent.nodup_points (close s t)
    rw [← hsplit] at hnodup
    exact h.exists_touch hfinite (mem_close.mp (Extent.mem_points.mp hmem)).1
      fun hbefore => List.disjoint_of_nodup_append hnodup hbefore List.mem_cons_self
  rw [smoothInto_eq_edit, edit, List.foldlM_map]
  obtain ⟨s', hs', hframe, hstored⟩ :=
    exists_foldlM_prefix ⟨sameFrame_self s, fun q hq => by simp⟩ hstep
  refine ⟨s', hs', hframe, fun q hq => ?_⟩
  simp only [hstored q hq, Extent.mem_points, mem_close, hq, true_and]

/-! ### Where heights have come from -/

/-- The point that a merge takes a point of the source to. -/
def target (lib : Number.MathLibrary) (d : Displacement) (rotation : Float32) (pivot : Pivot)
    (p : Point) : Point :=
  (turned (lib.sineSingle rotation) (lib.cosineSingle rotation) pivot p).add d.offset

/-- The height that a merge takes from a point of the source. -/
def raised (source : Surface) (d : Displacement) (p : Point) : Float := source.level p + d.rise

/-- What is known of a region after some cells of the source were turned into it, one after another.
A cell is as it was or stores the height of a cell that came to a point near it. A cell that one came
to stores the height of one that came near. Around the last cell that came, the cells store its height
or do not differ too much from it. -/
structure Turned (lib : Number.MathLibrary) (s source : Surface) (d : Displacement)
    (rotation : Float32) (pivot : Pivot) (done : List Point) (s' : Surface) : Prop where
  frame : s.SameFrame s'
  origin : ∀ q ∈ s.extent, s'.stored? q = s.stored? q ∨
    ∃ p ∈ done, target lib d rotation pivot p ∈ s.extent ∧ Near q (target lib d rotation pivot p) ∧
      s'.stored? q = some (Height.quantize (raised source d p) s.grid.factor)
  hit : ∀ p ∈ done, target lib d rotation pivot p ∈ s.extent →
    ∃ p' ∈ done, target lib d rotation pivot p' ∈ s.extent ∧
      Near (target lib d rotation pivot p) (target lib d rotation pivot p') ∧
      s'.stored? (target lib d rotation pivot p) =
        some (Height.quantize (raised source d p') s.grid.factor)
  last : ∀ p ∈ done, target lib d rotation pivot p ∈ s.extent →
    (∀ p' ∈ done, p.Before p' → target lib d rotation pivot p' ∉ s.extent) →
    s'.stored? (target lib d rotation pivot p) =
        some (Height.quantize (raised source d p) s.grid.factor) ∧
      ∀ q ∈ s.extent, Near q (target lib d rotation pivot p) →
        s'.stored? q = some (Height.quantize (raised source d p) s.grid.factor) ∨
          ¬threshold < (s'.level q - raised source d p).abs

lemma turned_nil (lib : Number.MathLibrary) (s source : Surface) (d : Displacement)
    (rotation : Float32) (pivot : Pivot) :
    Turned lib s source d rotation pivot [] s :=
  ⟨sameFrame_self s, fun _ _ => .inl rfl, by simp, by simp⟩

/-- A cell that does not come into the region leaves everything known. -/
lemma Turned.skip {done : List Point} (h : Turned lib s source d rotation pivot done s')
    (hp : target lib d rotation pivot p ∉ s.extent) :
    Turned lib s source d rotation pivot (done ++ [p]) s' where
  frame := h.frame
  origin := fun q hq => (h.origin q hq).imp_right fun ⟨p', hp', hfrom⟩ =>
    ⟨p', List.mem_append_left _ hp', hfrom⟩
  hit := by
    intro p' hp' htarget
    rcases List.mem_append.mp hp' with hdone | hlast
    · obtain ⟨p'', hp'', hfrom⟩ := h.hit p' hdone htarget
      exact ⟨p'', List.mem_append_left _ hp'', hfrom⟩
    · exact absurd (List.mem_singleton.mp hlast ▸ htarget) hp
  last := by
    intro p' hp' htarget hlater
    rcases List.mem_append.mp hp' with hdone | hlast
    · exact h.last p' hdone htarget fun p'' hp'' => hlater p'' (List.mem_append_left _ hp'')
    · exact absurd (List.mem_singleton.mp hlast ▸ htarget) hp

/-- A cell that comes into the region becomes the last one. -/
lemma Turned.smooth {done : List Point} {s₂ : Surface}
    (h : Turned lib s source d rotation pivot done s') (hdone : ∀ p' ∈ done, p'.Before p)
    (hp : target lib d rotation pivot p ∈ s.extent) (hframe : s'.SameFrame s₂)
    (hstored : ∀ q ∈ s.extent, s₂.stored? q =
      if Near q (target lib d rotation pivot p) ∧
          Follows s' (target lib d rotation pivot p) (raised source d p) q then
        some (Height.quantize (raised source d p) s.grid.factor)
      else s'.stored? q) :
    Turned lib s source d rotation pivot (done ++ [p]) s₂ := by
  have hmem : p ∈ done ++ [p] := List.mem_append_right _ (List.mem_singleton_self p)
  have htarget : s₂.stored? (target lib d rotation pivot p) =
      some (Height.quantize (raised source d p) s.grid.factor) :=
    (hstored _ hp).trans (if_pos ⟨near_self _, .inl rfl⟩)
  refine ⟨h.frame.trans hframe, fun q hq => ?_, fun p' hp' hin => ?_, fun p' hp' hin hlater => ?_⟩
  · rw [hstored q hq]
    split_ifs with hfollow
    · exact .inr ⟨p, hmem, hp, hfollow.1, rfl⟩
    · exact (h.origin q hq).imp_right fun ⟨p', hp', hfrom⟩ =>
        ⟨p', List.mem_append_left _ hp', hfrom⟩
  · rcases List.mem_append.mp hp' with hold | hnew
    · rw [hstored _ hin]
      split_ifs with hfollow
      · exact ⟨p, hmem, hp, hfollow.1, rfl⟩
      · obtain ⟨p'', hp'', hfrom⟩ := h.hit p' hold hin
        exact ⟨p'', List.mem_append_left _ hp'', hfrom⟩
    · obtain rfl := List.mem_singleton.mp hnew
      exact ⟨p', hmem, hp, near_self _, htarget⟩
  · rcases List.mem_append.mp hp' with hold | hnew
    · exact absurd hp (hlater p hmem (hdone p' hold))
    · obtain rfl := List.mem_singleton.mp hnew
      refine ⟨htarget, fun q hq hnear => ?_⟩
      have hq₂ := hstored q hq
      split_ifs at hq₂ with hfollow
      · exact .inl hq₂
      · have hsame : s₂.level q = s'.level q := by rw [level, level, hframe.factor_eq, hq₂]
        rw [hsame]
        exact .inr fun hfar => hfollow ⟨hnear, .inr hfar⟩

/-- Turning one more cell into the region goes through. -/
lemma Turned.exists_turnCell {done : List Point} (h : Turned lib s source d rotation pivot done s')
    (hdone : ∀ p' ∈ done, p'.Before p) (hfinite : (raised source d p).isFinite = true) :
    ∃ s₂, turnCell source d (lib.sineSingle rotation) (lib.cosineSingle rotation) pivot s' p =
        .ok s₂ ∧ Turned lib s source d rotation pivot (done ++ [p]) s₂ := by
  have hextent := h.frame.extent_eq
  have htarget : (turned (lib.sineSingle rotation) (lib.cosineSingle rotation) pivot p).add
      d.offset = target lib d rotation pivot p := rfl
  rw [turnCell, get_eq_level, ok_bind, htarget, hextent]
  split_ifs with hp
  · obtain ⟨s₂, hs₂, hframe, hstored⟩ :=
      exists_smoothInto_stored? hfinite s' (target lib d rotation pivot p)
    rw [hextent, h.frame.factor_eq] at hstored
    exact ⟨s₂, hs₂, h.smooth hdone hp hframe hstored⟩
  · exact ⟨s', rfl, h.skip hp⟩

/-- A merge with a turn goes through if every height it takes is finite. -/
lemma exists_cells_turned (lib : Number.MathLibrary) (hrotation : (rotation == 0) = false)
    (s : Surface) (pivot : Pivot)
    (hfinite : ∀ p ∈ source.extent, (raised source d p).isFinite = true) :
    ∃ s', cells lib s source d rotation pivot = .ok s' ∧
      Turned lib s source d rotation pivot source.extent.points s' := by
  rw [cells, if_neg (by rw [hrotation]; exact Bool.false_ne_true)]
  refine exists_foldlM_prefix (turned_nil lib s source d rotation pivot) ?_
  intro before a after s₁ hsplit h
  have hmem : a ∈ source.extent.points := hsplit ▸ List.mem_append_right _ List.mem_cons_self
  have hordered := source.extent.pairwise_points
  rw [← hsplit, List.pairwise_append] at hordered
  exact h.exists_turnCell (fun p' hp' => hordered.2.2 p' hp' a List.mem_cons_self)
    (hfinite a (Extent.mem_points.mp hmem))

end Terrain.Merge

namespace Terrain

open Surface Merge

/-- What a merge with a turn leaves behind, whatever the sine and the cosine of the turn are computed
as. A cell of the region is as it was, or stores the height of a cell of the source whose target is
near it; one that is itself a target has such a height. The target of the last cell of the source that
comes into the region stores the height of that cell, and the cells near it store the same or do not
differ from it by more than the threshold. -/
theorem Surface.merge_turned (lib : Number.MathLibrary) (s source : Surface) (d : Displacement)
    (rotation : Float32) (pivot : Pivot) (hrotation : (rotation == 0) = false)
    (hfinite : ∀ p ∈ source.extent, (raised source d p).isFinite = true) :
    ∃ s', (s.merge lib source d rotation pivot).result = .ok s' ∧ s.SameFrame s' ∧
      (∀ q ∈ s.extent, s'.stored? q = s.stored? q ∨
        ∃ p ∈ source.extent, target lib d rotation pivot p ∈ s.extent ∧
          Near q (target lib d rotation pivot p) ∧
          s'.stored? q = some (Height.quantize (raised source d p) s.grid.factor)) ∧
      (∀ p ∈ source.extent, target lib d rotation pivot p ∈ s.extent →
        ∃ p' ∈ source.extent, target lib d rotation pivot p' ∈ s.extent ∧
          Near (target lib d rotation pivot p) (target lib d rotation pivot p') ∧
          s'.stored? (target lib d rotation pivot p) =
            some (Height.quantize (raised source d p') s.grid.factor)) ∧
      (∀ p ∈ source.extent, target lib d rotation pivot p ∈ s.extent →
        (∀ p' ∈ source.extent, p.Before p' → target lib d rotation pivot p' ∉ s.extent) →
        s'.stored? (target lib d rotation pivot p) =
            some (Height.quantize (raised source d p) s.grid.factor) ∧
          ∀ q ∈ s.extent, Near q (target lib d rotation pivot p) →
            s'.stored? q = some (Height.quantize (raised source d p) s.grid.factor) ∨
              ∃ level, s'.get q.x q.y = .ok level ∧
                ¬threshold < (level - raised source d p).abs) := by
  obtain ⟨s', hs', h⟩ := exists_cells_turned lib hrotation s pivot hfinite
  refine ⟨s', ?_, h.frame, ?_, ?_, ?_⟩
  · rw [Surface.merge, Logged.result_bind]
    exact hs'
  · simpa only [Extent.mem_points] using h.origin
  · simpa only [Extent.mem_points] using h.hit
  · intro p hp htarget hlater
    simp only [← Extent.mem_points (e := source.extent)] at hp hlater
    obtain ⟨hown, haround⟩ := h.last p hp htarget hlater
    exact ⟨hown, fun q hq hnear => (haround q hq hnear).imp_right fun hclose =>
      ⟨s'.level q, get_eq_level s' q, hclose⟩⟩

/-- A quarter turn brings two cells of the last column to the same corner, of which the second one is
the last cell to come into the region. -/
theorem Surface.merge_turned_quarter : ∃ s',
    ((ofSize 16 16).merge .nearest (flat 16 16) ⟨0, 0, 2.5⟩ 1.5707964 ⟨2, 2⟩).result = .ok s' ∧
      s'.stored? ⟨0, 15⟩ = some 2350 ∧
      (s'.stored? ⟨2, 13⟩ = some 2350 ∨
        ∃ level, s'.get 2 13 = .ok level ∧ ¬threshold < (level - 23.5).abs) := by
  have hraised : ∀ p ∈ (flat 16 16).extent, raised (flat 16 16) ⟨0, 0, 2.5⟩ p = 23.5 := by
    intro p hp
    rw [raised, level, stored?_flat hp]
    decide +kernel
  obtain ⟨s', hs', -, -, -, hlast⟩ := merge_turned .nearest (ofSize 16 16) (flat 16 16)
    ⟨0, 0, 2.5⟩ 1.5707964 ⟨2, 2⟩ (by decide +kernel) fun p hp => by rw [hraised p hp]; decide +kernel
  have hlater : ∀ p ∈ (flat 16 16).extent.points, (15 < p.x.toInt ∨ 15 = p.x.toInt ∧ 4 < p.y.toInt) →
      target .nearest ⟨0, 0, 2.5⟩ 1.5707964 ⟨2, 2⟩ p ∉ (ofSize 16 16).extent := by decide +kernel
  have htarget : target .nearest ⟨0, 0, 2.5⟩ 1.5707964 ⟨2, 2⟩ ⟨15, 4⟩ = ⟨0, 15⟩ := by decide +kernel
  have hquantum : Height.quantize 23.5 (ofSize 16 16).grid.factor = 2350 := by decide +kernel
  obtain ⟨hcorner, haround⟩ := hlast ⟨15, 4⟩ (by decide) (by rw [htarget]; decide)
    fun p hp => hlater p (Extent.mem_points.mpr hp)
  rw [hraised ⟨15, 4⟩ (by decide), hquantum, htarget] at hcorner haround
  exact ⟨s', hs', hcorner, haround ⟨2, 13⟩ (by decide) (by decide)⟩

end Terrain
