import Terrain.Proofs.Brush.Revert

/-!
# Reverting again and again

A cell that is reverted again and again settles: from some round on it keeps what it stores. It does
not have to settle at the reference. The fraction of every height is cut, so on the way from zero a cell
may stop as soon as a round would move it by less than one, which is far away where the weight is small.
Only a cell that comes from behind the reference, or has more than half of the weight, is sure to end up
within one of it (`Revert.applyTimes_settles`).
-/

namespace Terrain

open Number

/-! ### Iterations that settle -/

/-- An iteration whose every change lowers a measure arrives at a fixed point. -/
lemma exists_iterate_fixed {α : Type} {f : α → α} {P : α → Prop} (μ : α → ℕ)
    (hP : ∀ a, P a → P (f a)) (hμ : ∀ a, P a → f a ≠ a → μ (f a) < μ a) {a : α} (ha : P a) :
    ∃ j, f (f^[j] a) = f^[j] a := by
  induction hm : μ a using Nat.strong_induction_on generalizing a with
  | _ m ih =>
    by_cases hfix : f a = a
    · exact ⟨0, hfix⟩
    · obtain ⟨j, hj⟩ := ih _ (hm ▸ hμ a ha hfix) (hP a ha) rfl
      exact ⟨j + 1, hj⟩

/-- A function that keeps the order of the stored integers is at rest after some rounds. -/
lemma exists_settled {f : Int32 → Int32}
    (hmono : ∀ a b, a.toInt ≤ b.toInt → (f a).toInt ≤ (f b).toInt) (n : Int32) :
    ∃ k rounds, f k = k ∧ ∀ j, rounds ≤ j → f^[j] n = k := by
  have hfixed : ∃ j, f (f^[j] n) = f^[j] n := by
    have hne (a) (h : f a ≠ a) : (f a).toInt ≠ a.toInt := fun heq => h (Int32.toInt_inj.mp heq)
    -- the first step says in which direction all the others go
    rcases le_total n.toInt (f n).toInt with hup | hdown
    · refine exists_iterate_fixed (P := fun a => a.toInt ≤ (f a).toInt)
        (fun a => (2 ^ 31 - a.toInt).toNat) (fun a ha => hmono _ _ ha) (fun a ha h => ?_) hup
      have := hne a h
      have := (f a).toInt_lt
      omega
    · refine exists_iterate_fixed (P := fun a => (f a).toInt ≤ a.toInt)
        (fun a => (a.toInt + 2 ^ 31).toNat) (fun a ha => hmono _ _ ha) (fun a ha h => ?_) hdown
      have := hne a h
      have := (f a).le_toInt
      omega
  obtain ⟨rounds, hrounds⟩ := hfixed
  refine ⟨f^[rounds] n, rounds, hrounds, fun j hj => ?_⟩
  obtain ⟨i, rfl⟩ := Nat.exists_eq_add_of_le' hj
  rw [Function.iterate_add_apply, Function.iterate_fixed hrounds]

namespace Revert

open Surface

/-! ### Integers at rest -/

section Rest

variable {a k m : ℤ} {r w ε : ℝ}

/-- An integer at rest is not further away than what a weight takes for one. -/
lemma abs_sub_mul_lt_of_rest (hw : 0 ≤ w) (hr : |r - ((1 - w) * k + w * m)| ≤ ε)
    (hk : towardZero r = k) : |(k : ℝ) - m| * w < 1 + ε := by
  have hcut := abs_lt.mp (hk ▸ abs_sub_towardZero_lt r)
  have hr := abs_le.mp hr
  calc |(k : ℝ) - m| * w = |(k - m) * w| := by rw [abs_mul, abs_of_nonneg hw]
    _ < 1 + ε := abs_lt.mpr ⟨by linarith, by linarith⟩

/-- An integer at rest lies between zero and the target, unless the weight is tiny. -/
lemma between_of_rest (hε : ε < w) (hr : |r - ((1 - w) * k + w * m)| ≤ ε) (hk : towardZero r = k) :
    (0 ≤ k ∧ k ≤ m) ∨ (m ≤ k ∧ k ≤ 0) := by
  have hr := abs_le.mp hr
  have hw : 0 < w := by linarith
  rcases lt_trichotomy k 0 with hneg | rfl | hpos
  · have hle : r ≤ k := hk ▸ le_intCast_towardZero (hk ▸ hneg)
    have hlt : ((m - k : ℤ) : ℝ) * w < 1 * w := by
      push_cast
      linarith
    have hlt : m - k < 1 := by exact_mod_cast lt_of_mul_lt_mul_right hlt hw.le
    exact .inr ⟨by omega, hneg.le⟩
  · exact (le_total 0 m).imp (fun h => ⟨le_rfl, h⟩) fun h => ⟨h, le_rfl⟩
  · have hle : (k : ℝ) ≤ r := hk ▸ intCast_towardZero_le (hk ▸ hpos)
    have hlt : ((k - m : ℤ) : ℝ) * w < 1 * w := by
      push_cast
      linarith
    have hlt : k - m < 1 := by exact_mod_cast lt_of_mul_lt_mul_right hlt hw.le
    exact .inl ⟨hpos.le, by omega⟩

/-- What is above the last integer before the target stays there. -/
lemma sub_one_le_towardZero (hε : ε < w) (hw' : w ≤ 1) (hr : |r - ((1 - w) * a + w * m)| ≤ ε)
    (ha : m - 1 ≤ a) : m - 1 ≤ towardZero r := by
  have hr := abs_le.mp hr
  have ha' : (m : ℝ) - 1 ≤ a := by exact_mod_cast ha
  have hmean : (1 - w) * (m - 1) ≤ (1 - w) * a := mul_le_mul_of_nonneg_left ha' (by linarith)
  refine le_towardZero ?_
  push_cast
  linarith

lemma towardZero_le_add_one (hε : ε < w) (hw' : w ≤ 1) (hr : |r - ((1 - w) * a + w * m)| ≤ ε)
    (ha : a ≤ m + 1) : towardZero r ≤ m + 1 := by
  have hr := abs_le.mp hr
  have ha' : (a : ℝ) ≤ m + 1 := by exact_mod_cast ha
  have hmean : (1 - w) * a ≤ (1 - w) * (m + 1) := mul_le_mul_of_nonneg_left ha' (by linarith)
  refine towardZero_le ?_
  push_cast
  linarith

end Rest

/-! ### One round -/

variable {reference s : Surface} {mask : Mask} {stroke : Stroke} {p : Point} {factor : Float32}
  {weight : Float} {n m : Int32} {w : ℝ}

/-- What one round makes of the stored integer of a point. -/
def pull (reference : Surface) (mask : Mask) (stroke : Stroke) (factor : Float32) (p : Point)
    (n : Int32) : Int32 :=
  if 0 < stroke.duration ∧ mask.allows p = true then repaint (rule reference stroke p) factor n else n

lemma exists_apply_pull (reference s : Surface) (mask : Mask) (stroke : Stroke) :
    ∃ t, apply reference s mask stroke = .ok t ∧ s.SameFrame t ∧
      ∀ p, t.stored? p = (s.stored? p).map (pull reference mask stroke s.grid.factor p) := by
  obtain ⟨t, ht, hpainted⟩ := exists_apply reference s mask stroke
  refine ⟨t, ht, hpainted.frame, fun p => ?_⟩
  rw [hpainted.stored_eq]
  cases hp : s.stored? p with
  | none => rw [Option.map_none, Option.map_none, ite_self]
  | some n =>
    have hreached : p ∈ points s stroke ↔ 0 < stroke.duration := by
      rw [points]
      split_ifs with hduration
      · exact iff_of_true (Extent.mem_points.mpr (mem_extent_of_stored? hp)) hduration
      · exact iff_of_false List.not_mem_nil hduration
    simp only [hreached, Option.map_some, pull]
    split_ifs <;> rfl

/-- A higher height is not blended to a lower one. -/
lemma blended_mono {x x' y : ℝ} (hw : 0 ≤ w) (hw' : w ≤ 1) (h : x ≤ x') :
    blended x y w ≤ blended x' y w := by
  obtain ⟨hv, -, -⟩ := round_rest_bounds hw hw'
  have hkept := double.round_mono (mul_le_mul_of_nonneg_right h hv)
  exact double.round_mono (by linarith)

/-- Reverting keeps the order of the stored integers. -/
lemma toInt_repaint_mono (hlevel : reference.level p = Height.ofStored m factor) (hpos : 0 < factor)
    (hfin : factor.isFinite = true) {a b : Int32} (h : a.toInt ≤ b.toInt) :
    (repaint (rule reference stroke p) factor a).toInt ≤
      (repaint (rule reference stroke p) factor b).toInt := by
  cases hweight : weight? stroke p with
  | none => rwa [repaint_of_none a hweight, repaint_of_none b hweight]
  | some weight =>
    cases hnumber : weight.isFinite with
    | false =>
      rwa [repaint_of_not_isFinite a hweight hnumber, repaint_of_not_isFinite b hweight hnumber]
    | true =>
      obtain ⟨r, hr, hlo, hhi⟩ := exists_denotes_of_pos hpos hfin
      obtain ⟨w, hw, hw0, hw1⟩ := exists_stands_weight hweight hnumber
      have hr0 : 0 < r := lt_of_lt_of_le (by positivity) hlo
      have h : (a.toInt : ℝ) ≤ b.toInt := by exact_mod_cast h
      rw [toInt_repaint a hlevel hr hlo hhi hweight hw hw0 hw1,
        toInt_repaint b hlevel hr hlo hhi hweight hw hw0 hw1]
      refine towardZero_mono (double.round_mono (mul_le_mul_of_nonneg_right ?_ hr0.le))
      exact blended_mono hw0 hw1 (double.round_mono (div_le_div_of_nonneg_right h hr0.le))

lemma toInt_pull_mono (mask : Mask) (stroke : Stroke)
    (hlevel : reference.level p = Height.ofStored m factor) (hpos : 0 < factor)
    (hfin : factor.isFinite = true) {a b : Int32} (h : a.toInt ≤ b.toInt) :
    (pull reference mask stroke factor p a).toInt ≤
      (pull reference mask stroke factor p b).toInt := by
  rw [pull, pull]
  split_ifs
  · exact toInt_repaint_mono hlevel hpos hfin h
  · exact h

/-- Before its fraction is cut, a pulled integer is close to the weighted mean of the two integers. -/
lemma exists_toInt_pull (n : Int32) (hlevel : reference.level p = Height.ofStored m factor)
    (hpos : 0 < factor) (hfin : factor.isFinite = true) (hduration : 0 < stroke.duration)
    (hallows : mask.allows p = true) (hweight : weight? stroke p = some weight)
    (hw : Stands weight w) : ∃ r, (pull reference mask stroke factor p n).toInt = towardZero r ∧
      |r - ((1 - w) * n.toInt + w * m.toInt)| ≤ 1 / 2 ^ 8 := by
  obtain ⟨r, hr, hlo, hhi⟩ := exists_denotes_of_pos hpos hfin
  obtain ⟨hw0, hw1⟩ := weight_bounds hweight hw
  rw [pull, if_pos ⟨hduration, hallows⟩, toInt_repaint n hlevel hr hlo hhi hweight hw hw0 hw1]
  exact ⟨_, rfl, abs_blended_mul_sub_stored_le n m (lt_of_lt_of_le (by positivity) hlo) hhi hw0 hw1⟩

/-! ### Many rounds -/

/-- Reverts a surface a number of times. -/
def applyTimes (reference : Surface) (mask : Mask) (stroke : Stroke) :
    Nat → Surface → Except Error Surface
  | 0, s => .ok s
  | rounds + 1, s => apply reference s mask stroke >>= applyTimes reference mask stroke rounds

/-- Every round goes through, and pulls every point once. -/
lemma exists_applyTimes (reference : Surface) (mask : Mask) (stroke : Stroke) (rounds : Nat)
    (s : Surface) : ∃ t, applyTimes reference mask stroke rounds s = .ok t ∧ s.SameFrame t ∧
      ∀ p, t.stored? p = (s.stored? p).map (pull reference mask stroke s.grid.factor p)^[rounds] := by
  induction rounds generalizing s with
  | zero => exact ⟨s, rfl, sameFrame_self s, fun p => Option.map_id'.symm⟩
  | succ rounds ih =>
    obtain ⟨s', hs', hframe, hstored⟩ := exists_apply_pull reference s mask stroke
    obtain ⟨t, ht, hframe', hstored'⟩ := ih s'
    refine ⟨t, ?_, hframe.trans hframe', fun p => ?_⟩
    · rw [applyTimes, hs', ok_bind, ht]
    · rw [hstored', hstored, hframe.factor_eq, Option.map_map, Function.iterate_succ]

/-- No round takes a stored integer past the reference by more than one. -/
lemma pull_bounds (hlevel : reference.level p = Height.ofStored m factor) (hpos : 0 < factor)
    (hfin : factor.isFinite = true) (hduration : 0 < stroke.duration) (hallows : mask.allows p = true)
    (hweight : weight? stroke p = some weight) (hw : Stands weight w) (hε : 1 / 2 ^ 8 < w) :
    (m.toInt - 1 ≤ n.toInt → m.toInt - 1 ≤ (pull reference mask stroke factor p n).toInt) ∧
      (n.toInt ≤ m.toInt + 1 → (pull reference mask stroke factor p n).toInt ≤ m.toInt + 1) := by
  obtain ⟨r, hcut, hr⟩ := exists_toInt_pull n hlevel hpos hfin hduration hallows hweight hw
  have hw1 := (weight_bounds hweight hw).2
  rw [hcut]
  exact ⟨sub_one_le_towardZero hε hw1 hr, towardZero_le_add_one hε hw1 hr⟩

/-- Where a cell that stored `n` may come to rest, with `m` stored in the reference and a weight of
`w`. -/
structure Rests (n m k : ℤ) (w : ℝ) : Prop where
  near : |(k : ℝ) - m| * w < 1 + 1 / 2 ^ 8
  between : 1 / 2 ^ 8 < w → (0 ≤ k ∧ k ≤ m) ∨ (m ≤ k ∧ k ≤ 0)
  arrived : 1 / 2 ^ 8 < w →
    (0 ≤ m ∧ m ≤ n) ∨ (n ≤ m ∧ m ≤ 0) ∨ 1 + 1 / 2 ^ 8 ≤ 2 * w → |k - m| ≤ 1

/-- The stored integer of a point comes to rest after some rounds. -/
lemma exists_rest (mask : Mask) (stroke : Stroke) (n : Int32)
    (hlevel : reference.level p = Height.ofStored m factor) (hpos : 0 < factor)
    (hfin : factor.isFinite = true) :
    ∃ k rounds, (∀ j, rounds ≤ j → (pull reference mask stroke factor p)^[j] n = k) ∧
      ∀ weight w, 0 < stroke.duration → mask.allows p = true → weight? stroke p = some weight →
        Stands weight w → Rests n.toInt m.toInt k.toInt w := by
  obtain ⟨k, rounds, hrest, hsettled⟩ :=
    exists_settled (fun _ _ h => toInt_pull_mono mask stroke hlevel hpos hfin h) n
  refine ⟨k, rounds, hsettled, fun weight w hduration hallows hweight hw => ?_⟩
  obtain ⟨r, hcut, hr⟩ := exists_toInt_pull k hlevel hpos hfin hduration hallows hweight hw
  rw [hrest] at hcut
  have hnear := abs_sub_mul_lt_of_rest (weight_bounds hweight hw).1 hr hcut.symm
  refine ⟨hnear, fun hε => between_of_rest hε hr hcut.symm, fun hε => ?_⟩
  have hbounds (a : Int32) := pull_bounds (n := a) hlevel hpos hfin hduration hallows hweight hw hε
  rintro (⟨hm, hmn⟩ | ⟨hnm, hm⟩ | hhalf)
  · have hbehind : m.toInt - 1 ≤ k.toInt :=
      hsettled rounds le_rfl ▸ Function.Iterate.rec (fun a : Int32 => m.toInt - 1 ≤ a.toInt)
        (by omega : m.toInt - 1 ≤ n.toInt) (fun a ha => (hbounds a).1 ha) rounds
    have hbetween := between_of_rest hε hr hcut.symm
    rw [abs_le]
    omega
  · have hbehind : k.toInt ≤ m.toInt + 1 :=
      hsettled rounds le_rfl ▸ Function.Iterate.rec (fun a : Int32 => a.toInt ≤ m.toInt + 1)
        (by omega : n.toInt ≤ m.toInt + 1) (fun a ha => (hbounds a).2 ha) rounds
    have hbetween := between_of_rest hε hr hcut.symm
    rw [abs_le]
    omega
  · have hw0 : 0 < w := lt_trans (by norm_num) hε
    have htwo : |(k.toInt : ℝ) - m.toInt| < 2 := lt_of_mul_lt_mul_right (hnear.trans_le hhalf) hw0.le
    have htwo : |k.toInt - m.toInt| < 2 := by exact_mod_cast htwo
    omega

end Revert

/-- A cell of a surface that is reverted again and again, to a reference of the same sizes and factor,
stores the same integer from some round on. Where the cell may be changed and its weight is a number, a
weighted step from this integer to that of the reference is hardly longer than one. Unless the weight is
tiny, the integer lies between zero and that of the reference, and it is within one of the latter if the
cell came from behind it or if the weight is more than a half. -/
theorem Revert.applyTimes_settles (reference s : Surface) (mask : Mask) (stroke : Stroke)
    (hwidth : reference.grid.width = s.grid.width) (hheight : reference.grid.height = s.grid.height)
    (hfactor : reference.grid.factor = s.grid.factor) (hpos : 0 < s.grid.factor)
    (hfin : s.grid.factor.isFinite = true) (p : Point) (n : Int32) (hp : s.stored? p = some n) :
    ∃ m k rounds, reference.stored? p = some m ∧
      (∀ j, rounds ≤ j → ∃ t, applyTimes reference mask stroke j s = .ok t ∧ t.stored? p = some k) ∧
      ∀ weight w, 0 < stroke.duration → mask.allows p = true → weight? stroke p = some weight →
        Stands weight w → Rests n.toInt m.toInt k.toInt w := by
  obtain ⟨m, hm, hlevel⟩ := exists_level_eq hwidth hheight hfactor hp
  obtain ⟨k, rounds, hsettled, hrests⟩ := exists_rest mask stroke n hlevel hpos hfin
  refine ⟨m, k, rounds, hm, fun j hj => ?_, hrests⟩
  obtain ⟨t, ht, -, hstored⟩ := exists_applyTimes reference mask stroke j s
  exact ⟨t, ht, by rw [hstored, hp, Option.map_some, hsettled j hj]⟩

/-- A default height comes down to a reference of zeros. -/
theorem Revert.applyTimes_settles_flat : ∃ rounds, ∀ j, rounds ≤ j → ∃ t,
    applyTimes (Surface.ofSize 16 16) (.all (Surface.flat 16 16)) ⟨8, 8, 5, 1⟩ j (Surface.flat 16 16) =
      .ok t ∧ t.stored? ⟨8, 8⟩ = some 0 := by
  obtain ⟨m, k, rounds, hm, hsettled, hrests⟩ := applyTimes_settles (Surface.ofSize 16 16)
    (Surface.flat 16 16) (.all (Surface.flat 16 16)) ⟨8, 8, 5, 1⟩ rfl rfl rfl (by decide +kernel)
    (by decide +kernel) ⟨8, 8⟩ 2100 (by decide +kernel)
  have hreference : (Surface.ofSize 16 16).stored? ⟨8, 8⟩ = some 0 := by decide +kernel
  obtain rfl : 0 = m := Option.some.inj (hreference.symm.trans hm)
  obtain ⟨w, hw⟩ := exists_stands (x := 0.75) (by decide +kernel)
  have hhalf : 1 / 2 < w := (stands_half.lt hw).mp (by decide +kernel)
  have hrest := hrests 0.75 w (by decide +kernel) (by decide +kernel) (by decide +kernel) hw
  have hbetween := hrest.between (lt_trans (by norm_num) hhalf)
  have hzero : (0 : Int32).toInt = 0 := rfl
  obtain rfl : k = 0 := Int32.toInt_inj.mp (by omega)
  exact ⟨rounds, hsettled⟩

/-- A cell may stay away from the reference: on the way up to the 2100 of a default height no round
takes it past 2067, where the next one would move it by less than one. -/
theorem Revert.not_applyTimes_converges : (Surface.flat 16 16).stored? ⟨10, 10⟩ = some 2100 ∧
    0 < 3 * 3 - Stroke.distanceSquared ⟨8, 8, 3, 1⟩ ⟨10, 10⟩ ∧ ∀ j, ∃ t k,
      applyTimes (Surface.flat 16 16) (.all (Surface.ofSize 16 16)) ⟨8, 8, 3, 1⟩ j
        (Surface.ofSize 16 16) = .ok t ∧ t.stored? ⟨10, 10⟩ = some k ∧ k.toInt ≤ 2067 := by
  have htarget : (Surface.flat 16 16).stored? ⟨10, 10⟩ = some 2100 := by decide +kernel
  have hstart : (Surface.ofSize 16 16).stored? ⟨10, 10⟩ = some 0 := by decide +kernel
  refine ⟨htarget, by decide +kernel, fun j => ?_⟩
  obtain ⟨t, ht, -, hstored⟩ := exists_applyTimes (Surface.flat 16 16)
    (.all (Surface.ofSize 16 16)) ⟨8, 8, 3, 1⟩ j (Surface.ofSize 16 16)
  have hstored := hstored ⟨10, 10⟩
  rw [hstart, Option.map_some] at hstored
  refine ⟨t, _, ht, hstored, ?_⟩
  have hrest : pull (Surface.flat 16 16) (.all (Surface.ofSize 16 16)) ⟨8, 8, 3, 1⟩
      Height.defaultFactor ⟨10, 10⟩ 2067 = 2067 := by decide +kernel
  refine Function.Iterate.rec (fun a : Int32 => a.toInt ≤ (2067 : Int32).toInt) (by decide)
    (fun a ha => ?_) j
  calc (pull _ _ _ _ _ a).toInt ≤ (pull _ _ _ _ _ 2067).toInt :=
        toInt_pull_mono _ _ (Surface.level_of_stored? htarget) (by decide +kernel)
          (by decide +kernel) ha
    _ = (2067 : Int32).toInt := congrArg Int32.toInt hrest

end Terrain
