import Terrain.Proofs.Sharing.Watch

/-!
# Through the handle

While the surface and the handle have the same reference, a call through the handle is seen by the
surface, and clearing and draining through either is the same (`Watch.Shares`). Once they have
different ones, neither sees what happens to the flags of the other (`Watch.Parted`).
-/

namespace Terrain

namespace Watch

open Surface (Action)

variable {lib : Number.MathLibrary} {w w' : Watch} {s s' : Surface} {a : Action} {flags : PatchFlags}
  {reply : Reply}

/-! ### Through the handle -/

lemma get?_hold (w : Watch) (flags : PatchFlags) (ref : FlagRef) : (w.hold flags).store.get? ref =
    if w.handle = ref then (w.store.get? ref).map fun _ => flags else w.store.get? ref :=
  FlagStore.get?_set_eq _ _ _ _

lemma hold_self (h : w.store.get? w.handle = some flags) : w.hold flags = w := by
  refine Watch.ext (FlagStore.ext_get? fun ref => ?_) rfl rfl
  rw [get?_hold]
  split_ifs with href
  · rw [← href, h]
    rfl
  · rfl

/-- A call goes through and leaves flags of as many patches. -/
lemma exists_touch (hheld : w.store.get? w.handle = some flags) (c : FlagCall) :
    ∃ reply flags', w.touch c = .ok (reply, w.hold flags') ∧
      flags'.columns = flags.columns ∧ flags'.rows = flags.rows := by
  rw [touch, hheld]
  dsimp only
  cases hanswer : c.answer flags with
  | error e => exact ⟨_, flags, by rw [hold_self hheld], rfl, rfl⟩
  | ok r => exact ⟨_, _, rfl, FlagCall.dims_answer hanswer⟩

/-- A surface that does not share the flags behind the handle does not see them. -/
lemma surface?_hold_of_ne (hne : w.region.flags ≠ w.handle) (flags : PatchFlags) :
    (w.hold flags).surface? = w.surface? := by
  have hflags : (w.hold flags).region = w.region := rfl
  refine Option.ext fun s => ?_
  rw [surface?_eq_some_iff, surface?_eq_some_iff, get?_hold, hflags, if_neg hne.symm]

/-- A surface that shares the flags behind the handle takes them over. -/
lemma surface?_hold_of_eq (h : w.surface? = some s) (hsame : w.region.flags = w.handle)
    (hcolumns : flags.columns = s.grid.flags.columns) (hrows : flags.rows = s.grid.flags.rows) :
    (w.hold flags).surface? = some ⟨s.grid.withFlags flags hcolumns hrows⟩ := by
  have hflags : (w.hold flags).region = w.region := rfl
  rw [surface?_eq_some_iff] at h ⊢
  refine ⟨h.1, ?_⟩
  rw [get?_hold, hflags, if_pos hsame.symm, h.2]
  rfl

/-! ### Apart -/

lemma put_hold (hne : w.region.flags ≠ w.handle) (flags : PatchFlags) (s' : Surface) :
    (w.hold flags).put s' = (w.put s').hold flags := by
  refine Watch.ext (FlagStore.ext_get? fun ref => ?_) rfl rfl
  have hhandle : (w.put s').handle = w.handle := rfl
  have hregion : (w.hold flags).region = w.region := rfl
  rw [get?_put, get?_hold, get?_hold, get?_put, hhandle, hregion]
  split_ifs with hflags hheld
  · exact absurd (hflags.trans hheld.symm) hne
  · rfl
  · rfl
  · rfl

lemma region_load_hold (w : Watch) (flags : PatchFlags) (g : HeightGrid) :
    ((w.hold flags).load g).region = (w.load g).region := by
  have hflags : ((w.hold flags).load g).region.flags = (w.load g).region.flags := by
    rw [flags_load, flags_load, hold, FlagStore.insert_set_fst]
  exact congrArg (SharedGrid.mk g.toHeights) hflags

/-- A load does not see flags that it does not clear. -/
lemma load_hold (hheld : w.store.get? w.handle = some flags) {g : HeightGrid}
    (hne : (w.load g).region.flags ≠ w.handle) (flags' : PatchFlags) :
    (w.hold flags').load g = (w.load g).hold flags' := by
  have hregion := region_load_hold w flags' g
  have hfresh : ((w.hold flags').store.insert g.flags).1 = (w.store.insert g.flags).1 :=
    FlagStore.insert_set_fst _ _ _ _
  have hhandle : (w.load g).handle = w.handle := rfl
  refine Watch.ext (FlagStore.ext_get? fun ref => ?_) hregion rfl
  rw [get?_hold, hhandle, get?_load, hregion, FlagStore.get?_insert, hfresh, get?_hold]
  by_cases href : w.handle = ref
  · subst href
    rw [if_neg hne, if_neg (FlagStore.insert_ne hheld _).symm, if_pos rfl, if_pos rfl,
      get?_handle_load hheld hne, hheld]
  · rw [if_neg href, if_neg href, get?_load, FlagStore.get?_insert]

/-- While the surface has other flags than the handle, and keeps to that, what it answers and leaves
does not depend on those of the handle. -/
lemma perform_hold (h : w.surface? = some s) (hheld : w.store.get? w.handle = some flags)
    (hne : w.region.flags ≠ w.handle) (lib : Number.MathLibrary) (a : Action) (flags' : PatchFlags) :
    (w.hold flags').perform lib a = (w.perform lib a).map fun r => (r.1, r.2.hold flags') := by
  have hheights : (w.hold flags').region.heights = w.region.heights := rfl
  have hs := (surface?_hold_of_ne hne flags').trans h
  cases hread : a.read? w.region.heights with
  | none =>
    rw [perform_of_read?_eq_none hread h, perform_of_read?_eq_none (hheights ▸ hread) hs]
    cases a.answer lib s with
    | error e => rfl
    | ok r => exact congrArg (fun w => Except.ok (r.1, w)) (put_hold hne flags' r.2)
  | some read =>
    rw [perform_of_read? hread, perform_of_read? (hheights ▸ hread)]
    cases read.result with
    | error e => rfl
    | ok g =>
      have hload := load_hold hheld (flags_load_ne_of_ne hheld hne g) flags'
      exact congrArg (fun w => Except.ok (Reply.done, w)) hload

/-- Having parted, a surface leaves the flags behind the handle alone. -/
lemma get?_handle_perform (h : w.surface? = some s) (hheld : w.store.get? w.handle = some flags)
    (hne : w.region.flags ≠ w.handle) (hw' : w.perform lib a = .ok (reply, w')) :
    w'.store.get? w.handle = some flags := by
  obtain ⟨-, rfl | ⟨s', rfl⟩⟩ | ⟨g, -, -, rfl⟩ := perform_cases h hw'
  · exact hheld
  · rw [get?_put, if_neg hne, hheld]
  · exact get?_handle_load hheld (flags_load_ne_of_ne hheld hne g)

/-- The surface has other flags than the handle. Whatever is behind the handle, the surface looks the
same, and every action on it answers the same, leaves the same and does not change it. -/
structure Parted (lib : Number.MathLibrary) (w : Watch) : Prop where
  other : w.region.flags ≠ w.handle
  unseen : ∀ flags, (w.hold flags).surface? = w.surface?
  unread : ∀ a flags,
    (w.hold flags).perform lib a = (w.perform lib a).map fun r => (r.1, r.2.hold flags)
  unchanged : ∀ a reply w', w.perform lib a = .ok (reply, w') →
    w'.store.get? w.handle = w.store.get? w.handle

lemma parted_of_ne (h : w.surface? = some s) (hheld : w.store.get? w.handle = some flags)
    (hne : w.region.flags ≠ w.handle) : w.Parted lib where
  other := hne
  unseen := surface?_hold_of_ne hne
  unread := perform_hold h hheld hne lib
  unchanged := fun _ _ _ hw' => (get?_handle_perform h hheld hne hw').trans hheld.symm

/-! ### Shared -/

lemma put_eq_hold (hsame : w.region.flags = w.handle)
    (hheights : s'.grid.toHeights = w.region.heights) : w.put s' = w.hold s'.grid.flags := by
  refine Watch.ext ?_ ?_ rfl
  · exact congrArg (w.store.set · s'.grid.flags) hsame
  · exact congrArg (SharedGrid.mk · w.region.flags) hheights

/-- A call through a shared handle is an action on the surface, if both do the same to the flags. -/
lemma touch_eq_perform (h : w.surface? = some s) (hsame : w.region.flags = w.handle) {c : FlagCall}
    (hread : a.read? w.region.heights = none) (ha : a.answer lib s = .ok (reply, s'))
    (hc : c.answer s.grid.flags = .ok (reply, s'.grid.flags))
    (hheights : s'.grid.toHeights = s.grid.toHeights) : w.touch c = w.perform lib a := by
  obtain ⟨hregion, hflags⟩ := surface?_eq_some_iff.mp h
  rw [perform_of_read?_eq_none hread h, ha, touch, ← hsame, hflags]
  dsimp only
  rw [hc]
  exact congrArg (fun w => Except.ok (reply, w)) (put_eq_hold hsame (hheights.trans hregion.symm)).symm

/-- The handle refers to the flags of the surface. A call through it answers from them and changes
them. Clearing and draining through the handle is clearing and draining the surface, and what is
drained are the patches of the surface that are flagged. -/
structure Shares (lib : Number.MathLibrary) (w : Watch) (s : Surface) : Prop where
  same : w.region.flags = w.handle
  held : w.store.get? w.handle = some s.grid.flags
  seen : ∀ (c : FlagCall) reply flags, c.answer s.grid.flags = .ok (reply, flags) →
    w.touch c = .ok (reply, w.hold flags) ∧
      ∃ hcolumns hrows, (w.hold flags).surface? = some ⟨s.grid.withFlags flags hcolumns hrows⟩
  clear_eq : w.touch .clear = w.perform lib .clearFlags
  drain_eq : w.touch .drain = w.perform lib .drain
  drained : ∃ patches w', w.touch .drain = .ok (.patches patches, w') ∧
    w'.surface? = some s.clearFlags ∧
    ∀ p, s.grid.flags.Has p → (p ∈ patches ↔ s.grid.Dirty p)

lemma shares_of_eq (h : w.surface? = some s) (hsame : w.region.flags = w.handle) : w.Shares lib s := by
  have hheld : w.store.get? w.handle = some s.grid.flags := by
    rw [← hsame]
    exact (surface?_eq_some_iff.mp h).2
  have hdrain : w.touch .drain = w.perform lib .drain :=
    touch_eq_perform h hsame rfl rfl rfl rfl
  refine ⟨hsame, hheld, fun c reply flags hc => ?_, touch_eq_perform h hsame rfl rfl rfl rfl,
    hdrain, s.drain.1, w.put s.drain.2, ?_, surface?_put h s.drain.2,
    fun p hp => PatchFlags.mem_drain hp⟩
  · obtain ⟨hcolumns, hrows⟩ := FlagCall.dims_answer hc
    refine ⟨?_, hcolumns, hrows, surface?_hold_of_eq h hsame hcolumns hrows⟩
    rw [touch, hheld]
    dsimp only
    rw [hc]
  · rw [hdrain, perform_of_read?_eq_none rfl h]
    rfl

end Watch

end Terrain
