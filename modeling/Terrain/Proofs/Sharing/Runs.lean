import Terrain.Proofs.Sharing.Handle

/-!
# Runs of a watched surface

Anything may be done to the surface, or through the handle, one call after another. The surface and the
handle have the same flags until a load changes a size, and different ones ever after.
-/

namespace Terrain

namespace Watch

open Surface (Action)

variable {lib : Number.MathLibrary} {w w' : Watch} {s s' : Surface} {a : Action} {flags : PatchFlags}
  {reply : Reply}

/-- The surface is there, and so are the flags behind the handle. -/
structure Live (w : Watch) : Prop where
  surface : ∃ s, w.surface? = some s
  held : ∃ flags, w.store.get? w.handle = some flags

/-- What a call through the handle leaves of the surface. -/
lemma exists_surface?_hold (hs : w.surface? = some s) (hheld : w.store.get? w.handle = some flags)
    {flags' : PatchFlags} (hcolumns : flags'.columns = flags.columns)
    (hrows : flags'.rows = flags.rows) :
    ∃ s', (w.hold flags').surface? = some s' ∧ s'.grid.toHeights = s.grid.toHeights := by
  by_cases hsame : w.region.flags = w.handle
  · have hflags := (surface?_eq_some_iff.mp hs).2
    rw [hsame, hheld] at hflags
    cases hflags
    exact ⟨_, surface?_hold_of_eq hs hsame hcolumns hrows, rfl⟩
  · exact ⟨s, (surface?_hold_of_ne hsame flags').trans hs, rfl⟩

/-- The reference of the surface stays until a load changes a size, and is not that of the handle
then. -/
lemma Live.step {c : Call} (h : w.Live) (hw' : w.step lib c = .ok (reply, w')) : w'.Live ∧
    w'.handle = w.handle ∧ (¬w.Resizes c → w'.region.flags = w.region.flags) ∧
    (w.Resizes c → w'.region.flags ≠ w.handle) := by
  obtain ⟨⟨s, hs⟩, flags, hheld⟩ := h
  cases c with
  | surface a =>
    obtain ⟨s', -, hs'⟩ := exists_surface?_perform hs hw'
    obtain ⟨hhandle, hheld'⟩ := exists_get?_perform hs hheld hw'
    refine ⟨⟨⟨s', hs'⟩, hhandle ▸ hheld'⟩, hhandle, fun hkeeps => ?_, ?_⟩
    · exact flags_perform hs hw' fun hresizes => hkeeps ⟨s, hs, hresizes⟩
    · rintro ⟨s₁, hs₁, hresizes⟩
      obtain rfl := Option.some.inj (hs.symm.trans hs₁)
      exact flags_perform_ne hs hheld hw' hresizes
  | handle c =>
    obtain ⟨reply, flags', htouch, hcolumns, hrows⟩ := exists_touch hheld c
    cases htouch.symm.trans hw'
    obtain ⟨s', hs', -⟩ := exists_surface?_hold hs hheld hcolumns hrows
    refine ⟨⟨⟨s', hs'⟩, flags', ?_⟩, rfl, fun _ => rfl, fun h => h.elim⟩
    have hhandle : (w.hold flags').handle = w.handle := rfl
    rw [get?_hold, hhandle, if_pos rfl, hheld]
    rfl

/-- The surface and the handle refer to the same flags for as long as the sizes are kept, and to
different ones ever after. -/
lemma Live.run {calls : List Call} (h : w.Live) (hw' : w.run lib calls = .ok w') : w'.Live ∧
    w'.handle = w.handle ∧
    (w.region.flags ≠ w.handle → w'.region.flags ≠ w'.handle) ∧
    (w.region.flags = w.handle → (w.KeepsSize lib calls ↔ w'.region.flags = w'.handle)) := by
  induction calls generalizing w with
  | nil =>
    cases hw'
    exact ⟨h, rfl, id, fun hsame => iff_of_true trivial hsame⟩
  | cons c rest ih =>
    rw [Watch.run, List.foldlM_cons] at hw'
    cases hw₁ : w.step lib c with
    | error e =>
      rw [hw₁] at hw'
      cases hw'
    | ok r =>
      obtain ⟨reply, w₁⟩ := r
      rw [hw₁] at hw'
      obtain ⟨hlive₁, hhandle₁, hkept, hresized⟩ := h.step hw₁
      obtain ⟨hlive', hhandle', hparted, hshared⟩ := ih hlive₁ hw'
      have hkeeps : w.KeepsSize lib (c :: rest) ↔ ¬w.Resizes c ∧ w₁.KeepsSize lib rest := by
        rw [KeepsSize]
        refine and_congr_right fun _ =>
          ⟨fun hall => hall reply w₁ hw₁, fun hrest reply' w' hw' => ?_⟩
        cases hw₁.symm.trans hw'
        exact hrest
      refine ⟨hlive', hhandle'.trans hhandle₁, fun hne => hparted ?_, fun hsame => ?_⟩
      · by_cases hresizes : w.Resizes c
        · exact hhandle₁ ▸ hresized hresizes
        · rw [hkept hresizes, hhandle₁]
          exact hne
      · rw [hkeeps]
        by_cases hresizes : w.Resizes c
        · refine iff_of_false (fun hall => hall.1 hresizes) (hparted ?_)
          exact hhandle₁ ▸ hresized hresizes
        · rw [and_iff_right hresizes]
          exact hshared (by rw [hkept hresizes, hhandle₁, hsame])

/-- While the surface is addressable, every call goes through, and leaves it so. -/
lemma Live.exists_step (h : w.Live) (hs : w.surface? = some s) (haddressable : s.Addressable)
    (lib : Number.MathLibrary) (c : Call) : ∃ reply w' s', w.step lib c = .ok (reply, w') ∧
      w'.surface? = some s' ∧ s'.Addressable := by
  cases c with
  | surface a =>
    obtain ⟨reply, s', hanswer, haddressable'⟩ := Action.exists_answer haddressable lib a
    have heq := perform_eq_answer hs lib a
    rw [hanswer] at heq
    cases hperform : w.perform lib a with
    | error e =>
      rw [hperform] at heq
      cases heq
    | ok r =>
      rw [hperform] at heq
      exact ⟨r.1, r.2, s', hperform, (Prod.mk.inj (Except.ok.inj heq)).2, haddressable'⟩
  | handle c =>
    obtain ⟨flags, hheld⟩ := h.held
    obtain ⟨reply, flags', htouch, hcolumns, hrows⟩ := exists_touch hheld c
    obtain ⟨s', hs', hheights⟩ := exists_surface?_hold hs hheld hcolumns hrows
    exact ⟨reply, _, s', htouch, hs',
      (Surface.sameFrame_of_heights hheights).addressable haddressable⟩

lemma Live.exists_run (h : w.Live) (hs : w.surface? = some s) (haddressable : s.Addressable)
    (lib : Number.MathLibrary) (calls : List Call) : ∃ w', w.run lib calls = .ok w' := by
  induction calls generalizing w s with
  | nil => exact ⟨w, rfl⟩
  | cons c rest ih =>
    obtain ⟨reply, w₁, s₁, hw₁, hs₁, haddressable₁⟩ := h.exists_step hs haddressable lib c
    obtain ⟨w', hw'⟩ := ih (h.step hw₁).1 hs₁ haddressable₁
    exact ⟨w', by rw [Watch.run, List.foldlM_cons, hw₁]; exact hw'⟩

/-- A load that goes through leaves what it read, with clear flags; if it changes a size, it leaves the
flags behind the handle alone. -/
lemma Live.exists_perform_of_loads (h : w.Live) (hs : w.surface? = some s) (hloads : a.Loads s s')
    (lib : Number.MathLibrary) :
    ∃ w', w.perform lib a = .ok (.done, w') ∧ w'.surface? = some s' ∧
      (a.Resizes s → w'.store.get? w.handle = w.store.get? w.handle) := by
  obtain ⟨flags, hheld⟩ := h.held
  have hheights := (surface?_eq_some_iff.mp hs).1
  obtain ⟨read, g, hread, hg, rfl⟩ := Action.loads_iff.mp hloads
  have hw' : w.perform lib a = .ok (.done, w.load g) := by
    rw [perform_of_read? (hheights ▸ hread), hg]
  refine ⟨w.load g, hw', surface?_load hs g, fun hresizes => ?_⟩
  have hne := flags_perform_ne hs hheld hw' hresizes
  rw [get?_handle_load hheld hne, hheld]

/-- Let a handle be taken of the flags of a surface, and let any calls on the surface and through the
handle follow. All of them go through if the sizes of the surface are coordinates. Every action on the
surface answers and leaves what it does for a surface alone, or fails as it does there. A load that goes
through leaves flags for the patches of its sizes, none of them set. While no load has changed a size,
the handle and the surface share their flags. Once one has, the surface neither changes nor reads those
of the handle, the load itself included. -/
theorem run_shares_until_resized (lib : Number.MathLibrary) (hs : w.surface? = some s)
    (hsame : w.region.flags = w.handle) (calls : List Call) :
    (s.Addressable → ∃ w', w.run lib calls = .ok w') ∧
    ∀ w', w.run lib calls = .ok w' → w'.handle = w.handle ∧ ∃ s', w'.surface? = some s' ∧
      (∀ a, (w'.perform lib a).map (fun r => (r.1, r.2.surface?)) =
          (a.answer lib s').map (fun r => (r.1, some r.2)) ∧
        (a.answer lib s').map Prod.snd = a.apply lib s') ∧
      (∀ a s'', a.Loads s' s'' →
        (s''.grid.flags.columns = patchCount s''.grid.width ∧
          s''.grid.flags.rows = patchCount s''.grid.height) ∧
        (∀ p, ¬s''.grid.Dirty p) ∧
        ∃ w'', w'.perform lib a = .ok (.done, w'') ∧ w''.surface? = some s'' ∧
          (a.Resizes s' → w''.store.get? w'.handle = w'.store.get? w'.handle)) ∧
      (w.KeepsSize lib calls → w'.Shares lib s') ∧
      (¬w.KeepsSize lib calls → w'.Parted lib) := by
  have hlive : w.Live :=
    ⟨⟨s, hs⟩, s.grid.flags, hsame ▸ (surface?_eq_some_iff.mp hs).2⟩
  refine ⟨fun haddressable => hlive.exists_run hs haddressable lib calls, fun w' hw' => ?_⟩
  obtain ⟨hlive', hhandle, -, hshared⟩ := hlive.run hw'
  obtain ⟨s', hs'⟩ := hlive'.surface
  obtain ⟨flags, hheld⟩ := hlive'.held
  refine ⟨hhandle, s', hs', fun a => ⟨perform_eq_answer hs' lib a, a.answer_snd lib s'⟩,
    fun a s'' hloads => ⟨⟨s''.grid.columns_flags, s''.grid.rows_flags⟩,
      Action.not_dirty_of_loads hloads, hlive'.exists_perform_of_loads hs' hloads lib⟩, ?_, ?_⟩
  · exact fun hkeeps => shares_of_eq hs' ((hshared hsame).mp hkeeps)
  · exact fun hkeeps => parted_of_ne hs' hheld fun heq => hkeeps ((hshared hsame).mpr heq)

/-- A handle that is taken of new terrain is marked by edits of the surface and drained on its own. -/
theorem run_shares_until_resized_ofSize :
    let w : Watch := ⟨⟨#[(Surface.ofSize 32 32).grid.flags]⟩,
      ⟨(Surface.ofSize 32 32).grid.toHeights, ⟨0⟩⟩, ⟨0⟩⟩
    let calls : List Call := [.surface (.edit (.set 20 20 1)), .handle .drain, .surface .markAll]
    ∃ w' s', w.run .nearest calls = .ok w' ∧ w'.surface? = some s' ∧ w'.Shares .nearest s' := by
  intro w calls
  obtain ⟨hok, hall⟩ := run_shares_until_resized (w := w) (s := Surface.ofSize 32 32) .nearest
    (surface?_eq_some_iff.mpr ⟨rfl, rfl⟩) rfl calls
  obtain ⟨w', hw'⟩ := hok ⟨by decide, by decide⟩
  obtain ⟨-, s', hs', -, -, hshares, -⟩ := hall w' hw'
  refine ⟨w', s', hw', hs', hshares ?_⟩
  simp [calls, KeepsSize, Resizes, Action.Resizes, Action.Loads]

end Watch

end Terrain
