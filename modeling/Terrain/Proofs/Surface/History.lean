import Terrain.Proofs.Surface.Edit
import Terrain.Proofs.Surface.Loading

/-!
# Histories of flags

What happens to the flags of a surface is a list of events: touches of edits, marks and clears. A
patch is pending when, after the last event that cleared it, all patches were marked or a touch
changed one of its cells. However long a surface is worked on, the flagged patches are the pending
ones.
-/

namespace Terrain

/-! ### Events -/

/-- Something that happens to a surface and matters to its flags. A touch is known by the surfaces
before and after it. -/
inductive FlagEvent where
  | touched (before after : Surface)
  | markedAll
  | cleared (p : Nat × Nat)
  | clearedAll

namespace FlagEvent

variable {events : List FlagEvent} {e : FlagEvent} {p : Nat × Nat}

/-- The event is a reason to flag a patch. -/
def Dirties (p : Nat × Nat) : FlagEvent → Prop
  | touched before after => before.grid.Changed after.grid p
  | markedAll => True
  | cleared _ => False
  | clearedAll => False

/-- The event clears the flag of a patch. -/
def Clears (p : Nat × Nat) : FlagEvent → Prop
  | touched _ _ => False
  | markedAll => False
  | cleared q => p = q
  | clearedAll => True

/-- There was a reason to flag a patch, and its flag was not cleared since. -/
def Pending (events : List FlagEvent) (p : Nat × Nat) : Prop :=
  ∃ front e back, events = front ++ e :: back ∧ e.Dirties p ∧ ∀ later ∈ back, ¬later.Clears p

lemma not_pending_nil (p : Nat × Nat) : ¬Pending [] p := by
  rintro ⟨front, e, back, h, -, -⟩
  simp at h

/-- What is pending after one more event. -/
lemma pending_concat :
    Pending (events ++ [e]) p ↔ e.Dirties p ∨ (Pending events p ∧ ¬e.Clears p) := by
  constructor
  · rintro ⟨front, d, back, h, hd, hback⟩
    rcases List.eq_nil_or_concat back with rfl | ⟨back, last, rfl⟩
    · obtain ⟨-, heq⟩ := List.append_inj' h rfl
      cases heq
      exact Or.inl hd
    · rw [List.concat_eq_append, ← List.cons_append, ← List.append_assoc] at h
      obtain ⟨rfl, heq⟩ := List.append_inj' h rfl
      cases heq
      refine Or.inr ⟨⟨front, d, back, rfl, hd, fun later hlater => hback later ?_⟩, hback e ?_⟩
      · simp [hlater]
      · simp
  · rintro (hd | ⟨⟨front, d, back, rfl, hd, hback⟩, hclears⟩)
    · exact ⟨events, e, [], rfl, hd, by simp⟩
    · refine ⟨front, d, back ++ [e], by simp, hd, ?_⟩
      intro later hlater
      rcases List.mem_append.mp hlater with hlater | hlater
      · exact hback later hlater
      · rw [List.mem_singleton.mp hlater]
        exact hclears

end FlagEvent

namespace Surface

open FlagEvent (Pending pending_concat not_pending_nil)

variable {s s' : Surface} {past : List FlagEvent}

/-- The flagged patches of a surface are the pending ones. -/
def Tracks (s : Surface) (past : List FlagEvent) : Prop :=
  ∀ p, s.grid.flags.Has p → (s.grid.Dirty p ↔ Pending past p)

/-- A surface of which no patch is flagged, before anything happened to it. -/
lemma tracks_nil (hs : ∀ p, ¬s.grid.Dirty p) : s.Tracks [] :=
  fun p _ => iff_of_false (hs p) (not_pending_nil p)

/-! ### One event -/

/-- An event that keeps the patches and does to each flag what its kind says. -/
lemma Tracks.next {e : FlagEvent} (h : s.Tracks past)
    (hhas : ∀ p, s'.grid.flags.Has p → s.grid.flags.Has p)
    (hdirty : ∀ p, s'.grid.flags.Has p →
      (s'.grid.Dirty p ↔ e.Dirties p ∨ (s.grid.Dirty p ∧ ¬e.Clears p))) :
    s'.Tracks (past ++ [e]) := by
  intro p hp
  rw [pending_concat, hdirty p hp, h p (hhas p hp)]

lemma Tracks.touched (h : s.Tracks past) (hedited : s.grid.Edited s'.grid) :
    s'.Tracks (past ++ [.touched s s']) := by
  refine h.next (fun p hp => (HeightGrid.has_congr hedited.width_eq hedited.height_eq).mp hp) ?_
  intro p _
  rw [hedited.dirty_iff p, or_comm]
  exact or_congr_right (and_iff_left not_false).symm

lemma Tracks.markAll (h : s.Tracks past) : s.markAll.Tracks (past ++ [.markedAll]) := by
  refine h.next (fun p hp => hp) ?_
  intro p hp
  exact iff_of_true (PatchFlags.flagged_markAll.mpr hp) (Or.inl trivial)

lemma tracks_clearedAll (hs : ∀ p, ¬s.grid.Dirty p) : s.Tracks (past ++ [.clearedAll]) := by
  intro p _
  rw [pending_concat]
  refine iff_of_false (hs p) ?_
  rintro (hd | ⟨-, hclears⟩)
  · exact hd
  · exact hclears trivial

/-! ### Reading, clearing and loading -/

/-- The events of a read, which clears a flag only inside the region. -/
def readEvents (s : Surface) (x y : Int32) (clearing : Bool) : List FlagEvent :=
  match s.cell? x y with
  | some (x, y) => if clearing then [.cleared (patchAt x y)] else []
  | none => []

lemma Tracks.readDirty (h : s.Tracks past) (x y : Int32) (clearing : Bool) :
    ∃ dirty s', s.readDirty x y clearing = .ok (dirty, s') ∧
      s'.Tracks (past ++ s.readEvents x y clearing) := by
  rw [Surface.readDirty, readEvents]
  cases hcell : s.cell? x y with
  | none => exact ⟨false, s, rfl, by rwa [List.append_nil]⟩
  | some c =>
    obtain ⟨hx, hy⟩ := lt_of_cell? hcell
    obtain ⟨dirty, g', hread, hheights, -, hdirty⟩ :=
      HeightGrid.exists_readDirty? hx hy clearing
    have hwidth : g'.width = s.grid.width := congrArg (fun h => h.cells.width) hheights
    have hheight : g'.height = s.grid.height := congrArg (fun h => h.cells.height) hheights
    have hhas (p : Nat × Nat) : g'.flags.Has p ↔ s.grid.flags.Has p :=
      HeightGrid.has_congr hwidth hheight
    dsimp only
    rw [hread]
    refine ⟨dirty, ⟨g'⟩, rfl, ?_⟩
    cases clearing with
    | false =>
      rw [if_neg Bool.false_ne_true, List.append_nil]
      intro p hp
      rw [← h p ((hhas p).mp hp)]
      exact (hdirty p).trans (by simp)
    | true =>
      rw [if_pos rfl]
      refine h.next (fun p hp => (hhas p).mp hp) ?_
      intro p _
      exact (hdirty p).trans (by simp [FlagEvent.Dirties, FlagEvent.Clears])

def loadEvents (loaded : Logged Surface) : List FlagEvent :=
  match loaded.result with
  | .ok _ => [.clearedAll]
  | .error _ => []

/-- What a load leaves, which is the old surface if it fails. -/
def afterLoad (s : Surface) (loaded : Logged Surface) : Surface :=
  match loaded.result with
  | .ok loaded => loaded
  | .error _ => s

lemma Tracks.afterLoad (h : s.Tracks past) {loaded : Logged Surface}
    (hloaded : ∀ s', loaded.result = .ok s' → ∀ p, ¬s'.grid.Dirty p) :
    (s.afterLoad loaded).Tracks (past ++ loadEvents loaded) := by
  rw [Surface.afterLoad, loadEvents]
  cases hresult : loaded.result with
  | error e => rwa [List.append_nil]
  | ok s' => exact tracks_clearedAll (hloaded s' hresult)

/-! ### Edits -/

/-- One event for every touch of an edit. -/
def touchEvents (s : Surface) : List Touch → List FlagEvent
  | [] => []
  | t :: rest =>
    match s.touch t with
    | .ok s' => .touched s s' :: s'.touchEvents rest
    | .error _ => []

/-- What an edit leaves, touch after touch. -/
lemma Tracks.edit {touches : List Touch} (h : s.Tracks past) (ht : ∀ t ∈ touches, t.Total)
    (hs' : s.edit touches = .ok s') : s'.Tracks (past ++ s.touchEvents touches) := by
  induction touches generalizing s past with
  | nil =>
    cases hs'
    rwa [touchEvents, List.append_nil]
  | cons t rest ih =>
    obtain ⟨s₁, hs₁, hedited⟩ := exists_touch (ht t List.mem_cons_self) s
    rw [Surface.edit, List.foldlM_cons, hs₁] at hs'
    rw [touchEvents, hs₁]
    have htracks := ih (h.touched hedited) (fun t h => ht t (List.mem_cons_of_mem _ h)) hs'
    rwa [List.append_assoc] at htracks

/-! ### Runs -/

/-- A step of the life of a surface. -/
inductive Action where
  | edit (e : Edit)
  | readDirty (x y : Int32) (clearing : Bool)
  | readTainted (x y : Int32)
  | markAll
  | clearFlags
  | drain
  | loadBlob (code : Int32) (bytes : List UInt8)
  | loadDocument (text : List Char)

namespace Action

/-- What an action leaves of a surface. -/
def apply (lib : Number.MathLibrary) (s : Surface) : Action → Except Error Surface
  | edit e => e.apply lib s
  | readDirty x y clearing => (s.readDirty x y clearing).map Prod.snd
  | readTainted x y => (s.readTainted x y).map Prod.snd
  | markAll => .ok s.markAll
  | clearFlags => .ok s.clearFlags
  | drain => .ok s.drain.2
  | loadBlob code bytes => .ok (s.afterLoad (s.loadBlob code bytes))
  | loadDocument text => .ok (s.afterLoad (s.loadDocument text))

/-- The events of an action; an edit that does not go through has none. -/
def events (lib : Number.MathLibrary) (s : Surface) : Action → List FlagEvent
  | edit e =>
    match e.touches lib s with
    | .ok touches => s.touchEvents touches
    | .error _ => []
  | readDirty x y clearing => s.readEvents x y clearing
  | readTainted x y => s.readEvents x y true
  | markAll => [.markedAll]
  | clearFlags => [.clearedAll]
  | drain => [.clearedAll]
  | loadBlob code bytes => loadEvents (s.loadBlob code bytes)
  | loadDocument text => loadEvents (s.loadDocument text)

/-- A write that is dropped or finds what it writes, or a load that fails. -/
def Idle (s : Surface) : Action → Prop
  | edit e => e.Idle s
  | loadBlob code bytes => ∃ e, (s.loadBlob code bytes).result = .error e
  | loadDocument text => ∃ e, (s.loadDocument text).result = .error e
  | _ => False

end Action

variable {lib : Number.MathLibrary} {a : Action} {actions : List Action}

/-- One action after another. -/
def run (lib : Number.MathLibrary) (s : Surface) (actions : List Action) : Except Error Surface :=
  actions.foldlM (fun s a => a.apply lib s) s

def history (lib : Number.MathLibrary) (s : Surface) : List Action → List FlagEvent
  | [] => []
  | a :: rest =>
    a.events lib s ++
      match a.apply lib s with
      | .ok s' => s'.history lib rest
      | .error _ => []

/-- Whatever is done to a surface, its flags keep to the events. -/
lemma Tracks.apply (h : s.Tracks past) (hs' : a.apply lib s = .ok s') :
    s'.Tracks (past ++ a.events lib s) := by
  cases a with
  | edit e =>
    obtain ⟨touches, htouches, htotal, hedit, -⟩ := Edit.edit_of_apply hs'
    rw [Action.events, htouches]
    exact h.edit htotal hedit
  | readDirty x y clearing =>
    obtain ⟨dirty, s₁, hread, htracks⟩ := h.readDirty x y clearing
    rw [Action.apply, hread] at hs'
    cases hs'
    exact htracks
  | readTainted x y =>
    obtain ⟨dirty, s₁, hread, htracks⟩ := h.readDirty x y true
    rw [Action.apply, readTainted, hread] at hs'
    cases hs'
    exact htracks
  | markAll =>
    cases hs'
    exact h.markAll
  | clearFlags | drain =>
    cases hs'
    exact tracks_clearedAll (HeightGrid.not_dirty_clearFlags s.grid)
  | loadBlob | loadDocument =>
    cases hs'
    exact h.afterLoad fun s' hs' => not_dirty_of_ofRead hs'

lemma Tracks.run (h : s.Tracks past) (hs' : s.run lib actions = .ok s') :
    s'.Tracks (past ++ s.history lib actions) := by
  induction actions generalizing s past with
  | nil =>
    cases hs'
    rwa [history, List.append_nil]
  | cons a rest ih =>
    rw [Surface.run, List.foldlM_cons] at hs'
    rw [history]
    cases hs₁ : a.apply lib s with
    | error e =>
      rw [hs₁] at hs'
      cases hs'
    | ok s₁ =>
      rw [hs₁] at hs'
      have htracks := ih (h.apply hs₁) hs'
      rwa [List.append_assoc] at htracks

/-- An addressable surface stays one, whatever its terrain is replaced with. -/
lemma Addressable.afterLoad (hs : s.Addressable) {loaded : Logged Surface}
    (h : Yields Addressable loaded.result) : (s.afterLoad loaded).Addressable := by
  rw [Surface.afterLoad]
  cases hresult : loaded.result with
  | error e => exact hs
  | ok s' => exact h.of_ok hresult

/-- On an addressable surface every action goes through, and leaves an addressable surface. -/
lemma Addressable.exists_apply (hs : s.Addressable) (lib : Number.MathLibrary) (a : Action) :
    ∃ s', a.apply lib s = .ok s' ∧ s'.Addressable := by
  cases a with
  | edit e =>
    obtain ⟨s', hs'⟩ := Edit.exists_apply hs lib e
    obtain ⟨-, -, -, -, hframe⟩ := Edit.edit_of_apply hs'
    exact ⟨s', hs', hframe.addressable hs⟩
  | readDirty x y clearing =>
    obtain ⟨dirty, s', hread, hheights⟩ := exists_readDirty s x y clearing
    refine ⟨s', ?_, (sameFrame_of_heights hheights).addressable hs⟩
    rw [Action.apply, hread]
    rfl
  | readTainted x y =>
    obtain ⟨dirty, s', hread, hheights⟩ := exists_readDirty s x y true
    refine ⟨s', ?_, (sameFrame_of_heights hheights).addressable hs⟩
    rw [Action.apply, readTainted, hread]
    rfl
  | markAll | clearFlags | drain => exact ⟨_, rfl, hs.width_lt, hs.height_lt⟩
  | loadBlob code bytes => exact ⟨_, rfl, hs.afterLoad (yields_loadBlob hs code bytes)⟩
  | loadDocument text => exact ⟨_, rfl, hs.afterLoad (yields_loadDocument hs text)⟩

lemma Addressable.exists_run (hs : s.Addressable) (lib : Number.MathLibrary)
    (actions : List Action) : ∃ s', s.run lib actions = .ok s' := by
  obtain ⟨s', hs', -⟩ := exists_foldlM hs fun a (_ : a ∈ actions) s hs => hs.exists_apply lib a
  exact ⟨s', hs'⟩

lemma Action.Idle.apply_eq (h : a.Idle s) : a.apply lib s = .ok s := by
  cases a with
  | edit e => exact Edit.Idle.apply_eq h
  | loadBlob | loadDocument =>
    obtain ⟨e, he⟩ := h
    rw [Action.apply, Surface.afterLoad, he]
  | readDirty | readTainted | markAll | clearFlags | drain => cases h

/-- However a surface without flagged patches is worked on, the flagged patches are those that something
changed or marked since they were last cleared. Edits write one cell after another, and idle steps
change nothing. If the sizes of the surface are coordinates, every step goes through. -/
theorem run_dirty_iff_pending (lib : Number.MathLibrary) (s : Surface)
    (hs : ∀ p, ¬s.grid.Dirty p) (actions : List Action) :
    ((s.Addressable → ∃ s', s.run lib actions = .ok s') ∧
      ∀ s', s.run lib actions = .ok s' → ∀ p, s'.grid.flags.Has p →
        (s'.grid.Dirty p ↔ Pending (s.history lib actions) p)) ∧
    (∀ (t : Surface) (e : Edit), e.apply lib t = (e.touches lib t).bind t.edit) ∧
    ∀ (t : Surface) (a : Action), a.Idle t → a.apply lib t = .ok t := by
  refine ⟨⟨fun haddressable => haddressable.exists_run lib actions, fun s' hs' => ?_⟩,
    Edit.apply_eq_edit lib, fun t a h => h.apply_eq⟩
  exact (tracks_nil hs).run hs'

/-- Work on terrain as it is created. -/
theorem run_dirty_iff_pending_ofSize :
    (∀ p, ¬(ofSize 32 48).grid.Dirty p) ∧
      ∃ s', (ofSize 32 48).run .nearest [.markAll, .readTainted 3 20, .edit (.set 3 20 4)] =
          .ok s' ∧
        ∀ p, s'.grid.flags.Has p → (s'.grid.Dirty p ↔ Pending
          ((ofSize 32 48).history .nearest [.markAll, .readTainted 3 20, .edit (.set 3 20 4)]) p) := by
  have hclean : ∀ p, ¬(ofSize 32 48).grid.Dirty p :=
    @PatchFlags.not_flagged_new 32 48 (by decide)
  obtain ⟨⟨hok, hdirty⟩, -⟩ := run_dirty_iff_pending .nearest (ofSize 32 48) hclean
    [.markAll, .readTainted 3 20, .edit (.set 3 20 4)]
  obtain ⟨s', hs'⟩ := hok ⟨by decide, by decide⟩
  exact ⟨hclean, s', hs', hdirty s' hs'⟩

end Surface

end Terrain
