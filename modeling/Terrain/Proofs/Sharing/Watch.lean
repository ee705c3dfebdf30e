import Terrain.Proofs.Sharing.Answers
import Terrain.Proofs.Sharing.Store

/-!
# A watched surface

A surface in a store is watched by a handle, which is a reference to flags. Seen through its own
reference, the surface is worked on as if it were alone. It keeps the reference until a load changes a
size, and then takes one that no handle has.
-/

namespace Terrain

/-- A surface in a store, and a handle that was taken of its flags. -/
@[ext]
structure Watch where
  store : FlagStore
  region : SharedGrid
  handle : FlagRef

namespace Watch

open Surface (Action)

/-- The surface, with the flags that it refers to. -/
def surface? (w : Watch) : Option Surface := (w.region.view? w.store).map Surface.mk

/-- Something that is done to the surface, or through the handle. -/
inductive Call where
  | surface (a : Action)
  | handle (c : FlagCall)

/-- Puts an edited surface in the place of the one that was taken out. -/
def put (w : Watch) (s' : Surface) : Watch :=
  let (region, store) := SharedGrid.commit w.store w.region s'.grid
  ⟨store, region, w.handle⟩

/-- Takes the surface out for an action, and puts it back. -/
def exchange (lib : Number.MathLibrary) (w : Watch) (a : Action) : Except Error (Reply × Watch) :=
  match w.surface? with
  | some s => (a.answer lib s).map fun (reply, s') => (reply, w.put s')
  | none => .error .outOfStorage

/-- What a load leaves. -/
def settle (w : Watch) (loaded : Logged (SharedGrid × FlagStore)) : Reply × Watch :=
  match loaded.result with
  | .ok (region, store) => (.done, ⟨store, region, w.handle⟩)
  | .error e => (.failed e, w)

/-- An action on the surface. -/
def perform (lib : Number.MathLibrary) (w : Watch) : Action → Except Error (Reply × Watch)
  | .loadBlob code bytes => .ok (w.settle (SharedGrid.loadBlob w.store w.region code bytes))
  | .loadDocument text => .ok (w.settle (SharedGrid.loadDocument w.store w.region text))
  | a => w.exchange lib a

/-- Puts flags behind the handle. -/
def hold (w : Watch) (flags : PatchFlags) : Watch :=
  { w with store := w.store.set w.handle flags }

/-- A call through the handle. A call that fails changes nothing. -/
def touch (w : Watch) (c : FlagCall) : Except Error (Reply × Watch) :=
  match w.store.get? w.handle with
  | some flags =>
    match c.answer flags with
    | .ok (reply, flags) => .ok (reply, w.hold flags)
    | .error e => .ok (.failed e, w)
  | none => .error .outOfStorage

def step (lib : Number.MathLibrary) (w : Watch) : Call → Except Error (Reply × Watch)
  | .surface a => w.perform lib a
  | .handle c => w.touch c

/-- One call after another. -/
def run (lib : Number.MathLibrary) (w : Watch) (calls : List Call) : Except Error Watch :=
  calls.foldlM (fun w c => (w.step lib c).map Prod.snd) w

/-- A load that changes a size. -/
def Resizes (w : Watch) : Call → Prop
  | .surface a => ∃ s, w.surface? = some s ∧ a.Resizes s
  | .handle _ => False

/-- Every load of a run that goes through keeps both sizes. -/
def KeepsSize (lib : Number.MathLibrary) : Watch → List Call → Prop
  | _, [] => True
  | w, c :: rest =>
    ¬w.Resizes c ∧ ∀ reply w', w.step lib c = .ok (reply, w') → w'.KeepsSize lib rest

variable {lib : Number.MathLibrary} {w w' : Watch} {s s' : Surface} {a : Action} {flags : PatchFlags}
  {reply : Reply}

/-- The surface has the heights of the region and the flags behind its reference. -/
lemma surface?_eq_some_iff : w.surface? = some s ↔
    w.region.heights = s.grid.toHeights ∧ w.store.get? w.region.flags = some s.grid.flags := by
  obtain ⟨⟨heights, flags, hcolumns, hrows⟩⟩ := s
  rw [surface?, SharedGrid.view?]
  cases w.store.get? w.region.flags with
  | none => simp
  | some behind =>
    dsimp only
    split_ifs with hdims
    · simp
    · simp only [Option.map_none, reduceCtorEq, false_iff]
      rintro ⟨hheights, hflags⟩
      cases hflags
      rw [hheights] at hdims
      exact hdims ⟨hcolumns, hrows⟩

/-- Takes over a grid that was read. -/
def load (w : Watch) (g : HeightGrid) : Watch :=
  ⟨(SharedGrid.load w.store w.region g).2, (SharedGrid.load w.store w.region g).1, w.handle⟩

/-- An action that is no load takes the surface out and puts it back. -/
lemma perform_of_read?_eq_none (h : a.read? w.region.heights = none) (hs : w.surface? = some s) :
    w.perform lib a = (a.answer lib s).map fun (reply, s') => (reply, w.put s') := by
  have hexchange : w.exchange lib a = (a.answer lib s).map fun (reply, s') => (reply, w.put s') := by
    rw [exchange, hs]
  cases a with
  | loadBlob | loadDocument => cases h
  | edit | readDirty | readTainted | markAll | clearFlags | drain => exact hexchange

/-- A load goes by what it reads. -/
lemma perform_of_read? {read : Logged HeightGrid} (h : a.read? w.region.heights = some read) :
    w.perform lib a = .ok (match read.result with
      | .ok g => (.done, w.load g)
      | .error e => (.failed e, w)) := by
  have hsettle : w.settle (read >>= fun g => pure (SharedGrid.load w.store w.region g)) =
      match read.result with
      | .ok g => (.done, w.load g)
      | .error e => (.failed e, w) := by
    rw [settle, Logged.result_bind]
    cases read.result <;> rfl
  rw [← hsettle]
  cases a with
  | loadBlob | loadDocument =>
    cases h
    rfl
  | edit | readDirty | readTainted | markAll | clearFlags | drain => cases h

/-! ### Through the reference of the surface -/

lemma get?_put (w : Watch) (s' : Surface) (ref : FlagRef) : (w.put s').store.get? ref =
    if w.region.flags = ref then (w.store.get? ref).map fun _ => s'.grid.flags
    else w.store.get? ref :=
  FlagStore.get?_set_eq _ _ _ _

lemma surface?_put (h : w.surface? = some s) (s' : Surface) : (w.put s').surface? = some s' := by
  have hflags : (w.put s').region.flags = w.region.flags := rfl
  rw [surface?_eq_some_iff] at h ⊢
  refine ⟨rfl, ?_⟩
  rw [get?_put, hflags, if_pos rfl, h.2]
  rfl

/-- A load keeps the reference if it keeps the sizes, and takes a new one otherwise. -/
lemma flags_load (w : Watch) (g : HeightGrid) : (w.load g).region.flags =
    if g.width = w.region.heights.cells.width ∧ g.height = w.region.heights.cells.height then
      w.region.flags
    else (w.store.insert g.flags).1 := rfl

lemma get?_load (w : Watch) (g : HeightGrid) (ref : FlagRef) : (w.load g).store.get? ref =
    if (w.load g).region.flags = ref then ((w.store.insert g.flags).2.get? ref).map .clear
    else (w.store.insert g.flags).2.get? ref :=
  FlagStore.get?_clear _ _ _

/-- After a load, the surface is what was read, and no flag of it is set, whether it kept its flags or
took new ones. -/
lemma surface?_load (h : w.surface? = some s) (g : HeightGrid) :
    (w.load g).surface? = some (Surface.ofRead g) := by
  rw [surface?_eq_some_iff] at h ⊢
  obtain ⟨hheights, hflags⟩ := h
  refine ⟨rfl, ?_⟩
  rw [get?_load, if_pos rfl, FlagStore.get?_insert, flags_load]
  by_cases hsame : g.width = w.region.heights.cells.width ∧
      g.height = w.region.heights.cells.height
  · rw [if_pos hsame, if_neg (FlagStore.insert_ne hflags _).symm, hflags]
    have hcolumns : s.grid.flags.columns = g.flags.columns := by
      rw [s.grid.columns_flags, g.columns_flags, ← hheights]
      exact congrArg patchCount hsame.1.symm
    have hrows : s.grid.flags.rows = g.flags.rows := by
      rw [s.grid.rows_flags, g.rows_flags, ← hheights]
      exact congrArg patchCount hsame.2.symm
    exact congrArg some (PatchFlags.clear_eq hcolumns hrows)
  · rw [if_neg hsame, if_pos rfl]
    rfl

/-- Seen through its own reference, a surface answers and changes as if it were alone. -/
lemma perform_eq_answer (h : w.surface? = some s) (lib : Number.MathLibrary) (a : Action) :
    (w.perform lib a).map (fun r => (r.1, r.2.surface?)) =
      (a.answer lib s).map fun r => (r.1, some r.2) := by
  have hheights := (surface?_eq_some_iff.mp h).1
  cases hread : a.read? w.region.heights with
  | none =>
    rw [perform_of_read?_eq_none hread h]
    cases a.answer lib s with
    | error e => rfl
    | ok r => exact congrArg (fun s? => Except.ok (r.1, s?)) (surface?_put h r.2)
  | some read =>
    rw [perform_of_read? hread]
    rw [hheights] at hread
    rw [Action.answer_of_read? hread, Surface.settle, Logged.result_bind]
    cases read.result with
    | error e => exact congrArg (fun s? => Except.ok (Reply.failed e, s?)) h
    | ok g => exact congrArg (fun s? => Except.ok (Reply.done, s?)) (surface?_load h g)

lemma exists_surface?_perform (h : w.surface? = some s) (hw' : w.perform lib a = .ok (reply, w')) :
    ∃ s', a.answer lib s = .ok (reply, s') ∧ w'.surface? = some s' := by
  have heq := perform_eq_answer h lib a
  rw [hw'] at heq
  cases hanswer : a.answer lib s with
  | error e =>
    rw [hanswer] at heq
    cases heq
  | ok r =>
    rw [hanswer] at heq
    obtain ⟨hreply, hview⟩ := Prod.mk.inj (Except.ok.inj heq)
    exact ⟨r.2, congrArg (fun reply => Except.ok (reply, r.2)) hreply.symm, hview⟩

/-! ### References -/

/-- What can happen to the store and the reference: a load takes over what it read; anything else
writes the flags of the surface at most. -/
lemma perform_cases (h : w.surface? = some s) (hw' : w.perform lib a = .ok (reply, w')) :
    ((∀ s', ¬a.Loads s s') ∧ (w' = w ∨ ∃ s', w' = w.put s')) ∨
      ∃ g, (∀ s', a.Loads s s' ↔ s' = Surface.ofRead g) ∧ reply = .done ∧ w' = w.load g := by
  have hheights := (surface?_eq_some_iff.mp h).1
  cases hread : a.read? w.region.heights with
  | none =>
    obtain ⟨s₁, hanswer, -⟩ := exists_surface?_perform h hw'
    rw [perform_of_read?_eq_none hread h, hanswer] at hw'
    rw [hheights] at hread
    refine .inl ⟨fun s' hloads => ?_, .inr ⟨s₁, (Prod.mk.inj (Except.ok.inj hw')).2.symm⟩⟩
    obtain ⟨read, -, hsome, -⟩ := Action.loads_iff.mp hloads
    exact absurd (hread.symm.trans hsome) (by simp)
  | some read =>
    rw [perform_of_read? hread] at hw'
    rw [hheights] at hread
    have hloads : ∀ s', a.Loads s s' ↔ ∃ g, read.result = .ok g ∧ s' = Surface.ofRead g := by
      intro s'
      rw [Action.loads_iff, hread]
      simp
    cases hresult : read.result with
    | error e =>
      rw [hresult] at hw' hloads
      cases hw'
      exact .inl ⟨fun s' => by simp [hloads], .inl rfl⟩
    | ok g =>
      rw [hresult] at hw' hloads
      cases hw'
      exact .inr ⟨g, fun s' => by simp [hloads], rfl, rfl⟩

/-- The other sizes are those of the grid that was read. -/
lemma resizes_iff {g : HeightGrid} (h : w.surface? = some s)
    (hloads : ∀ s', a.Loads s s' ↔ s' = Surface.ofRead g) :
    a.Resizes s ↔ ¬(g.width = w.region.heights.cells.width ∧
      g.height = w.region.heights.cells.height) := by
  have hheights := (surface?_eq_some_iff.mp h).1
  rw [hheights, Action.Resizes]
  simp only [hloads, exists_eq_left]
  rfl

/-- A load that changes a size brings a reference that no handle has. -/
lemma flags_load_ne (hheld : w.store.get? w.handle = some flags) {g : HeightGrid}
    (hne : ¬(g.width = w.region.heights.cells.width ∧
      g.height = w.region.heights.cells.height)) : (w.load g).region.flags ≠ w.handle := by
  rw [flags_load, if_neg hne]
  exact FlagStore.insert_ne hheld _

/-- A load does not bring the reference of the handle. -/
lemma flags_load_ne_of_ne (hheld : w.store.get? w.handle = some flags)
    (hne : w.region.flags ≠ w.handle) (g : HeightGrid) : (w.load g).region.flags ≠ w.handle := by
  rw [flags_load]
  split_ifs
  · exact hne
  · exact FlagStore.insert_ne hheld _

lemma get?_handle_load (hheld : w.store.get? w.handle = some flags) {g : HeightGrid}
    (hne : (w.load g).region.flags ≠ w.handle) :
    (w.load g).store.get? w.handle = some flags := by
  rw [get?_load, if_neg hne, FlagStore.get?_insert, if_neg (FlagStore.insert_ne hheld _).symm, hheld]

/-- The flags of a handle stay in the store. -/
lemma exists_get?_perform (h : w.surface? = some s) (hheld : w.store.get? w.handle = some flags)
    (hw' : w.perform lib a = .ok (reply, w')) :
    w'.handle = w.handle ∧ ∃ flags', w'.store.get? w.handle = some flags' := by
  obtain ⟨-, rfl | ⟨s', rfl⟩⟩ | ⟨g, -, -, rfl⟩ := perform_cases h hw'
  · exact ⟨rfl, flags, hheld⟩
  · refine ⟨rfl, ?_⟩
    rw [get?_put, hheld]
    split_ifs <;> exact ⟨_, rfl⟩
  · refine ⟨rfl, ?_⟩
    rw [get?_load, FlagStore.get?_insert, if_neg (FlagStore.insert_ne hheld _).symm, hheld]
    split_ifs <;> exact ⟨_, rfl⟩

/-- An action keeps the reference of the surface unless it changes a size. -/
lemma flags_perform (h : w.surface? = some s) (hw' : w.perform lib a = .ok (reply, w'))
    (hkeeps : ¬a.Resizes s) : w'.region.flags = w.region.flags := by
  obtain ⟨-, rfl | ⟨s', rfl⟩⟩ | ⟨g, hloads, -, rfl⟩ := perform_cases h hw'
  · rfl
  · rfl
  · rw [resizes_iff h hloads, not_not] at hkeeps
    rw [flags_load, if_pos hkeeps]

lemma flags_perform_ne (h : w.surface? = some s) (hheld : w.store.get? w.handle = some flags)
    (hw' : w.perform lib a = .ok (reply, w')) (hresizes : a.Resizes s) :
    w'.region.flags ≠ w.handle := by
  obtain ⟨hnone, -⟩ | ⟨g, hloads, -, rfl⟩ := perform_cases h hw'
  · obtain ⟨s', hs', -⟩ := hresizes
    exact absurd hs' (hnone s')
  · exact flags_load_ne hheld ((resizes_iff h hloads).mp hresizes)

end Watch

end Terrain
