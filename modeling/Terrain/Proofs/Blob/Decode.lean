import Terrain.Blob
import Terrain.Proofs.Blob.Bytes
import Terrain.Proofs.Height
import Terrain.Proofs.HeightGrid
import Terrain.Proofs.Loop

/-!
# What reading a blob gives

Both layouts are read by a loop that writes numbered values into flat terrain. `covered` is what the
terrain looks like when some of the values have been written, and the loops keep to it. From that
follows for every row of bytes which error it gives, or else which stored height each cell gets.
-/

namespace Terrain

namespace HeightGrid

/-- The cells while numbered values are written over the same height everywhere: the values below
`count` have been written. -/
def covered (number? : Nat → Nat → Option Nat) (value : Nat → Int32) (rest : Int32) (count : Nat)
    (x y : Nat) : Int32 :=
  match number? x y with
  | some i => if i < count then value i else rest
  | none => rest

variable {g g' : HeightGrid} {width height altitude : Nat} {factor : Float32}
  {number? : Nat → Nat → Option Nat} {value : Nat → Int32} {rest : Int32} {i x y : Nat}

/-- Nothing has been written yet. -/
lemma Shows.covered_zero (h : g.Shows width height altitude factor fun _ _ => rest)
    (number? : Nat → Nat → Option Nat) (value : Nat → Int32) :
    g.Shows width height altitude factor (covered number? value rest 0) := by
  refine h.congr fun x y _ _ => ?_
  rw [covered]
  cases number? x y <;> rfl

/-- One more value is seen at its own cell. -/
lemma covered_succ (number? : Nat → Nat → Option Nat) (value : Nat → Int32) (rest : Int32)
    (i x y : Nat) : covered number? value rest (i + 1) x y =
      if number? x y = some i then value i else covered number? value rest i x y := by
  rw [covered, covered]
  rcases number? x y with _ | j
  · simp
  · by_cases h : j = i
    · simp [h]
    · have hlt : j < i + 1 ↔ j < i := by omega
      simp [h, hlt]

/-- Writing the next value goes on to the next number. -/
lemma Shows.next (h : g.Shows width height altitude factor (covered number? value rest i))
    (hw : g.Wrote x y (value i) g') (hcell : ∀ x' y', number? x' y' = some i ↔ x = x' ∧ y = y') :
    g'.Shows width height altitude factor (covered number? value rest (i + 1)) := by
  refine (h.wrote hw).congr ?_
  intro x' y' _ _
  simp only [covered_succ, hcell]

/-- So does leaving out a value that no cell of the region takes, or that is there already. -/
lemma Shows.skip (h : g.Shows width height altitude factor (covered number? value rest i))
    (hskip : ∀ x y, x < width → y < height → number? x y = some i → value i = rest) :
    g.Shows width height altitude factor (covered number? value rest (i + 1)) := by
  refine h.congr ?_
  intro x y hx hy
  rw [covered_succ]
  split_ifs with hnumber
  · rw [hskip x y hx hy hnumber, covered, hnumber]
    simp
  · rfl

end HeightGrid

open HeightGrid

/-! ### The compressed layout -/

namespace Compressed

variable {g : HeightGrid} {width height altitude : Nat} {f : Float32}

/-- The number of the word of a cell. -/
def number? (columns rows x y : Nat) : Option Nat :=
  if x < columns ∧ y < rows then some (y * columns + x) else none

/-- Every word has a cell, and no other cell has that word. -/
lemma number?_eq_some_iff {columns rows i : Nat} (hi : i < columns * rows) (x y : Nat) :
    number? columns rows x y = some i ↔ i % columns = x ∧ i / columns = y := by
  rw [number?, Option.ite_none_right_eq_some, Option.some_inj]
  constructor
  · rintro ⟨⟨hx, hy⟩, rfl⟩
    exact ⟨Grid.flat_mod hx, Grid.flat_div hx⟩
  · rintro ⟨rfl, rfl⟩
    exact ⟨Grid.mod_lt_and_div_lt hi, Nat.div_add_mod' i columns⟩

/-- One step of the loop. -/
lemma exists_writeWord {columns rows i : Nat} {value : Nat → Int32} {rest : Int32} {word : Nat}
    (h : g.Shows width height altitude f (covered (number? columns rows) value rest i))
    (hi : i < columns * rows) (hcount : columns * rows ≤ Grid.placeCount)
    (hword : Bytes.lowHalf word = value i) :
    ∃ g', writeWord columns g (word, i) = .ok g' ∧
      g'.Shows width height altitude f
        (covered (number? columns rows) value rest (i + 1)) := by
  have hcell := number?_eq_some_iff hi
  rw [writeWord, cellOf_of_lt hi hcount, ok_bind]
  simp only [hword]
  split_ifs with hin
  · obtain ⟨g', hg', hw⟩ := exists_setStored hin.1 hin.2 (value i)
    exact ⟨g', by rw [hg', Write.toExcept], h.next hw hcell⟩
  · refine ⟨g, rfl, h.skip ?_⟩
    intro x y hx hy hnumber
    obtain ⟨rfl, rfl⟩ := (hcell x y).mp hnumber
    exact absurd ⟨h.width_eq ▸ hx, h.height_eq ▸ hy⟩ hin

/-- The whole loop. -/
lemma exists_writeWords {columns rows : Nat} {words : List Nat} {rest : Int32}
    (h : g.Shows width height altitude f fun _ _ => rest)
    (hcount : columns * rows ≤ Grid.placeCount) (hwords : words.length = columns * rows) :
    ∃ g', words.zipIdx.foldlM (writeWord columns) g = .ok g' ∧
      g'.Shows width height altitude f fun x y =>
        if x < columns ∧ y < rows then Bytes.lowHalf (words.getD (y * columns + x) 0)
        else rest := by
  obtain ⟨g', hg', hshows⟩ := exists_foldlM_zipIdx (l := words)
    (P := fun i (g : HeightGrid) => g.Shows width height altitude f
      (covered (number? columns rows) (fun i => Bytes.lowHalf (words.getD i 0)) rest i))
    (h.covered_zero _ _)
    fun i hi s hs => exists_writeWord hs (hwords ▸ hi) hcount (by simp [hi])
  refine ⟨g', hg', hshows.congr fun x y _ _ => ?_⟩
  rw [covered, number?, hwords]
  split_ifs with hin
  · simp [Grid.flat_lt hin.1 hin.2]
  · rfl

/-- The header that leads a row of bytes, as far as reading looks at it, and the words after it. -/
def words (bytes : List UInt8) : List Nat :=
  (Bytes.naturals 2 (bytes.drop BlobHeader.size)).take (BlobHeader.ofBytes bytes).cellCount

/-- Why a row of bytes cannot be read in the compressed layout. -/
def fault? (bytes : List UInt8) : Option Error :=
  let header := BlobHeader.ofBytes bytes
  let available := bytes.length - BlobHeader.size
  if bytes.length < BlobHeader.size then
    some (.truncated .compressedHeader BlobHeader.size bytes.length)
  else if header.width < 0 ∨ header.height < 0 then
    some (.invalidDimensions header.width.toInt header.height.toInt)
  else if header.factor ≤ 0 then some (.invalidFactor header.factor)
  else if available < 2 * header.cellCount then
    some (.truncated .compressed header.cellCount (available / 2))
  else none

/-- The factor of a blob. -/
def factor (bytes : List UInt8) : Float32 :=
  Number.singleOfInt32 (BlobHeader.ofBytes bytes).factor

/-- The stored height that a blob gives to a cell. -/
def cell (bytes : List UInt8) (x y : Nat) : Int32 :=
  let header := BlobHeader.ofBytes bytes
  let columns := header.width.toInt.toNat
  if x < columns ∧ y < header.height.toInt.toNat then
    Bytes.lowHalf (Bytes.naturalAt 2 (BlobHeader.size + 2 * (y * columns + x)) bytes)
  else Height.quantize Height.defaultHeight (factor bytes)

/-- Reading either ends with the first fault or writes the words into flat terrain. -/
lemma result_decode (width height altitude : Nat) (bytes : List UInt8) :
    (decode width height altitude bytes).result =
      match fault? bytes with
      | some e => .error e
      | none =>
        (create width height altitude (factor bytes)).bind fun new =>
          ((words bytes).zipIdx.foldlM (writeWord (BlobHeader.ofBytes bytes).width.toInt.toNat)
            new.flatten).map clearFlags := by
  rw [decode, fault?]
  simp only [Logged.result_bind, Logged.result_ofExcept, BlobHeader.read]
  split_ifs with hshort hsizes hfactor hcells
  · rfl
  · rfl
  · rfl
  · have hpayload : bytes.length - BlobHeader.size < (BlobHeader.ofBytes bytes).payloadLength :=
      hcells
    simp only [Except.bind, List.length_drop, if_pos hpayload, Logged.result_ofExcept]
  · have hpayload : ¬bytes.length - BlobHeader.size < (BlobHeader.ofBytes bytes).payloadLength :=
      hcells
    simp only [Except.bind, List.length_drop, if_neg hpayload, Logged.result_bind,
      Logged.result_ofExcept, Logged.result_noteIf, Logged.result_note, Logged.result_pure]
    rfl

lemma size_le {bytes : List UInt8} (h : fault? bytes = none) :
    BlobHeader.size ≤ bytes.length := by
  rw [fault?] at h
  split_ifs at h with hshort
  exact Nat.le_of_not_lt hshort

lemma length_words {bytes : List UInt8} (h : fault? bytes = none) :
    (words bytes).length = (BlobHeader.ofBytes bytes).cellCount := by
  rw [fault?] at h
  split_ifs at h with hshort hsizes hfactor hcells
  rw [words, List.length_take, Bytes.length_naturals, List.length_drop]
  omega

lemma getD_words {bytes : List UInt8} (h : fault? bytes = none) {i : Nat}
    (hi : i < (BlobHeader.ofBytes bytes).cellCount) :
    (words bytes).getD i 0 = Bytes.naturalAt 2 (BlobHeader.size + 2 * i) bytes := by
  have hlt : i < (words bytes).length := by rwa [length_words h]
  rw [List.getD_eq_getElem _ _ hlt]
  simp only [words, List.getElem_take, Bytes.getElem_naturals, Bytes.naturalAt, List.drop_drop]

/-- A row of bytes without a fault is read into a region of any size that a region can have, and its
words are what the cells get. -/
lemma exists_decode {bytes : List UInt8} (h : fault? bytes = none) (fits : Fits width height)
    (altitude : Nat) (hcount : (BlobHeader.ofBytes bytes).cellCount ≤ Grid.placeCount) :
    ∃ g, (decode width height altitude bytes).result = .ok g ∧
      g.IsFresh width height altitude (factor bytes) (cell bytes) := by
  obtain ⟨g, hg, hshows⟩ := exists_writeWords
    (shows_flatten_new width height altitude (factor bytes) fits) hcount (length_words h)
  refine ⟨g.clearFlags, ?_, (hshows.congr fun x y _ _ => ?_).clearFlags⟩
  · rw [result_decode, h, create_of_fits fits]
    exact congrArg (Except.map clearFlags) hg
  · rw [cell]
    split_ifs with hin
    · rw [getD_words h (Grid.flat_lt hin.1 hin.2)]
    · rfl

/-- Without a fault, what is left to fail is the size of the region. -/
lemma result_decode_of_not_fits {bytes : List UInt8} (h : fault? bytes = none)
    (hfits : ¬Fits width height) (altitude : Nat) :
    (decode width height altitude bytes).result = .error .uncountable := by
  rw [result_decode, h, create, sized_of_not_fits hfits]
  rfl

lemma ofBytes_append {bytes : List UInt8} (h : BlobHeader.size ≤ bytes.length)
    (tail : List UInt8) : BlobHeader.ofBytes (bytes ++ tail) = BlobHeader.ofBytes bytes := by
  rw [BlobHeader.size] at h
  simp only [BlobHeader.ofBytes]
  rw [Bytes.naturalAt_append (by omega), Bytes.naturalAt_append (by omega),
    Bytes.naturalAt_append (by omega), Bytes.naturalAt_append (by omega)]

lemma fault?_append {bytes : List UInt8} (h : fault? bytes = none) (tail : List UInt8) :
    fault? (bytes ++ tail) = none ∧ words (bytes ++ tail) = words bytes := by
  have hsplit := h
  rw [fault?] at hsplit
  split_ifs at hsplit with hshort hsizes hfactor hcells
  have hheader := ofBytes_append (size_le h) tail
  have hfault : fault? (bytes ++ tail) = none := by
    rw [fault?, hheader, List.length_append, if_neg (by omega), if_neg hsizes, if_neg hfactor,
      if_neg (by omega)]
  refine ⟨hfault, ?_⟩
  rw [words, words, hheader, List.drop_append_of_le_length (size_le h)]
  refine Bytes.take_naturals_append ?_ tail
  rw [List.length_drop]
  omega

/-- Bytes after the announced words do not matter. -/
lemma result_decode_append {width height altitude : Nat} {bytes : List UInt8} {g : HeightGrid}
    (h : (decode width height altitude bytes).result = .ok g) (tail : List UInt8) :
    (decode width height altitude (bytes ++ tail)).result = .ok g := by
  rw [result_decode] at h ⊢
  match hfault : fault? bytes with
  | some e =>
    rw [hfault] at h
    cases h
  | none =>
    obtain ⟨hfault', hwords⟩ := fault?_append hfault tail
    rw [hfault] at h
    rw [hfault', hwords, factor, ofBytes_append (size_le hfault)]
    exact h

lemma ofBytes_code {code : List UInt8} (hcode : code.length = 4) (rest : List UInt8) :
    BlobHeader.ofBytes (code ++ rest) =
      ⟨Bytes.int32 (Bytes.naturalAt 4 0 (code ++ rest)), Bytes.int32 (Bytes.naturalAt 4 0 rest),
        Bytes.int32 (Bytes.naturalAt 4 4 rest), Bytes.int32 (Bytes.naturalAt 4 8 rest)⟩ := by
  have hfield : ∀ place,
      Bytes.naturalAt 4 (4 + place) (code ++ rest) = Bytes.naturalAt 4 place rest := by
    intro place
    rw [← Bytes.naturalAt_length_add 4 place code, hcode]
  rw [← hfield, ← hfield, ← hfield]
  rfl

/-- The code in the header does not matter. -/
lemma result_decode_code (width height altitude : Nat) {code code' : List UInt8}
    (hcode : code.length = 4) (hcode' : code'.length = 4) (rest : List UInt8) :
    (decode width height altitude (code ++ rest)).result =
      (decode width height altitude (code' ++ rest)).result := by
  have hdrop : ∀ code : List UInt8, code.length = 4 →
      (code ++ rest).drop BlobHeader.size = rest.drop 12 := by
    intro code hcode
    rw [BlobHeader.size, show 16 = code.length + 12 by omega, List.drop_length_add_append]
  simp only [result_decode, fault?, words, factor, BlobHeader.cellCount, ofBytes_code hcode,
    ofBytes_code hcode', hdrop code hcode, hdrop code' hcode', List.length_append, hcode, hcode']

end Compressed

/-! ### The legacy layout -/

namespace Legacy

variable {g : HeightGrid} {width height altitude : Nat}

/-- The number of the double of a cell. -/
def number? (x y : Nat) : Option Nat :=
  if x < legacySize ∧ y < legacySize then some (legacySize * x + y) else none

/-- Every double has a cell, and no other cell has that double. -/
lemma number?_eq_some_iff {i : Nat} (hi : i < cellCount) (x y : Nat) :
    number? x y = some i ↔ i / legacySize = x ∧ i % legacySize = y := by
  rw [number?, Option.ite_none_right_eq_some, Option.some_inj]
  rw [cellCount, legacySize] at *
  omega

/-- The stored height that a number of the layout stands for. -/
def value (number : Nat) : Int32 :=
  if (Bytes.double number).isFinite then Height.recover (Bytes.double number) Height.defaultFactor
  else 2100

/-- One step of the loop. -/
lemma exists_writeHeight {i : Nat} {values : Nat → Int32} {number : Nat}
    (h : g.Shows width height altitude Height.defaultFactor (covered number? values 2100 i))
    (hi : i < cellCount) (hnumber : value number = values i) :
    ∃ g', writeHeight g (number, i) = .ok g' ∧
      g'.Shows width height altitude Height.defaultFactor
        (covered number? values 2100 (i + 1)) := by
  have hcell := number?_eq_some_iff hi
  rw [writeHeight]
  dsimp only
  split_ifs with hin
  · obtain ⟨hx, hy, hfinite⟩ := hin
    have hvalue : Height.recover (Bytes.double number) g.factor = values i := by
      rw [← hnumber, value, if_pos hfinite, h.factor_eq]
    obtain ⟨g', hg', hw⟩ := exists_setStored hx hy (values i)
    exact ⟨g', by rw [hvalue, hg', Write.toExcept], h.next hw hcell⟩
  · refine ⟨g, rfl, h.skip ?_⟩
    intro x y hx hy hxy
    obtain ⟨rfl, rfl⟩ := (hcell x y).mp hxy
    have hnan : ¬(Bytes.double number).isFinite = true := fun hfinite =>
      hin ⟨h.width_eq ▸ hx, h.height_eq ▸ hy, hfinite⟩
    rw [← hnumber, value, if_neg hnan]

/-- Why a row of bytes cannot be read in the legacy layout. -/
def fault? (bytes : List UInt8) : Option Error :=
  if bytes.length / 8 < cellCount then some (.truncated .legacy cellCount (bytes.length / 8))
  else none

lemma cellCount_le {bytes : List UInt8} (h : fault? bytes = none) :
    cellCount ≤ bytes.length / 8 := by
  rw [fault?] at h
  split_ifs at h with hshort
  exact Nat.le_of_not_lt hshort

/-- The stored height that a blob gives to a cell. -/
def cell (bytes : List UInt8) (x y : Nat) : Int32 :=
  if x < legacySize ∧ y < legacySize then value (Bytes.naturalAt 8 (8 * (legacySize * x + y)) bytes)
  else 2100

/-- Reading either fails for want of bytes or writes the numbers into flat terrain. -/
lemma result_decode (width height altitude : Nat) (bytes : List UInt8) :
    (decode width height altitude bytes).result =
      match fault? bytes with
      | some e => .error e
      | none =>
        (create width height altitude Height.defaultFactor).bind fun new =>
          (((Bytes.naturals 8 bytes).take cellCount).zipIdx.foldlM writeHeight new.flatten).map
            clearFlags := by
  rw [decode, fault?]
  dsimp only
  split_ifs with hshort
  · rfl
  · simp only [Logged.result_bind, Logged.result_ofExcept, Logged.result_noteIf,
      Logged.result_pure]
    rfl

/-- Enough bytes are read into a region of any size that a region can have, and their numbers are what
the cells get. -/
lemma exists_decode {bytes : List UInt8} (h : fault? bytes = none) (fits : Fits width height)
    (altitude : Nat) :
    ∃ g, (decode width height altitude bytes).result = .ok g ∧
      g.IsFresh width height altitude Height.defaultFactor (cell bytes) := by
  have hlong := cellCount_le h
  have hlength : ((Bytes.naturals 8 bytes).take cellCount).length = cellCount := by
    rw [List.length_take, Bytes.length_naturals]
    omega
  have hflat := shows_flatten_new width height altitude Height.defaultFactor fits
  rw [Height.quantize_default] at hflat
  obtain ⟨g, hg, hshows⟩ := exists_foldlM_zipIdx (l := (Bytes.naturals 8 bytes).take cellCount)
    (P := fun i (g : HeightGrid) => g.Shows width height altitude Height.defaultFactor
      (covered number? (fun i => value (Bytes.naturalAt 8 (8 * i) bytes)) 2100 i))
    (hflat.covered_zero _ _) fun i hi s hs => exists_writeHeight hs (hlength ▸ hi)
      (by rw [List.getElem_take, Bytes.getElem_naturals])
  refine ⟨g.clearFlags, ?_, (hshows.congr fun x y _ _ => ?_).clearFlags⟩
  · rw [result_decode, h, create_of_fits fits]
    exact congrArg (Except.map clearFlags) hg
  · rw [hlength, covered, number?, cell]
    split_ifs with hin
    · have hlt : legacySize * x + y < cellCount := by
        rw [cellCount, legacySize] at *
        omega
      simp only [hlt, if_true]
    · rfl

/-- With enough bytes, what is left to fail is the size of the region. -/
lemma result_decode_of_not_fits {bytes : List UInt8} (h : fault? bytes = none)
    (hfits : ¬Fits width height) (altitude : Nat) :
    (decode width height altitude bytes).result = .error .uncountable := by
  rw [result_decode, h, create, sized_of_not_fits hfits]
  rfl

/-- Bytes after the last number do not matter. -/
lemma result_decode_append {width height altitude : Nat} {bytes : List UInt8} {g : HeightGrid}
    (h : (decode width height altitude bytes).result = .ok g) (tail : List UInt8) :
    (decode width height altitude (bytes ++ tail)).result = .ok g := by
  rw [result_decode] at h ⊢
  match hfault : fault? bytes with
  | some e =>
    rw [hfault] at h
    cases h
  | none =>
    have hlong := cellCount_le hfault
    have hfault' : fault? (bytes ++ tail) = none := by
      rw [fault?, List.length_append, if_neg (by omega)]
    rw [hfault] at h
    rw [hfault', Bytes.take_naturals_append hlong]
    exact h

end Legacy

/-! ### Every code -/

namespace Blob

/-- Why a row of bytes with the given code cannot be read. -/
def fault? (code : Int32) (bytes : List UInt8) : Option Error :=
  if code = 27 then Compressed.fault? bytes else Legacy.fault? bytes

/-- The factor that reading takes. -/
def factor (code : Int32) (bytes : List UInt8) : Float32 :=
  if code = 27 then Compressed.factor bytes else Height.defaultFactor

/-- The stored height that reading gives to a cell. -/
def cell (code : Int32) (bytes : List UInt8) (x y : Nat) : Int32 :=
  if code = 27 then Compressed.cell bytes x y else Legacy.cell bytes x y

lemma result_decode (width height altitude : Nat) (code : Int32) (bytes : List UInt8) :
    (decode width height altitude code bytes).result =
      if code = 27 then (Compressed.decode width height altitude bytes).result
      else (Legacy.decode width height altitude bytes).result := by
  rw [decode]
  split_ifs with hcode
  · rw [BlobTag.ofCode_eq_compressed2D_iff.mpr hcode]
    simp only [Logged.result_bind, Logged.result_note, Logged.result_pure]
    cases (Compressed.decode width height altitude bytes).result <;> rfl
  · have htag : BlobTag.ofCode code = .legacy256 := if_neg hcode
    rw [htag]
    simp only [Logged.result_bind, Logged.result_note, Logged.result_pure]
    cases (Legacy.decode width height altitude bytes).result <;> rfl

/-- What reading means: the first fault of the bytes is the error, and bytes without a fault give
fresh terrain of the size and the altitude that were asked for, with the factor and the cells that
stand in the bytes, if a region can have that size. With less than `2 ^ 32` cells, and sizes below the
limit by more than a patch, it can; for another size there is nothing to read into. Neither the bytes
after the last cell nor the code in a header matter. -/
theorem decode_meaning (width height altitude : Nat) (code : Int32) (bytes : List UInt8) :
    (∀ e, fault? code bytes = some e →
      (decode width height altitude code bytes).result = .error e) ∧
    (width * height < 2 ^ 32 → width + 16 < 2 ^ 32 → height + 16 < 2 ^ 32 →
      fault? code bytes = none →
      (code = 27 → (BlobHeader.ofBytes bytes).cellCount ≤ 2 ^ 32) →
      ∃ g, (decode width height altitude code bytes).result = .ok g ∧
        g.IsFresh width height altitude (factor code bytes) (cell code bytes)) ∧
    (¬Fits width height → fault? code bytes = none →
      (decode width height altitude code bytes).result = .error .uncountable) ∧
    (∀ g tail, (decode width height altitude code bytes).result = .ok g →
      (decode width height altitude code (bytes ++ tail)).result = .ok g) ∧
    (∀ front front' rest : List UInt8, front.length = 4 → front'.length = 4 → code = 27 →
      (decode width height altitude code (front ++ rest)).result =
        (decode width height altitude code (front' ++ rest)).result) := by
  have hcell : cell code bytes =
      if code = 27 then Compressed.cell bytes else Legacy.cell bytes := by
    funext x y
    rw [cell]
    split_ifs <;> rfl
  simp only [result_decode, fault?, factor, hcell]
  by_cases hcode : code = 27
  · simp only [if_pos hcode]
    refine ⟨?_, ?_, ?_, ?_, ?_⟩
    · intro e he
      rw [Compressed.result_decode, he]
    · intro hcells hwidth hheight h hcount
      exact Compressed.exists_decode h (fits_iff.mpr ⟨hcells, hwidth, hheight⟩) altitude
        (hcount hcode)
    · intro hfits h
      exact Compressed.result_decode_of_not_fits h hfits altitude
    · intro g tail h
      exact Compressed.result_decode_append h tail
    · intro front front' rest hfront hfront' _
      exact Compressed.result_decode_code width height altitude hfront hfront' rest
  · simp only [if_neg hcode]
    refine ⟨?_, ?_, ?_, ?_, ?_⟩
    · intro e he
      rw [Legacy.result_decode, he]
    · intro hcells hwidth hheight h _
      exact Legacy.exists_decode h (fits_iff.mpr ⟨hcells, hwidth, hheight⟩) altitude
    · intro hfits h
      exact Legacy.result_decode_of_not_fits h hfits altitude
    · intro g tail h
      exact Legacy.result_decode_append h tail
    · intro _ _ _ _ _ h
      exact absurd h hcode

/-- A blob of one cell, whose stored height is -2. -/
def oneCell : List UInt8 :=
  [27, 0, 0, 0, 1, 0, 0, 0, 1, 0, 0, 0, 100, 0, 0, 0, 254, 255]

/-- The cell of the blob is seen, and its neighbour keeps the default height. -/
theorem decode_meaning_oneCell : ∃ g, (decode 16 16 0 27 oneCell).result = .ok g ∧
    g.stored? 0 0 = some (-2) ∧ g.stored? 1 0 = some 2100 := by
  obtain ⟨g, hg, hfresh⟩ := (decode_meaning 16 16 0 27 oneCell).2.1 (by decide) (by decide)
    (by decide) rfl fun _ => by decide
  have hfirst : cell 27 oneCell 0 0 = -2 := by decide
  have hsecond : cell 27 oneCell 1 0 = 2100 := by decide +kernel
  exact ⟨g, hg, hfirst ▸ hfresh.stored_eq (by decide) (by decide),
    hsecond ▸ hfresh.stored_eq (by decide) (by decide)⟩

/-- The blob has no fault, but it is not read into a region of 65536 by 65536 cells, which are one more
than can be counted. -/
theorem not_decode_meaning_large : fault? 27 oneCell = none ∧
    ¬∃ g, (decode 65536 65536 0 27 oneCell).result = .ok g := by
  have hfault : Compressed.fault? oneCell = none := rfl
  refine ⟨rfl, ?_⟩
  rintro ⟨g, hg⟩
  rw [result_decode, if_pos rfl, Compressed.result_decode_of_not_fits hfault (by decide)] at hg
  cases hg

end Blob

end Terrain
