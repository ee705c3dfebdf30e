/-!
# Rectangular grids

A grid holds its values in one array, row after row, so that the value of the cell `(x, y)` stands
at `y * width + x`. There are two ways to a cell: `get?` looks at the coordinates and knows nothing
outside the rectangle, while `at?` looks only at the place in the array, so that the column after
the last is the first of the next row.

Cells and places are counted in 32 bits. A rectangle with more cells than can be counted has no
grid, so inside of a grid no place wraps around.
-/

namespace Terrain

/-- How many places can be told apart. -/
def Grid.placeCount : Nat := 1 <<< 32

/-- A rectangle of values. -/
structure Grid (α : Type) where
  width : Nat
  height : Nat
  values : Array α
  size_values : values.size = width * height
  count_lt : width * height < Grid.placeCount
  deriving DecidableEq

namespace Grid

variable {α : Type}

def replicate (width height : Nat) (value : α) (count_lt : width * height < placeCount := by decide) :
    Grid α :=
  ⟨width, height, Array.replicate (width * height) value, Array.size_replicate, count_lt⟩

/-- The grid with the value `f x y` in the cell `(x, y)`. -/
def ofFn (width height : Nat) (f : Nat → Nat → α)
    (count_lt : width * height < placeCount := by decide) : Grid α :=
  ⟨width, height, Array.ofFn (fun i : Fin (width * height) => f (i % width) (i / width)),
    Array.size_ofFn, count_lt⟩

/-- The grid over an array, if the array has one value per cell. -/
def ofArray? (width height : Nat) (values : Array α)
    (count_lt : width * height < placeCount := by decide) : Option (Grid α) :=
  if h : values.size = width * height then some ⟨width, height, values, h, count_lt⟩ else none

/-- What is made over a rectangle, if its cells can be counted. -/
def counted? {β : Type} (width height : Nat) (make : width * height < placeCount → β) : Option β :=
  if h : width * height < placeCount then some (make h) else none

/-- The place of the cell `(x, y)` in the array. The sum is one of 32 bits, so a cell far outside may
be found inside again. -/
def place (g : Grid α) (x y : Nat) : Nat := (y * g.width + x) % placeCount

/-- Whether a cell lies in the rectangle. -/
def Contains (g : Grid α) (x y : Int) : Prop :=
  0 ≤ x ∧ 0 ≤ y ∧ x < g.width ∧ y < g.height

instance (g : Grid α) (x y : Int) : Decidable (g.Contains x y) :=
  inferInstanceAs (Decidable (_ ∧ _ ∧ _ ∧ _))

/-- The value at the place of a cell, if the array reaches that far. -/
def at? (g : Grid α) (x y : Nat) : Option α := g.values[g.place x y]?

def get? (g : Grid α) (x y : Int) : Option α :=
  if g.Contains x y then g.at? x.toNat y.toNat else none

/-- Writes the value at the place of a cell; a place beyond the array is left alone. -/
def put (g : Grid α) (x y : Nat) (value : α) : Grid α :=
  ⟨g.width, g.height, g.values.setIfInBounds (g.place x y) value, by
    rw [Array.size_setIfInBounds]; exact g.size_values, g.count_lt⟩

/-- Whether the place of a cell is in the array. -/
def Holds (g : Grid α) (x y : Nat) : Prop := g.place x y < g.values.size

instance (g : Grid α) (x y : Nat) : Decidable (g.Holds x y) :=
  inferInstanceAs (Decidable (_ < _))

/-- Writes the value at the place of a cell, if the array reaches that far. -/
def put? (g : Grid α) (x y : Nat) (value : α) : Option (Grid α) :=
  if g.Holds x y then some (g.put x y value) else none

def map {β : Type} (f : α → β) (g : Grid α) : Grid β :=
  ⟨g.width, g.height, g.values.map f, by rw [Array.size_map]; exact g.size_values, g.count_lt⟩

def fill (g : Grid α) (value : α) : Grid α := replicate g.width g.height value g.count_lt

def columnMajor (g : Grid α) : List α :=
  (List.range (g.width * g.height)).filterMap fun i => g.at? (i / g.height) (i % g.height)

/-- The values of a grid, row after row, and its size, as a text. -/
def text (item : α → String) (g : Grid α) : String :=
  "Grid2 \x7b values: [" ++ ", ".intercalate (g.values.toList.map item) ++
    s!"], dims: [{g.width}, {g.height}] \x7d"

def countP (g : Grid α) (p : α → Bool) : Nat := g.values.countP p

@[simp] theorem width_put (g : Grid α) (x y : Nat) (value : α) :
    (g.put x y value).width = g.width := rfl

@[simp] theorem height_put (g : Grid α) (x y : Nat) (value : α) :
    (g.put x y value).height = g.height := rfl

@[simp] theorem place_put (g : Grid α) (x y : Nat) (value : α) (x' y' : Nat) :
    (g.put x y value).place x' y' = g.place x' y' := rfl

/-- A write is seen at its own place and nowhere else. -/
theorem at?_put (g : Grid α) (x y x' y' : Nat) (value : α) :
    (g.put x y value).at? x' y' =
      if g.place x y = g.place x' y' ∧ g.Holds x y then some value else g.at? x' y' := by
  change (g.values.setIfInBounds (g.place x y) value)[g.place x' y']? = _
  rw [Array.getElem?_setIfInBounds]
  by_cases hp : g.place x y = g.place x' y'
  · by_cases hs : g.place x' y' < g.values.size <;> simp [hp, hs, Holds, at?]
  · simp [hp, at?]

/-- A cell of a rectangle comes before the end of the rows. -/
theorem flat_lt {x y width height : Nat} (hx : x < width) (hy : y < height) :
    y * width + x < width * height := by
  rw [Nat.mul_comm width]
  calc y * width + x < y * width + width := by omega
    _ = (y + 1) * width := by rw [Nat.succ_mul]
    _ ≤ height * width := Nat.mul_le_mul_right _ hy

/-- Inside of the rectangle nothing wraps around. -/
theorem place_of_lt (g : Grid α) {x y : Nat} (hx : x < g.width) (hy : y < g.height) :
    g.place x y = y * g.width + x :=
  Nat.mod_eq_of_lt (Nat.lt_trans (flat_lt hx hy) g.count_lt)

/-- Every cell of the rectangle has its place in the array. -/
theorem holds_of_lt (g : Grid α) {x y : Nat} (hx : x < g.width) (hy : y < g.height) :
    g.Holds x y := by
  rw [Holds, g.size_values, place_of_lt g hx hy]
  exact flat_lt hx hy

end Grid

end Terrain
