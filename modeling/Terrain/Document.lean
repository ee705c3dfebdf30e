import Terrain.Document.Versioned

/-!
# Documents

A region is written as a document in the layout of its size. A versioned document brings a size of its
own. A legacy document is read into a region of the wanted size: it holds heights as singles, row after
row, encoded in base 64, and does not tell the size of the region, so any region that it has enough
heights for can be read from it; surplus heights are ignored. A height that is not finite leaves its
cell at zero.
-/

namespace Terrain

/-! ### Legacy documents -/

namespace LegacyDocument

def field : String := "base64Binary"

def encode (g : HeightGrid) : List Char :=
  let data := Base64.encode (g.singles.flatMap Bytes.ofSingle)
  Document.element DocumentLayout.legacy.root (Document.element field.toList data)

def readChild (data : Option (List Char)) : Markup.Node → Except SchemaFault (Option (List Char))
  | node@(.element name ..) =>
    if Markup.localName name = field.toList then
      Markup.readOnce field data (Markup.readText node)
    else (Markup.skip node).map fun _ => data
  | node@(.text _) => (Markup.skip node).map fun _ => data

def readData (node : Markup.Node) : Except SchemaFault (List Char) := do
  Markup.readRequired field (← Markup.readRecord none readChild node)

/-- The bytes of encoded data, in which blanks do not count. -/
def dataBytes (data : List Char) : Except Error (List UInt8) :=
  let symbols := data.filter fun c => !Markup.isDataBlank c
  (Base64.decode (symbols.flatMap String.utf8EncodeChar)).mapError .base64

/-- Writes the height with the given number into its cell, if it is finite. -/
def writeSingle (columns : Nat) (g : HeightGrid) (single : Nat × Nat) : Except Error HeightGrid := do
  let (x, y) ← cellOf columns single.2
  let height := Bytes.single single.1
  if height.isFinite then (g.setStored x y (Height.recoverSingle height g.factor)).toExcept else .ok g

/-- The region of the given size with the singles that bytes write, one after the other. -/
def ofBytes (width height altitude : Nat) (bytes : List UInt8) : Except Error HeightGrid :=
  let cellCount := width * height
  let available := bytes.length / 4
  if available < cellCount then .error (.truncated .legacyDocument cellCount available)
  else do
    let blank ← HeightGrid.create width height altitude Height.defaultFactor
    let singles := (Bytes.naturals 4 bytes).take cellCount
    let grid ← singles.zipIdx.foldlM (writeSingle width) blank
    pure grid.clearFlags

/-- Reads a document into a region of the given size. -/
def decode (width height altitude : Nat) (text : List Char) : Except Error HeightGrid := do
  let data ← Document.readRoot readData text
  ofBytes width height altitude (← dataBytes data)

end LegacyDocument

/-! ### Both layouts -/

namespace Document

/-- The document of a grid. -/
def encode (g : HeightGrid) : List Char :=
  declaration ++
    match DocumentLayout.ofGrid g with
    | .legacy => LegacyDocument.encode g
    | .versioned => VersionedDocument.encode g

/-- Reads a document; the size and the altitude are those of a region that a legacy document is
read into. -/
def decode (width height altitude : Nat) (text : List Char) : Logged HeightGrid := do
  match ← Logged.ofExcept (DocumentLayout.detect text) with
  | .legacy => Logged.ofExcept (LegacyDocument.decode width height altitude text)
  | .versioned => VersionedDocument.decode text

end Document

end Terrain
