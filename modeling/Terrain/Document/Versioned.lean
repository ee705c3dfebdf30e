import Terrain.Document.Layout
import Terrain.Number.Decimal

/-!
# Versioned documents

A package with the sizes of a region, its altitude, its factor and every stored height, column
after column. The sizes have to be of whole patches and the factor positive and finite; the version
is noted but does not matter, and an altitude below zero counts as zero.
-/

namespace Terrain

/-- The fields of a package, as far as they are known. -/
structure PackageFields where
  version : Option Int32
  width : Option Int32
  height : Option Int32
  altitude : Option Int32
  factor : Option Float32
  map : Option (List Int32)

/-- What a versioned document holds. -/
structure Package where
  version : Int32
  width : Int32
  height : Int32
  altitude : Int32
  factor : Float32
  map : List Int32

namespace Package

def currentVersion : Int32 := 1

def ofGrid (g : HeightGrid) : Package :=
  ⟨currentVersion, Int32.ofNat g.width, Int32.ofNat g.height, Int32.ofNat g.altitude, g.factor,
    g.compressedMap⟩

/-! ### Writing -/

def name : String := "TerrainChannelXMLPackage"

def itemName : String := "int"

def integerElement (name : String) (n : Int32) : List Char :=
  Document.element name.toList (Number.integerText n.toInt)

/-- The element of a map; an empty one closes itself. -/
def mapElement (map : List Int32) : List Char :=
  if map.isEmpty then "<Map/>".toList
  else Document.element "Map".toList (map.flatMap (integerElement itemName))

def toElement (p : Package) : List Char :=
  Document.element name.toList (integerElement "Version" p.version ++
    integerElement "SizeX" p.width ++ integerElement "SizeY" p.height ++
    integerElement "SizeZ" p.altitude ++
    Document.element "CompressionFactor".toList (Number.singleText p.factor).toList ++
    mapElement p.map)

/-! ### Reading -/

/-- The integers of a map so far, last one first, with the name of the elements that stand next to
each other, while they do. -/
structure MapReading where
  items : List Int32
  run : Option (List Char)
  met : Bool

/-- An integer in an element or in a text of its own. -/
def readItem : Markup.Node → Except SchemaFault Int32
  | .text (some text) =>
    match Number.readInt32? text with
    | some n => .ok n
    | none => .error .unexpected
  | node => Markup.readValue Number.readInt32? node

/-- Adds an integer to a run of elements with the given name. -/
def MapReading.add (m : MapReading) (run : List Char) (node : Markup.Node) :
    Except SchemaFault MapReading :=
  (readItem node).map fun n => ⟨n :: m.items, some run, true⟩

/-- Takes one part of a map. The integers have to stand in one run of elements; a text in it
counts as one of them. -/
def readMapChild (m : MapReading) : Markup.Node → Except SchemaFault MapReading
  | node@(.text _) =>
    match m.run with
    | some run => m.add run node
    | none => (Markup.skip node).map fun _ => m
  | node@(.element name ..) =>
    if m.run = some name then m.add name node
    else if Markup.localName name = itemName.toList then
      if m.met then .error (.duplicate itemName) else m.add name node
    else (Markup.skip node).map fun _ => { m with run := none }

def readMap (node : Markup.Node) : Except SchemaFault (List Int32) := do
  let m ← Markup.readRecord ⟨[], none, false⟩ readMapChild node
  pure m.items.reverse

def readField (f : PackageFields) (name : List Char) (node : Markup.Node) :
    Except SchemaFault PackageFields := do
  let integer := Markup.readValue Number.readInt32? node
  if name = "Version".toList then
    pure { f with version := ← Markup.readOnce "Version" f.version integer }
  else if name = "SizeX".toList then
    pure { f with width := ← Markup.readOnce "SizeX" f.width integer }
  else if name = "SizeY".toList then
    pure { f with height := ← Markup.readOnce "SizeY" f.height integer }
  else if name = "SizeZ".toList then
    pure { f with altitude := ← Markup.readOnce "SizeZ" f.altitude integer }
  else if name = "CompressionFactor".toList then
    let factor := Markup.readValue Number.readSingle? node
    pure { f with factor := ← Markup.readOnce "CompressionFactor" f.factor factor }
  else if name = "Map".toList then
    pure { f with map := ← Markup.readOnce "Map" f.map (readMap node) }
  else
    Markup.skip node
    pure f

def readChild (f : PackageFields) : Markup.Node → Except SchemaFault PackageFields
  | node@(.element name ..) => readField f (Markup.localName name) node
  | node@(.text _) => (Markup.skip node).map fun _ => f

/-- The package of fields; the first one that is missing is reported. -/
def ofFields (f : PackageFields) : Except SchemaFault Package := do
  pure ⟨← Markup.readRequired "Version" f.version, ← Markup.readRequired "SizeX" f.width,
    ← Markup.readRequired "SizeY" f.height, ← Markup.readRequired "SizeZ" f.altitude,
    ← Markup.readRequired "CompressionFactor" f.factor, ← Markup.readRequired "Map" f.map⟩

def ofElement (node : Markup.Node) : Except SchemaFault Package := do
  ofFields (← Markup.readRecord ⟨none, none, none, none, none, none⟩ readChild node)

def readRootChild (p : Option Package) : Markup.Node → Except SchemaFault (Option Package)
  | node@(.element found ..) =>
    if Markup.localName found = name.toList then Markup.readOnce name p (ofElement node)
    else (Markup.skip node).map fun _ => p
  | node@(.text _) => (Markup.skip node).map fun _ => p

def ofRoot (node : Markup.Node) : Except SchemaFault Package := do
  Markup.readRequired name (← Markup.readRecord none readRootChild node)

/-- Whether a size is one of whole patches. -/
def IsSize (n : Int32) : Prop := 0 ≤ n ∧ n.toInt.toNat % patchSize = 0

instance (n : Int32) : Decidable (IsSize n) := inferInstanceAs (Decidable (_ ∧ _))

/-- The grid of a package: first the sizes have to be right, then the factor, then the number of
stored heights. -/
def toGrid (p : Package) : Except Error HeightGrid :=
  if ¬(IsSize p.width ∧ IsSize p.height) then
    .error (.invalidDimensions p.width.toInt p.height.toInt)
  else if !(p.factor.isFinite && 0 < p.factor) then
    .error (.invalidFactor (Number.truncateSingle p.factor))
  else
    HeightGrid.ofCompressedMap p.map p.factor p.width.toInt.toNat p.height.toInt.toNat
      p.altitude.toInt.toNat

end Package

namespace VersionedDocument

def encode (g : HeightGrid) : List Char :=
  Document.element DocumentLayout.versioned.root (Package.ofGrid g).toElement

def decode (text : List Char) : Logged HeightGrid := do
  let package ← Logged.ofExcept (Document.readRoot Package.ofRoot text)
  let version := package.version
  let current := Package.currentVersion
  Logged.noteIf (version != current) .warn
    s!"Reading terrain package version {version} as version {current}"
  Logged.ofExcept package.toGrid

end VersionedDocument

end Terrain
