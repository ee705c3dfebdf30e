import Terrain.Blob
import Terrain.Markup.Reading

/-!
# Layouts of documents

A region is written as a document in one of two layouts, told apart by the name of the root
element. Regions of exactly the legacy size are written in the legacy layout.
-/

namespace Terrain

/-- The layout of a document. -/
inductive DocumentLayout where
  /-- The heights as encoded binary data, without sizes. -/
  | legacy
  /-- The sizes, the factor and every stored height. -/
  | versioned
  deriving DecidableEq, Repr

namespace DocumentLayout

def ofGrid (g : HeightGrid) : DocumentLayout := if g.HasLegacySize then legacy else versioned

def root : DocumentLayout → List Char
  | legacy => "TerrainMap".toList
  | versioned => "TerrainMap2".toList

def ofRoot (name : List Char) : Except Error DocumentLayout :=
  if name = legacy.root then .ok legacy
  else if name = versioned.root then .ok versioned
  else .error (.unknownRoot name)

def ofEvents : List Markup.Event → Except Error DocumentLayout
  | .start name _ :: _ => ofRoot (Markup.localName name)
  | .malformed :: _ => .error .malformedMarkup
  | _ :: rest => ofEvents rest
  | [] => .error (.unknownRoot [])

/-- The layout of a document; what follows the first start tag does not matter. -/
def detect (text : List Char) : Except Error DocumentLayout := ofEvents (Markup.events text)

end DocumentLayout

namespace Document

def declaration : List Char := "<?xml version=\"1.0\" encoding=\"utf-8\"?>".toList

def afterInstruction? : List Char → Option (List Char)
  | '?' :: '>' :: rest => some rest
  | _ :: rest => afterInstruction? rest
  | [] => none

/-- A text without the blanks and the declaration in front. -/
def body (text : List Char) : List Char :=
  let text := text.dropWhile Markup.isSpace
  if "<?xml".toList.isPrefixOf text then (afterInstruction? text).getD text else text

/-- Reads the root element of a document as a record; its name does not matter. -/
def readRoot {α : Type} (read : Markup.Node → Except SchemaFault α) (text : List Char) :
    Except Error α :=
  match Markup.root? (body text) with
  | some node => (read node).mapError .schema
  | none => .error (.schema .unexpected)

def element (name content : List Char) : List Char :=
  '<' :: name ++ '>' :: content ++ '<' :: '/' :: name ++ ['>']

end Document

end Terrain
