import Terrain.Error
import Terrain.Markup.Attribute
import Terrain.Markup.Node

/-!
# Reading elements

An element is read as a text or as a record. The fields of a record are child elements, found by
their names without the part before the first colon. Other elements and text between them are
skipped, a second element for one field is a fault where it is met, and a missing one where the
record ends.
-/

namespace Terrain.Markup

def localName (name : List Char) : List Char :=
  match name.dropWhile (· ≠ ':') with
  | _ :: rest => rest
  | [] => name

/-- The text in an element; an element without children holds the empty text. Where a document type
leaves two texts in front, what follows them does not matter. -/
def readText : Node → Except SchemaFault (List Char)
  | .element _ _ [] true => .ok []
  | .element _ _ [.text (some text)] true => .ok text
  | .element _ _ (.text (some _) :: .text (some _) :: _) _ => .error .partedText
  | _ => .error .unexpected

/-- The value that a text writes, by a reader for such values. -/
def readValue {α : Type} (read? : List Char → Option α) (node : Node) : Except SchemaFault α := do
  match read? (← readText node) with
  | some value => pure value
  | none => throw .unexpected

/-- Passes over a part that belongs to no field. An element has to be closed, and text has to have
a value. -/
def skip : Node → Except SchemaFault Unit
  | .text (some _) => .ok ()
  | .element _ _ (.text none :: _) _ => .error .unexpected
  | .element _ _ _ true => .ok ()
  | _ => .error .unexpected

def readRecord {σ : Type} (start : σ) (child : σ → Node → Except SchemaFault σ) :
    Node → Except SchemaFault σ
  | .element _ attributes children closed => do
    if !attributesWellFormed attributes then throw .unexpected
    let record ← children.foldlM child start
    if closed then pure record else throw .unexpected
  | .text _ => .error .unexpected

/-- Reads the element of a field, unless the field has a value. -/
def readOnce {α : Type} (field : String) (held : Option α) (value : Except SchemaFault α) :
    Except SchemaFault (Option α) :=
  match held with
  | some _ => .error (.duplicate field)
  | none => value.map some

def readRequired {α : Type} (field : String) : Option α → Except SchemaFault α
  | some value => .ok value
  | none => .error (.missing field)

end Terrain.Markup
