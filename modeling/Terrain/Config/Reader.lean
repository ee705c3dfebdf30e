import Terrain.Config
import Terrain.FieldText.Value

/-!
# Reading configurations

A configuration is written as named fields in parentheses, perhaps after its name and after a list
of extensions of the format. Fields that are not named keep their standard value, unknown ones are
passed over, and no field may come twice. Numbers are read in the precision of their field.
-/

namespace Terrain.Config

open FieldText

/-- The fields of a configuration that were met. -/
structure Fields where
  width : Option Nat
  height : Option Nat
  altitude : Option Nat
  factor : Option Float32
  ground : Option Float

namespace Fields

def none : Fields := ⟨.none, .none, .none, .none, .none⟩

/-- The configuration of the fields, the others standard. -/
def config (f : Fields) : Config :=
  ⟨f.width.getD standard.width, f.height.getD standard.height, f.altitude.getD standard.altitude,
    f.factor.getD standard.factor, f.ground.getD standard.ground⟩

end Fields

/-- A natural of at most 32 bits. -/
def count? : Reader Nat := fun text =>
  (natural? text).filter fun (n, _) => n < 1 <<< 32

/-- Reads the value of a field that was not met before. -/
def once? {α : Type} (held : Option α) (value : Reader α) : Reader (Option α) := fun text =>
  if held.isSome then none else (value text).map fun (a, rest) => (some a, rest)

/-- How deep values may be nested, the configuration itself included. -/
def levels : Nat := 128

/-- Reads the value of the field with the given name; wrapped values may be bare in a field that is
passed over if the text asks for that. -/
def field? (bare : Bool) (f : Fields) (name : List Char) : Reader Fields := fun text => do
  if name = "size_x".toList then
    let (width, rest) ← once? f.width count? text
    pure ({ f with width := width }, rest)
  else if name = "size_y".toList then
    let (height, rest) ← once? f.height count? text
    pure ({ f with height := height }, rest)
  else if name = "altitude".toList then
    let (altitude, rest) ← once? f.altitude count? text
    pure ({ f with altitude := altitude }, rest)
  else if name = "compression_factor".toList then
    let (factor, rest) ← once? f.factor (real? Number.readSingle?) text
    pure ({ f with factor := factor }, rest)
  else if name = "default_height".toList then
    let (ground, rest) ← once? f.ground (real? Number.readDouble?) text
    pure ({ f with ground := ground }, rest)
  else
    let rest ← skipValue? bare (levels - 2) text
    pure (f, rest)

/-- Reads fields up to the closing parenthesis. They are parted by commas, and one more comma may
come last. -/
def fields? (bare : Bool) : Nat → Bool → Fields → Reader Fields
  | 0, _, _, _ => none
  | fuel + 1, separated, f, text => do
    match ← skipBlanks text with
    | ')' :: rest => pure (f, rest)
    | text =>
      if !separated then none
      else
        let (name, rest) ← name? text
        let rest ← skipBlanks (← after? [':'] (← skipBlanks rest))
        let (f, rest) ← field? bare f name rest
        let (separated, rest) ← comma? rest
        fields? bare fuel separated f rest

/-- The extension by which a wrapped value may stand without parentheses. -/
def bareWrapping : List Char := "implicit_some".toList

/-- The extensions of the format. The others do not change how a configuration reads. -/
def extensions : List (List Char) :=
  [bareWrapping, "unwrap_newtypes".toList, "unwrap_variant_newtypes".toList]

/-- Adds the names of extensions up to the end of a list; one more comma may come last. -/
def extensionNames? : Nat → List (List Char) → Reader (List (List Char))
  | 0, _, _ => none
  | fuel + 1, names, text => do
    let (name, rest) ← name? text
    if name ∈ extensions then
      let (separated, rest) ← comma? rest
      if !goesOn rest then pure (name :: names, rest)
      else if separated then extensionNames? fuel (name :: names) rest
      else none
    else none

def afterPieces? (pieces : List String) (text : List Char) : Option (List Char) :=
  pieces.foldlM (fun text piece => (after? piece.toList text).bind skipBlanks) text

/-- Adds the extensions that are enabled in front of a configuration, in any number of lists. -/
def enabled? : Nat → List (List Char) → Reader (List (List Char))
  | 0, _, _ => none
  | fuel + 1, names, text =>
    match text with
    | '#' :: _ => do
      let rest ← afterPieces? ["#", "!", "[", "enable", "("] text
      let (names, rest) ← extensionNames? (rest.length + 1) names rest
      enabled? fuel names (← afterPieces? [")", "]"] (← skipBlanks rest))
    | text => some (names, text)

def name : List Char := "SurfaceConfig".toList

/-- Passes over the name of a configuration, if there is one. -/
def afterName? (text : List Char) : Option (List Char) :=
  if goesOn text then
    (name? text).bind fun (found, rest) => if found = name then skipBlanks rest else none
  else skipBlanks text

/-- The configuration that a text writes, usable or not. -/
def read? (text : List Char) : Option Config := do
  let text ← skipBlanks text
  let (names, text) ← enabled? (text.length + 1) [] text
  let text ← after? ['('] (← afterName? text)
  let bare := names.any fun name => name = bareWrapping
  let (f, rest) ← fields? bare (text.length + 1) true .none text
  match ← skipBlanks rest with
  | [] => pure f.config
  | _ => none

/-- The configuration of a text, if it is usable. -/
def ofText (text : List Char) : Except Error Config :=
  match read? text with
  | some c => c.checked
  | none => .error .configSyntax

end Terrain.Config
