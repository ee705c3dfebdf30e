import Terrain.Base64
import Terrain.Number.Shortest
import Terrain.Quoted

/-!
# What can go wrong

One type lists every cause for which an operation of the library gives no result, and one function
gives the text of those causes that have one. Markup and configuration texts that cannot be read
are told apart only by kind.
-/

namespace Terrain

/-- The layouts that can turn out to be too short. -/
inductive Layout where
  | compressedMap
  | compressedHeader
  | compressed
  | legacy
  | legacyDocument
  deriving DecidableEq, Repr

def Layout.name : Layout → String
  | .compressedMap => "compressed map"
  | .compressedHeader => "compressed header"
  | .compressed => "compressed"
  | .legacy => "legacy"
  | .legacyDocument => "legacy XML"

/-- Why a document that is well-formed so far does not have the wanted shape. -/
inductive SchemaFault where
  | missing (field : String)
  | duplicate (field : String)
  /-- A document type parts the text that one value is read from. -/
  | partedText
  | unexpected
  deriving DecidableEq, Repr

/-- Why a configuration cannot be used. -/
inductive ConfigFault where
  | emptySize (width height : Nat)
  | unevenSize (width height patch : Nat)
  | factorNotPositive (factor : Float32)
  | heightNotFinite

/-- Why an operation gives no result. -/
inductive Error where
  | truncated (layout : Layout) (needed available : Nat)
  | invalidDimensions (width height : Int)
  | invalidFactor (factor : Int32)
  | unknownRoot (name : List Char)
  | malformedMarkup
  | schema (fault : SchemaFault)
  | base64 (fault : Base64.Fault)
  | configSyntax
  | config (fault : ConfigFault)
  | missingFile
  | outOfStorage
  /-- The cells or the patches of a region are more than can be counted. -/
  | uncountable
  /-- A number was to be held between bounds of which the lower one is above the upper one. -/
  | crossedBounds

/-- The text of a schema fault; only fields that are missing or repeated have one. -/
def SchemaFault.message? : SchemaFault → Option String
  | .missing field => some ("missing field `" ++ field ++ "`")
  | .duplicate field => some ("duplicate field `" ++ field ++ "`")
  | .partedText | .unexpected => none

def ConfigFault.message : ConfigFault → String
  | .emptySize width height => s!"surface size <{width},{height}> is empty"
  | .unevenSize width height patch =>
    s!"surface size <{width},{height}> is not a multiple of {patch}"
  | .factorNotPositive factor =>
    "compression factor " ++ Number.singleText factor ++ " must be positive"
  | .heightNotFinite => "default height must be finite"

def Error.message? : Error → Option String
  | .truncated layout needed available =>
    some (layout.name ++ s!" data is truncated: needed {needed} values, found {available}")
  | .invalidDimensions width height => some s!"Invalid grid dimensions: {width}x{height}"
  | .invalidFactor factor => some s!"Invalid compression factor: {factor}"
  | .unknownRoot name => some ("Unrecognized terrain document root: " ++ quoted name)
  | .schema fault => fault.message?.map ("XML schema error: " ++ ·)
  | .base64 fault => some ("Base64 error: " ++ fault.message)
  | .config fault => some fault.message
  | .malformedMarkup | .configSyntax | .missingFile | .outOfStorage | .uncountable
  | .crossedBounds => none

/-- The value that was found in storage, or the error that nothing is there. -/
def fromStorage {α : Type} : Option α → Except Error α
  | some a => .ok a
  | none => .error .outOfStorage

end Terrain
