import Terrain.Markup.Character

/-!
# Attributes

What follows the name in a start tag is well-formed when it is a row of keys with quoted values and
no key comes twice. Blanks may stand around keys and values, and are needed nowhere.
-/

namespace Terrain.Markup

/-- How far a row of attributes has been read. Keys are kept last character first. -/
inductive AttributeMode where
  | gap
  | key (name : List Char)
  | afterKey (name : List Char)
  | beforeValue
  | value (quote : Char)
  | broken
  deriving DecidableEq

/-- The keys that were met, and how far the row has been read. -/
structure AttributeScan where
  keys : List (List Char)
  mode : AttributeMode

namespace AttributeScan

/-- Takes the sign that separates a key from its value. -/
def equals (s : AttributeScan) (name : List Char) : AttributeScan :=
  if name ∈ s.keys then ⟨s.keys, .broken⟩ else ⟨name :: s.keys, .beforeValue⟩

def step (s : AttributeScan) (c : Char) : AttributeScan :=
  match s.mode with
  | .gap => if isBlank c then s else ⟨s.keys, .key [c]⟩
  | .key name =>
    if c = '=' then s.equals name
    else ⟨s.keys, if isBlank c then .afterKey name else .key (c :: name)⟩
  | .afterKey name =>
    if c = '=' then s.equals name
    else ⟨s.keys, if isBlank c then .afterKey name else .broken⟩
  | .beforeValue =>
    ⟨s.keys, if c = '"' ∨ c = '\'' then .value c else if isBlank c then .beforeValue else .broken⟩
  | .value quote => ⟨s.keys, if c = quote then .gap else .value quote⟩
  | .broken => s

end AttributeScan

def attributesWellFormed (text : List Char) : Bool :=
  (text.foldl AttributeScan.step ⟨[], .gap⟩).mode = .gap

end Terrain.Markup
