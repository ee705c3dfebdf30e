import Terrain.Markup.Event

/-!
# Elements of a marked-up text

The events of a text are gathered into its root element. Characters that are not parted by a tag or
a document type make one piece of text, stripped of blanks at both ends; verbatim characters keep
theirs. A text that ends or breaks inside an element leaves that element and those around it open.
-/

namespace Terrain.Markup

/-- A part of a document. -/
inductive Node where
  /-- Text, if its references could be replaced. -/
  | text (content : Option (List Char))
  /-- An element, with what follows its name in the start tag, and whether its end was met. -/
  | element (name attributes : List Char) (children : List Node) (closed : Bool)

/-! ### Text -/

/-- A piece of text between two marks. -/
inductive Piece where
  | raw (text : List Char)
  | verbatim (text : List Char)
  deriving DecidableEq, Repr

def Piece.value? : Piece → Option (List Char)
  | raw text => expand? text
  | verbatim text => some text

/-- Adds characters to a row of pieces, kept last one first. The blanks in front of the first piece
do not count. -/
def addRaw (pieces : List Piece) (raw : List Char) : List Piece :=
  if pieces.isEmpty then
    let raw := trimStart raw
    if raw.isEmpty then [] else [Piece.raw raw]
  else Piece.raw raw :: pieces

/-- What a row of pieces, kept last one first, says. The blanks behind the last piece do not
count. -/
def joinPieces (pieces : List Piece) : Option (List Char) :=
  let pieces : List Piece :=
    match pieces with
    | .raw raw :: rest => .raw (trimEnd raw) :: rest
    | pieces => pieces
  (pieces.reverse.mapM Piece.value?).map List.flatten

/-- A part of a document, with its text in one piece. -/
inductive Token where
  | start (name attributes : List Char)
  | stop
  | text (content : Option (List Char))
  | malformed
  deriving DecidableEq, Repr

/-- The tokens of a document so far, and the pieces of the text that is being read, both last one
first. -/
structure Gathering where
  tokens : List Token
  pieces : List Piece

namespace Gathering

def flush (g : Gathering) : List Token :=
  if g.pieces.isEmpty then g.tokens else .text (joinPieces g.pieces) :: g.tokens

def step (g : Gathering) : Event → Gathering
  | .start name attributes => ⟨.start name attributes :: g.flush, []⟩
  | .stop => ⟨.stop :: g.flush, []⟩
  | .text raw => ⟨g.tokens, addRaw g.pieces raw⟩
  | .verbatim content => ⟨g.tokens, .verbatim content :: g.pieces⟩
  | .doctype => ⟨g.flush, []⟩
  | .malformed => ⟨.malformed :: g.flush, []⟩

end Gathering

def tokens (events : List Event) : List Token :=
  (events.foldl Gathering.step ⟨[], []⟩).flush.reverse

/-! ### Elements -/

/-- An element that is being read, its children last one first. -/
structure Frame where
  name : List Char
  attributes : List Char
  children : List Node

def Frame.add (f : Frame) (child : Node) : Frame := { f with children := child :: f.children }

def Frame.node (f : Frame) (closed : Bool) : Node :=
  .element f.name f.attributes f.children.reverse closed

/-- How much of the root element has been read. -/
inductive Building where
  /-- Nothing yet. -/
  | before
  /-- An element and those around it, the innermost one first. -/
  | inside (frame : Frame) (outer : List Frame)
  /-- All of it, or all that can be read. -/
  | root (node : Node)
  /-- There is something else in its place. -/
  | absent

def abandon (frame : Frame) (outer : List Frame) : Node :=
  outer.foldl (fun node frame => (frame.add node).node false) (frame.node false)

namespace Building

def step : Building → Token → Building
  | before, .start name attributes => inside ⟨name, attributes, []⟩ []
  | before, _ => absent
  | inside frame outer, .start name attributes => inside ⟨name, attributes, []⟩ (frame :: outer)
  | inside frame outer, .stop =>
    match outer with
    | [] => root (frame.node true)
    | parent :: outer => inside (parent.add (frame.node true)) outer
  | inside frame outer, .text content => inside (frame.add (.text content)) outer
  | inside frame outer, .malformed => root (abandon frame outer)
  | root node, _ => root node
  | absent, _ => absent

/-- The root element, once there is nothing more to read. -/
def finish : Building → Option Node
  | inside frame outer => some (abandon frame outer)
  | root node => some node
  | before | absent => none

end Building

/-- The root element of a row of events, if nothing else stands in its place. -/
def rootOfEvents? (events : List Event) : Option Node :=
  ((tokens events).foldl Building.step .before).finish

/-- The root element of a text. -/
def root? (text : List Char) : Option Node := rootOfEvents? (events text)

end Terrain.Markup
