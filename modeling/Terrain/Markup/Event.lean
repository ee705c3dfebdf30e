import Terrain.Markup.Character

/-!
# Events of a marked-up text

A text is cut into start tags, end tags, runs of characters and the marks for a document type. A
tag that closes itself counts as a start and an end. Comments, instructions and declarations leave
nothing behind. The first thing that cannot be read ends the events.

The text is read character by character, so that what has been read so far depends on nothing that
comes later.
-/

namespace Terrain.Markup

/-- What stands at a place of a marked-up text. -/
inductive Event where
  /-- A start tag, with what follows its name. -/
  | start (name attributes : List Char)
  /-- An end tag. -/
  | stop
  /-- Characters between tags, references included. -/
  | text (raw : List Char)
  /-- Characters that stand for themselves. -/
  | verbatim (content : List Char)
  /-- A document type. -/
  | doctype
  /-- Something that cannot be read. -/
  | malformed
  deriving DecidableEq, Repr

/-- The kinds of marks that start with an exclamation mark. -/
inductive Mark where
  | comment
  | verbatim
  | doctype
  deriving DecidableEq, Repr

/-- Where in the text the reader is. Characters that were read and belong together are kept last
one first. -/
inductive Mode where
  /-- Between tags. -/
  | text (raw : List Char)
  /-- After an opening bracket. -/
  | opened
  /-- In a start tag, perhaps in a quoted value. -/
  | tag (content : List Char) (quote : Option Char)
  /-- In an end tag. -/
  | endTag (name : List Char)
  /-- In an instruction or declaration. -/
  | instruction (content : List Char)
  /-- After an exclamation mark. -/
  | marked
  /-- In a comment, in verbatim characters or in a document type, in so many nested brackets. -/
  | mark (kind : Mark) (content : List Char) (depth : Nat)
  /-- After something that cannot be read. -/
  | broken
  deriving DecidableEq, Repr

/-- What was read so far: the events, the names of the elements that are open, both last one
first, and where the reader is. -/
structure Scan where
  events : List Event
  opened : List (List Char)
  mode : Mode
  deriving DecidableEq, Repr

namespace Scan

def start : Scan := ⟨[], [], .text []⟩

/-- Adds an event, after which the reader is between tags. -/
def emit (s : Scan) (event : Event) : Scan := ⟨event :: s.events, s.opened, .text []⟩

def fail (s : Scan) : Scan := ⟨.malformed :: s.events, s.opened, .broken⟩

def endText (s : Scan) (raw : List Char) : Scan :=
  if raw.isEmpty then s else s.emit (.text raw.reverse)

/-- Ends a start tag. The name ends at the first blank; a slash at the very end closes the
element. -/
def endTag (s : Scan) (content : List Char) : Scan :=
  let closed := content.head? = some '/'
  let content := (if closed then content.tail else content).reverse
  let name := content.takeWhile fun c => !isBlank c
  let attributes := content.dropWhile fun c => !isBlank c
  if closed then (s.emit (.start name attributes)).emit .stop
  else ⟨.start name attributes :: s.events, name :: s.opened, .text []⟩

/-- The name in an end tag; blanks may follow it, but do not make a name. -/
def endName (content : List Char) : List Char :=
  let name := content.dropWhile isBlank
  (if name.isEmpty then content else name).reverse

/-- Ends an end tag, which has to carry the name of the element that was opened last. -/
def closeElement (s : Scan) (content : List Char) : Scan :=
  match s.opened with
  | name :: opened =>
    if endName content = name then ⟨.stop :: s.events, opened, .text []⟩ else s.fail
  | [] => s.fail

/-- Ends an instruction, which has to end with a question mark of its own behind something between
the two. -/
def endInstruction (s : Scan) (content : List Char) : Scan :=
  match content with
  | '?' :: _ :: _ :: _ => ⟨s.events, s.opened, .text []⟩
  | _ => s.fail

/-- Whether a text begins with a word, letters being compared without their case. -/
def beginsWith (word text : List Char) : Bool :=
  (text.take word.length).map Char.toUpper == word

/-- Takes a closing bracket in a mark, which may end it. -/
def closeMark (s : Scan) (kind : Mark) (content : List Char) (depth : Nat) : Scan :=
  match kind, content with
  | .comment, '-' :: '-' :: _ :: _ :: _ =>
    if beginsWith ['-', '-'] content.reverse then ⟨s.events, s.opened, .text []⟩ else s.fail
  | .verbatim, ']' :: ']' :: rest =>
    let opening := ['[', 'C', 'D', 'A', 'T', 'A', '[']
    if beginsWith opening rest.reverse then
      s.emit (.verbatim (rest.reverse.drop opening.length))
    else s.fail
  | .doctype, _ =>
    if depth = 0 then
      let opening := ['D', 'O', 'C', 'T', 'Y', 'P', 'E']
      let content := content.reverse
      if beginsWith opening content && !(content.drop opening.length).all isBlank then
        s.emit .doctype
      else s.fail
    else ⟨s.events, s.opened, .mark .doctype ('>' :: content) (depth - 1)⟩
  | kind, content => ⟨s.events, s.opened, .mark kind ('>' :: content) depth⟩

def stepTag (s : Scan) (content : List Char) (quote : Option Char) (c : Char) : Scan :=
  match quote with
  | some q => ⟨s.events, s.opened, .tag (c :: content) (if c = q then none else some q)⟩
  | none =>
    if c = '>' then s.endTag content
    else ⟨s.events, s.opened, .tag (c :: content) (if c = '"' ∨ c = '\'' then some c else none)⟩

/-- Takes the first character after an exclamation mark, which tells the kind of the mark. -/
def stepMarked (s : Scan) (c : Char) : Scan :=
  if c = '-' then ⟨s.events, s.opened, .mark .comment [c] 0⟩
  else if c = '[' then ⟨s.events, s.opened, .mark .verbatim [c] 0⟩
  else if c = 'D' ∨ c = 'd' then ⟨s.events, s.opened, .mark .doctype [c] 0⟩
  else s.fail

def step (s : Scan) (c : Char) : Scan :=
  match s.mode with
  | .text raw =>
    if c = '<' then ⟨(s.endText raw).events, s.opened, .opened⟩
    else ⟨s.events, s.opened, .text (c :: raw)⟩
  | .opened =>
    if c = '/' then ⟨s.events, s.opened, .endTag []⟩
    else if c = '?' then ⟨s.events, s.opened, .instruction [c]⟩
    else if c = '!' then ⟨s.events, s.opened, .marked⟩
    else s.stepTag [] none c
  | .tag content quote => s.stepTag content quote c
  | .endTag name =>
    if c = '>' then s.closeElement name else ⟨s.events, s.opened, .endTag (c :: name)⟩
  | .instruction content =>
    if c = '>' then s.endInstruction content
    else ⟨s.events, s.opened, .instruction (c :: content)⟩
  | .marked => s.stepMarked c
  | .mark kind content depth =>
    if c = '>' then s.closeMark kind content depth
    else ⟨s.events, s.opened, .mark kind (c :: content) (if c = '<' then depth + 1 else depth)⟩
  | .broken => s

/-- Takes the end of the text. End tags and instructions may end there. -/
def finish (s : Scan) : Scan :=
  match s.mode with
  | .text raw => s.endText raw
  | .endTag name => s.closeElement name
  | .instruction content => s.endInstruction content
  | .opened | .broken => s
  | .tag .. | .marked | .mark .. => s.fail

def read (s : Scan) (text : List Char) : Scan := text.foldl step s

/-- A text is read part by part. -/
theorem read_append (s : Scan) (a b : List Char) : s.read (a ++ b) = (s.read a).read b :=
  List.foldl_append

end Scan

/-- The mark that tells the byte order of a text and is no part of it. -/
def byteOrderMark : Char := Char.ofNat 65279

def withoutByteOrderMark : List Char → List Char
  | c :: rest => if c = byteOrderMark then rest else c :: rest
  | [] => []

/-- The events of a text. -/
def events (text : List Char) : List Event :=
  (Scan.start.read (withoutByteOrderMark text)).finish.events.reverse

end Terrain.Markup
