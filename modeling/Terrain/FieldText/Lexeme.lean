import Terrain.Markup.Character
import Terrain.Number.Decimal

/-!
# Words, numbers and literals

The pieces that a text of named fields is made of. A reader takes a piece off the front of the
text and gives what follows it, and gives nothing where no such piece stands. Only ASCII letters
and digits make names and numbers; other characters stand in literals and comments alone.
-/

namespace Terrain.FieldText

/-- What a reader makes of the front of a text, with the rest of the text. -/
abbrev Reader (α : Type) : Type := List Char → Option (α × List Char)

/-! ### Blanks and comments -/

/-- What a reader between two pieces is in; block comments nest. -/
inductive Between where
  | blank
  | line
  | block (depth : Nat)
  deriving DecidableEq, Repr

/-- Passes over blanks and comments, from inside of one. -/
def skipFrom : Between → List Char → Option (List Char)
  | .blank, [] => some []
  | .blank, '/' :: '/' :: rest => skipFrom .line rest
  | .blank, '/' :: '*' :: rest => skipFrom (.block 0) rest
  | .blank, c :: rest =>
    if Markup.isBlank c then skipFrom .blank rest
    else if c = '/' then none
    else some (c :: rest)
  | .line, [] => some []
  | .line, c :: rest => skipFrom (if c = '\n' then .blank else .line) rest
  | .block _, [] => none
  | .block depth, '/' :: '*' :: rest => skipFrom (.block (depth + 1)) rest
  | .block 0, '*' :: '/' :: rest => skipFrom .blank rest
  | .block (depth + 1), '*' :: '/' :: rest => skipFrom (.block depth) rest
  | .block depth, _ :: rest => skipFrom (.block depth) rest

/-- Passes over blanks and comments; a comment that is not closed has no end. -/
def skipBlanks (text : List Char) : Option (List Char) := skipFrom .blank text

/-! ### Words -/

def isNameStart (c : Char) : Bool :=
  ('a' ≤ c && c ≤ 'z') || ('A' ≤ c && c ≤ 'Z') || c = '_'

def isNameChar (c : Char) : Bool := isNameStart c || Number.isDigit c

/-- Whether a character may stand in a name that is marked as raw. -/
def isRawChar (c : Char) : Bool := isNameChar c || c = '.' || c = '+' || c = '-'

/-- Whether the text goes on with a character of a name. -/
def goesOn : List Char → Bool
  | c :: _ => isNameChar c
  | [] => false

/-- A name without a mark. A character after it that only a raw name may hold spoils it. -/
def plainName? : Reader (List Char)
  | c :: rest =>
    let name := c :: rest.takeWhile isNameChar
    match rest.dropWhile isNameChar with
    | next :: rest => if isNameStart c && !isRawChar next then some (name, next :: rest) else none
    | [] => if isNameStart c then some (name, []) else none
  | [] => none

/-- A name, which may be marked as raw. The letter of the mark is no name by itself at the end of a
text or in front of a quote. -/
def name? : Reader (List Char)
  | ['r'] => none
  | 'r' :: '"' :: _ => none
  | 'r' :: '#' :: rest =>
    let name := rest.takeWhile isRawChar
    if name.isEmpty then none else some (name, rest.dropWhile isRawChar)
  | text => plainName? text

def after? (word text : List Char) : Option (List Char) :=
  if word.isPrefixOf text then some (text.drop word.length) else none

def afterWord? (word text : List Char) : Option (List Char) :=
  match after? word text with
  | some rest => if goesOn rest then none else some rest
  | none => none

/-- Whether a comma comes next, and what follows it and the blanks around it. -/
def comma? : Reader Bool := fun text => do
  match ← skipBlanks text with
  | ',' :: rest => pure (true, ← skipBlanks rest)
  | text => pure (false, text)

/-! ### Numbers -/

/-- Whether a character may stand in an integer of some base. -/
def isIntegerChar (c : Char) : Bool := (Number.digitOf? 16 c).isSome || c = '_'

/-- Whether a character may stand in a number with a fraction or an exponent. -/
def isFractionChar (c : Char) : Bool :=
  Number.isDigit c || c = 'e' || c = 'E' || c = '.' || c = '+' || c = '-' || c = '_'

/-- The base that the front of an integer tells, and what follows it. -/
def splitBase : List Char → Nat × List Char
  | '0' :: 'x' :: rest => (16, rest)
  | '0' :: 'b' :: rest => (2, rest)
  | '0' :: 'o' :: rest => (8, rest)
  | text => (10, text)

/-- A natural in one of four bases. Underscores may stand after the first digit and do not
count. -/
def natural? : Reader Nat := fun text =>
  let (base, text) := splitBase text
  let digits := text.takeWhile isIntegerChar
  if digits.isEmpty || digits.head? = some '_' then none
  else
    (Number.naturalIn? base (digits.filter (· ≠ '_'))).map (·, text.dropWhile isIntegerChar)

/-- The words for numbers that are not finite. -/
def specialNumbers : List (List Char) :=
  ["inf", "+inf", "-inf", "NaN", "+NaN", "-NaN"].map String.toList

/-- A number, read from its text by a reader for the wanted precision. -/
def real? {α : Type} (read? : List Char → Option α) : Reader α := fun text =>
  match specialNumbers.findSome? fun word => (afterWord? word text).map (word, ·) with
  | some (word, rest) => (read? word).map (·, rest)
  | none => (read? (text.takeWhile isFractionChar)).map (·, text.dropWhile isFractionChar)

/-! ### Literals -/

/-- The characters that stand for something else behind a backslash. -/
def plainEscapes : List Char := ['\'', '"', '\\', 'n', 'r', 't', '0']

def isCharNumber (digits : List Char) : Bool :=
  !digits.isEmpty && digits.length ≤ 6 &&
    match Number.naturalIn? 16 digits with
    | some n => n.isValidChar
    | none => false

/-- What follows an escape, given what follows its backslash. -/
def afterEscape? : List Char → Option (List Char)
  | 'x' :: a :: b :: rest => if (Number.naturalIn? 16 [a, b]).isSome then some rest else none
  | 'u' :: '\x7b' :: rest =>
    match rest.dropWhile (· ≠ '\x7d') with
    | _ :: after => if isCharNumber (rest.takeWhile (· ≠ '\x7d')) then some after else none
    | [] => none
  | c :: rest => if c ∈ plainEscapes then some rest else none
  | [] => none

theorem length_of_afterEscape? {text rest : List Char} (h : afterEscape? text = some rest) :
    rest.length < text.length := by
  have drop (p : Char → Bool) (l : List Char) : (l.dropWhile p).length ≤ l.length :=
    (List.dropWhile_suffix p).length_le
  unfold afterEscape? at h
  split at h
  · split at h
    · cases h; simp; omega
    · cases h
  · rename_i tail
    split at h
    · rename_i c after he
      split at h
      · cases h
        have := drop (· ≠ '\x7d') tail
        rw [he] at this
        simp at this ⊢
        omega
      · cases h
    · cases h
  · split at h
    · cases h; simp
    · cases h
  · cases h

def afterString? (text : List Char) : Option (List Char) :=
  match text with
  | '"' :: rest => some rest
  | '\\' :: rest =>
    match _h : afterEscape? rest with
    | some rest => afterString? rest
    | none => none
  | _ :: rest => afterString? rest
  | [] => none
termination_by text.length
decreasing_by
  · have := length_of_afterEscape? _h
    simp
    omega
  · simp

def afterRaw? (ending : List Char) : List Char → Option (List Char)
  | [] => none
  | c :: rest =>
    match after? ending (c :: rest) with
    | some after => some after
    | none => afterRaw? ending rest

/-- What follows a raw string, given what follows its first letter. -/
def afterRawString? (text : List Char) : Option (List Char) :=
  let hashes := text.takeWhile (· = '#')
  match text.dropWhile (· = '#') with
  | '"' :: rest => afterRaw? ('"' :: hashes) rest
  | _ => none

/-- What follows a character between single quotes, given what follows the first quote. -/
def afterChar? : List Char → Option (List Char)
  | '\\' :: rest =>
    match afterEscape? rest with
    | some ('\'' :: rest) => some rest
    | _ => none
  | c :: '\'' :: rest => if c = '\'' then none else some rest
  | _ => none

end Terrain.FieldText
