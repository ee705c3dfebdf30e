import Terrain.FieldText.Lexeme

/-!
# Values of unknown fields

The value of a field that nobody asks for is passed over. It may be a number, a literal, a list, a
map, a name, or a record or row of values in parentheses, with or without a name. The word `Some`
wraps one value in parentheses, and the value may stand bare where the text asks for that. Values
may be nested only so deep: a wrapped value uses up one level, and what stands in brackets uses up
two for each pair of them.
-/

namespace Terrain.FieldText

def valueWords : List (List Char) :=
  ["true", "false", "None", "()", "inf", "NaN"].map String.toList

def afterValueWord? (text : List Char) : Option (List Char) :=
  valueWords.findSome? fun word =>
    if word = "()".toList then after? word text else afterWord? word text

/-- Whether a number in front of the text goes on behind the characters of an integer. -/
def isReal (text : List Char) : Bool :=
  let magnitude := (Number.splitSign text).2
  (magnitude.takeWhile isIntegerChar).length < (magnitude.takeWhile isFractionChar).length

/-- Whether an integer has at most 64 bits, one of them for the sign if a sign is written. -/
def isWord64 (signed negative : Bool) (n : Nat) : Bool :=
  if !signed then n < 1 <<< 64 else if negative then n ≤ 1 <<< 63 else n < 1 <<< 63

def afterInteger? (text : List Char) : Option (List Char) :=
  let (negative, magnitude) := Number.splitSign text
  let signed := decide (magnitude.length < text.length)
  ((natural? magnitude).filter fun (n, _) => isWord64 signed negative n).map Prod.snd

/-- What follows a number with a fraction or an exponent. -/
def afterReal? (text : List Char) : Option (List Char) :=
  (real? Number.readDouble? text).map Prod.snd

/-- What follows a number. What is no integer of at most 64 bits is read as a number with a fraction
or an exponent. -/
def afterNumber? (text : List Char) : Option (List Char) :=
  if isReal text then afterReal? text
  else
    match afterInteger? text with
    | some rest => some rest
    | none => afterReal? text

/-- Whether what follows an opening parenthesis is a record: a name and a colon. Nothing is told
where the text ends after the name. -/
def isRecord? (text : List Char) : Option Bool := do
  match name? (← skipBlanks text) with
  | none => pure false
  | some (_, rest) =>
    match ← skipBlanks rest with
    | c :: _ => pure (c = ':')
    | [] => none

/-- The shapes of a row of values. -/
inductive Row where
  | values
  | named
  | keyed
  deriving DecidableEq, Repr

def lower? : Nat → Option Nat
  | 0 => none
  | levels + 1 => some levels

mutual

/-- What follows a value, given how many levels of nesting are left and whether wrapped values may
be bare. -/
def afterValue? (bare : Bool) : Nat → Nat → List Char → Option (List Char)
  | 0, _, _ => none
  | fuel + 1, levels, text =>
    match afterValueWord? text with
    | some rest => some rest
    | none =>
      match afterWord? "Some".toList text with
      | some rest => (skipBlanks rest).bind (afterWrapped? bare fuel levels)
      | none =>
        match name? text with
        | some (_, rest) =>
          match skipBlanks rest with
          | some ('(' :: rest) => afterParenthesis? bare fuel levels rest
          | rest => rest
        | none =>
          match text with
          | '(' :: rest => afterParenthesis? bare fuel levels rest
          | '[' :: rest =>
            (lower? levels).bind fun levels => afterRow? bare fuel levels .values ']' true rest
          | '\x7b' :: rest =>
            (lower? levels).bind fun levels => afterRow? bare fuel levels .keyed '\x7d' true rest
          | '"' :: rest => afterString? rest
          | 'r' :: rest => afterRawString? rest
          | '\'' :: rest => afterChar? rest
          | '.' :: _ => afterReal? text
          | c :: _ => if Number.isDigit c || c = '+' || c = '-' then afterNumber? text else none
          | [] => none

/-- What follows a wrapped value, given what follows its word. One comma may follow the value inside
of the parentheses. -/
def afterWrapped? (bare : Bool) : Nat → Nat → List Char → Option (List Char)
  | 0, _, _ => none
  | fuel + 1, levels, text =>
    (lower? levels).bind fun levels =>
      match text with
      | '(' :: rest =>
        (((skipBlanks rest).bind (afterValue? bare fuel levels)).bind comma?).bind fun (_, rest) =>
          after? [')'] rest
      | text => if bare then afterValue? bare fuel levels text else none

/-- What follows a record or a row of values, given what follows its opening parenthesis. -/
def afterParenthesis? (bare : Bool) : Nat → Nat → List Char → Option (List Char)
  | 0, _, _ => none
  | fuel + 1, levels, text =>
    (isRecord? text).bind fun record =>
      (lower? levels).bind fun levels =>
        afterRow? bare fuel levels (if record then .named else .values) ')' true text

/-- What follows the closing bracket of a row. Values are parted by commas, and one more comma may
come last. -/
def afterRow? (bare : Bool) : Nat → Nat → Row → Char → Bool → List Char → Option (List Char)
  | 0, _, _, _, _, _ => none
  | fuel + 1, levels, row, close, separated, text =>
    match skipBlanks text with
    | none | some [] => none
    | some (c :: rest) =>
      if c = close then some rest
      else if !separated then none
      else
        match lower? levels with
        | none => none
        | some inner =>
          let key :=
            match row with
            | .values => some (c :: rest)
            | .named => ((name? (c :: rest)).bind fun (_, rest) => skipBlanks rest).bind (after? [':'])
            | .keyed =>
              ((afterValue? bare fuel inner (c :: rest)).bind skipBlanks).bind (after? [':'])
          match (key.bind skipBlanks).bind (afterValue? bare fuel inner) with
          | none => none
          | some rest =>
            match comma? rest with
            | none => none
            | some (separated, rest) => afterRow? bare fuel levels row close separated rest

end

/-- What follows a value in front of a text, given how many levels of nesting are left and whether
wrapped values may be bare. -/
def skipValue? (bare : Bool) (levels : Nat) (text : List Char) : Option (List Char) :=
  afterValue? bare (3 * text.length + 3) levels text

end Terrain.FieldText
