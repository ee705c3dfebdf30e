import Terrain.Number.Decimal

/-!
# Characters of a document

Three notions of a blank character meet in documents: that of markup, that of the encoded binary
data, which knows the form feed too, and that of text in any script, which is stripped before a
document starts.

In the text of a document a character may be written as `&name;`, with one of five names, or by its
number in base ten or sixteen. A text with any other reference has no value, and neither has one
where a reference is not finished.
-/

namespace Terrain.Markup

/-! ### Blanks -/

/-- A blank of markup: space, tab, line feed or carriage return. -/
def isBlank (c : Char) : Bool := c = ' ' || c = '\t' || c = '\n' || c = '\r'

/-- A blank of encoded data: one of markup, or a form feed. -/
def isDataBlank (c : Char) : Bool := isBlank c || c.toNat = 12

/-- A blank of text in any script. -/
def isSpace (c : Char) : Bool :=
  let n := c.toNat
  (9 ≤ n && n ≤ 13) || n = 32 || n = 133 || n = 160 || n = 5760 || (8192 ≤ n && n ≤ 8202) ||
    n = 8232 || n = 8233 || n = 8239 || n = 8287 || n = 12288

def trimStart (text : List Char) : List Char := text.dropWhile isBlank

def trimEnd (text : List Char) : List Char := (text.reverse.dropWhile isBlank).reverse

theorem isDataBlank_of_isBlank {c : Char} (h : isBlank c = true) : isDataBlank c = true := by
  simp [isDataBlank, h]

theorem isSpace_of_isBlank {c : Char} (h : isBlank c = true) : isSpace c = true := by
  simp only [isBlank, Bool.or_eq_true, decide_eq_true_eq] at h
  rcases h with ((rfl | rfl) | rfl) | rfl <;> decide

/-! ### References -/

/-- The number that at most `most` digits write; without digits it is zero. -/
def numberOf? (base most : Nat) (digits : List Char) : Option Nat :=
  if most < digits.length then none
  else Number.naturalIn? base digits

/-- The character with the given number, which is not zero. -/
def charOf? (n : Nat) : Option Char := if n ≠ 0 ∧ n.isValidChar then some (Char.ofNat n) else none

/-- The character that a reference stands for, given what is between `&` and `;`. -/
def entity? : List Char → Option Char
  | ['l', 't'] => some '<'
  | ['g', 't'] => some '>'
  | ['a', 'm', 'p'] => some '&'
  | ['a', 'p', 'o', 's'] => some '\''
  | ['q', 'u', 'o', 't'] => some '"'
  | '#' :: 'x' :: digits => (numberOf? 16 6 digits).bind charOf?
  | '#' :: digits => (numberOf? 10 7 digits).bind charOf?
  | _ => none

/-- How far a text has been expanded; both lists are kept last character first. -/
inductive Expansion where
  | plain (done : List Char)
  | reference (done name : List Char)
  | failed

def Expansion.step : Expansion → Char → Expansion
  | plain done, c => if c = '&' then reference done [] else plain (c :: done)
  | reference done name, c =>
    if c = ';' then
      match entity? name.reverse with
      | some c => plain (c :: done)
      | none => failed
    else if c = '&' then failed
    else reference done (c :: name)
  | failed, _ => failed

/-- The text with its references replaced, if it has a value. -/
def expand? (text : List Char) : Option (List Char) :=
  match text.foldl Expansion.step (.plain []) with
  | .plain done => some done.reverse
  | .reference .. | .failed => none

/-- Without references a text stands for itself. -/
theorem expand?_eq_self {text : List Char} (h : '&' ∉ text) : expand? text = some text := by
  have key : ∀ (text done : List Char), '&' ∉ text →
      text.foldl Expansion.step (.plain done) = .plain (text.reverse ++ done) := by
    intro text
    induction text with
    | nil => intro done _; rfl
    | cons c text ih =>
      intro done h
      rw [List.mem_cons, not_or] at h
      have hc : ¬c = '&' := fun e => h.1 e.symm
      simp [Expansion.step, hc, ih _ h.2]
  simp [expand?, key text [] h]

end Terrain.Markup
