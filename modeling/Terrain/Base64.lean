/-!
# Base64

Bytes are written in groups of three as four symbols of six bits each, and a last group that is
short is padded. Reading goes through the symbols from left to right and accepts exactly the written
forms: the padding must be there, it may stand only at the very end, and the bits of the last symbol
that belong to no byte must be zero.
-/

namespace Terrain.Base64

/-- The symbols of the numbers below 64. -/
def alphabet : Array Char :=
  "ABCDEFGHIJKLMNOPQRSTUVWXYZabcdefghijklmnopqrstuvwxyz0123456789+/".toList.toArray

def symbol (n : Nat) : Char := alphabet.getD (n % 64) 'A'

/-- What fills up a short group. -/
def padding : Char := '='

def value? (byte : UInt8) : Option Nat :=
  let n := byte.toNat
  if 65 ≤ n ∧ n ≤ 90 then some (n - 65)
  else if 97 ≤ n ∧ n ≤ 122 then some (n - 71)
  else if 48 ≤ n ∧ n ≤ 57 then some (n + 4)
  else if n = 43 then some 62
  else if n = 47 then some 63
  else none

def group (a b c : UInt8) : List Char :=
  [symbol (a.toNat / 4), symbol (a.toNat % 4 * 16 + b.toNat / 16),
    symbol (b.toNat % 16 * 4 + c.toNat / 64), symbol (c.toNat % 64)]

/-- Writes bytes behind symbols that are already written, which are held in reverse. -/
def encodeOnto (written : List Char) : List UInt8 → List Char
  | a :: b :: c :: rest => encodeOnto ((group a b c).reverse ++ written) rest
  | [a, b] => written.reverse ++ (group a b 0).take 3 ++ [padding]
  | [a] => written.reverse ++ (group a 0 0).take 2 ++ [padding, padding]
  | [] => written.reverse

def encode (bytes : List UInt8) : List Char := encodeOnto [] bytes

/-- Why a text is not the written form of any bytes. -/
inductive Fault where
  | invalidByte (offset : Nat) (byte : UInt8)
  | loneSymbol
  | invalidLastSymbol (offset : Nat) (byte : UInt8)
  | invalidPadding
  deriving DecidableEq, Repr

def Fault.message : Fault → String
  | .invalidByte offset byte => s!"Invalid byte {byte}, offset {offset}."
  | .loneSymbol => "Encoded text cannot have a 6-bit remainder."
  | .invalidLastSymbol offset byte => s!"Invalid last symbol {byte}, offset {offset}."
  | .invalidPadding => "Invalid padding"

def padByte : UInt8 := 61

/-- How far a reader has come: the number of bytes read, the last symbol, the paddings and the
place of the first of them, the bits that wait for a byte to be full, and the bytes so far in
reverse. -/
structure Reader where
  offset : Nat
  last : UInt8
  paddings : Nat
  firstPadding : Nat
  waiting : Nat
  waitingBits : Nat
  bytes : List UInt8

def Reader.start : Reader := ⟨0, 0, 0, 0, 0, 0, []⟩

/-- Takes six bits and gives off a byte when there is one. -/
def Reader.push (r : Reader) (value : Nat) : Reader :=
  let waiting := r.waiting * 64 + value
  let bits := r.waitingBits + 6
  if bits < 8 then { r with waiting := waiting, waitingBits := bits }
  else
    { r with
      waiting := waiting % (1 <<< (bits - 8))
      waitingBits := bits - 8
      bytes := UInt8.ofNat (waiting >>> (bits - 8)) :: r.bytes }

def Reader.step (r : Reader) (byte : UInt8) : Except Fault Reader :=
  if byte = padByte then
    let first := if r.paddings = 0 then r.offset else r.firstPadding
    if r.offset % 4 < 2 then .error (.invalidByte first byte)
    else .ok { r with offset := r.offset + 1, paddings := r.paddings + 1, firstPadding := first }
  else if 0 < r.paddings then .error (.invalidByte r.firstPadding padByte)
  else
    match value? byte with
    | none => .error (.invalidByte r.offset byte)
    | some value => .ok { r.push value with offset := r.offset + 1, last := byte }

/-- The bytes of a text that has been read to its end. -/
def Reader.finish (r : Reader) : Except Fault (List UInt8) :=
  if r.offset % 4 ≠ 0 then .error .invalidPadding
  else if r.waiting ≠ 0 then .error (.invalidLastSymbol (r.offset - r.paddings - 1) r.last)
  else .ok r.bytes.reverse

/-- What is wrong with a text whose last group has a single symbol. -/
def loneFault (text : List UInt8) : Fault :=
  match text.getLast? with
  | none => .loneSymbol
  | some byte =>
    if byte ≠ padByte ∧ (value? byte).isNone then .invalidByte (text.length - 1) byte
    else .loneSymbol

/-- Reads the bytes that a text writes. -/
def decode (text : List UInt8) : Except Fault (List UInt8) :=
  if text.length % 4 = 1 then .error (loneFault text)
  else do
    let r ← text.foldlM Reader.step Reader.start
    r.finish

end Terrain.Base64
