import DocumentQuery.Text.Basic

/-!
# UTF-8

Encoding and decoding of texts.  Arguments reach a program as bytes that need not be UTF-8: each
byte that belongs to no well-formed sequence becomes the surrogate U+DC00 + byte.
`Text.restoredBytes` undoes this, so that byte offsets count the bytes that were typed.

Ill-formed input is cut as the Unicode standard recommends: `Utf8.next` yields a character, or the
longest run of bytes that begins some well-formed sequence without completing one.
-/

namespace DocumentQuery

namespace Utf8

/-- The bytes of a code point; a surrogate takes three, as any code point of its size would. -/
def encodeNat (n : Nat) : List UInt8 :=
  if n < 0x80 then [n.toUInt8]
  else if n < 0x800 then [(0xC0 + n / 0x40).toUInt8, (0x80 + n % 0x40).toUInt8]
  else if n < 0x10000 then
    [(0xE0 + n / 0x1000).toUInt8, (0x80 + n / 0x40 % 0x40).toUInt8, (0x80 + n % 0x40).toUInt8]
  else
    [(0xF0 + n / 0x40000).toUInt8, (0x80 + n / 0x1000 % 0x40).toUInt8,
      (0x80 + n / 0x40 % 0x40).toUInt8, (0x80 + n % 0x40).toUInt8]

/-- The bytes of a text, surrogates included. -/
def encode (t : Text) : List UInt8 :=
  t.flatMap fun c => encodeNat c.toNat

/-- What a lead byte announces: how many bytes follow it, and the least and greatest value of the
first of them.  A byte that leads no sequence announces nothing. -/
def lead? (b : UInt8) : Option (Nat × UInt8 × UInt8) :=
  if b < 0x80 then some (0, 0x80, 0xBF)
  else if b < 0xC2 then none
  else if b < 0xE0 then some (1, 0x80, 0xBF)
  else if b = 0xE0 then some (2, 0xA0, 0xBF)
  else if b = 0xED then some (2, 0x80, 0x9F)
  else if b < 0xF0 then some (2, 0x80, 0xBF)
  else if b = 0xF0 then some (3, 0x90, 0xBF)
  else if b < 0xF4 then some (3, 0x80, 0xBF)
  else if b = 0xF4 then some (3, 0x80, 0x8F)
  else none

/-- Why a run of bytes is no character. -/
inductive Fault where
  /-- The byte leads no sequence. -/
  | start
  /-- A byte that cannot follow stands where the sequence goes on. -/
  | continuation
  /-- The bytes end inside a sequence. -/
  | truncated
  deriving DecidableEq

/-- The first piece of a byte sequence. -/
inductive Piece where
  /-- A character and the number of its bytes. -/
  | char (c : CodePoint) (size : Nat)
  /-- A run of bytes, at least one, that is no character. -/
  | illFormed (fault : Fault) (size : Nat)
  deriving DecidableEq

/-- Adds `owed` following bytes to a sequence of value `n` whose first `size` bytes are known; the
next byte lies between `low` and `high`, any later one in the general range. -/
def follow (owed : Nat) (low high : UInt8) (n size : Nat) (bytes : List UInt8) : Piece :=
  match owed, bytes with
  | 0, _ => .char (.ofNat n) size
  | _ + 1, [] => .illFormed .truncated size
  | owed + 1, b :: rest =>
      if low ≤ b ∧ b ≤ high then
        follow owed 0x80 0xBF (n * 0x40 + b.toNat % 0x40) (size + 1) rest
      else .illFormed .continuation size

/-- The bits of a lead byte that belong to the code point. -/
def leadValue (owed : Nat) (b : UInt8) : Nat :=
  match owed with
  | 0 => b.toNat
  | 1 => b.toNat % 0x20
  | 2 => b.toNat % 0x10
  | _ => b.toNat % 0x08

/-- The first piece of the bytes `b :: rest`. -/
def next (b : UInt8) (rest : List UInt8) : Piece :=
  match lead? b with
  | none => .illFormed .start 1
  | some (owed, low, high) => follow owed low high (leadValue owed b) 1 rest

/-- The number of bytes in a piece. -/
def Piece.size : Piece → Nat
  | .char _ n => n
  | .illFormed _ n => n

/-- The pieces of a byte sequence, each with its bytes. -/
def pieces (bytes : List UInt8) : List (Piece × List UInt8) :=
  match bytes with
  | [] => []
  | b :: rest =>
      let piece := next b rest
      (piece, (b :: rest).take piece.size) :: pieces (rest.drop (piece.size - 1))
termination_by bytes.length
decreasing_by simp only [List.length_drop, List.length_cons]; omega

/-- Decoding in which every ill-formed run shows as one replacement character. -/
def decodeLossy (bytes : List UInt8) : Text :=
  (pieces bytes).map fun
    | (.char c _, _) => c
    | (.illFormed _ _, _) => .char '\uFFFD'

/-- The surrogate that stands for a byte which is not part of any character. -/
def escaped (b : UInt8) : CodePoint :=
  .ofNat (0xDC00 + b.toNat)

/-- Decoding in which every byte of an ill-formed run is kept as a surrogate. -/
def decodeEscaped (bytes : List UInt8) : Text :=
  (pieces bytes).flatMap fun
    | (.char c _, _) => [c]
    | (.illFormed _ _, run) => run.map escaped

/-- An ill-formed run in a byte sequence that has to be UTF-8. -/
structure DecodeError where
  fault : Fault
  first : UInt8
  offset : Nat
  size : Nat
  deriving DecidableEq

/-- The characters of the pieces that start at `offset`, or the first ill-formed one. -/
def charsOf (offset : Nat) : List (Piece × List UInt8) → Except DecodeError Text
  | [] => .ok []
  | (.char c size, _) :: rest => do
      let t ← charsOf (offset + size) rest
      return c :: t
  | (.illFormed fault size, run) :: _ => .error ⟨fault, run.headD 0, offset, size⟩

/-- Decoding of bytes that have to be UTF-8 throughout. -/
def decode (bytes : List UInt8) : Except DecodeError Text :=
  charsOf 0 (pieces bytes)

/-- A run of surrogates that cannot be encoded: its first code point, where it begins and how long
it is. -/
structure EncodeError where
  first : CodePoint
  offset : Nat
  size : Nat
  deriving DecidableEq

end Utf8

namespace Text

/-- The byte that a surrogate from U+DC80 to U+DCFF stands for. -/
def escapedByte? : CodePoint → Option UInt8
  | .surrogate d => if 0x480 ≤ d.val ∧ d.val < 0x500 then some (d.val - 0x400).toUInt8 else none
  | .char _ => none

/-- The code point is a character, or a surrogate that stands for a byte. -/
def isRestorable (c : CodePoint) : Bool :=
  !c.isSurrogate || (escapedByte? c).isSome

/-- The bytes a text was decoded from: UTF-8, with a byte for every surrogate that stands for one.
If some surrogate stands for no byte, then all surrogates are encoded as code points. -/
def restoredBytes (t : Text) : List UInt8 :=
  if t.all isRestorable then
    t.flatMap fun c =>
      match escapedByte? c with
      | some b => [b]
      | none => Utf8.encodeNat c.toNat
  else Utf8.encode t

/-- What keeps a text from being encoded if only the accepted code points can be: the surrogates
from the first one on that is not accepted. -/
def encodeError? (accepted : CodePoint → Bool) (t : Text) : Option Utf8.EncodeError :=
  let before := t.takeWhile accepted
  match t.drop before.length with
  | [] => none
  | c :: rest => some ⟨c, before.length, (rest.takeWhile CodePoint.isSurrogate).length + 1⟩

end Text

end DocumentQuery
