/-!
UTF-8. Writing is the standard encoding of each character. Reading is a machine that takes one
byte at a time and never fails: a byte that cannot extend the character begun, together with the
bytes read of it, counts as one replacement character, and the byte is then read afresh. So every
maximal ill-formed piece becomes one U+FFFD.
-/
namespace LineShell

/-- A sequence of bytes: file contents and what streams carry. -/
abbrev Bytes := List UInt8

namespace Text

/-- The UTF-8 form of a text. -/
def encode (cs : List Char) : Bytes := cs.flatMap String.utf8EncodeChar

/-- The UTF-8 form of a string. -/
def bytes (s : String) : Bytes := encode s.toList

/-- Stands for a piece of input that is not UTF-8. -/
def replacement : Char := Char.ofNat 0xFFFD

/-- A character of several bytes, begun: how many bytes are owed, between which bounds the next
one lies, and the bits read so far. -/
structure Pending where
  owed : Nat
  low : UInt8
  high : UInt8
  bits : Nat
  deriving Repr, DecidableEq

/-- What a byte means between characters. -/
inductive Lead where
  | whole (c : Char)
  | begins (p : Pending)
  | stray
  deriving Repr, DecidableEq

/-- Reads a byte between characters. The bounds on the second byte rule out overlong forms,
surrogates and values above U+10FFFF. -/
def lead (b : UInt8) : Lead :=
  let n := b.toNat
  if n < 0x80 then .whole (Char.ofNat n)
  else if n < 0xC2 then .stray
  else if n < 0xE0 then .begins ⟨1, 0x80, 0xBF, n - 0xC0⟩
  else if n == 0xE0 then .begins ⟨2, 0xA0, 0xBF, 0⟩
  else if n == 0xED then .begins ⟨2, 0x80, 0x9F, 0xD⟩
  else if n < 0xF0 then .begins ⟨2, 0x80, 0xBF, n - 0xE0⟩
  else if n == 0xF0 then .begins ⟨3, 0x90, 0xBF, 0⟩
  else if n < 0xF4 then .begins ⟨3, 0x80, 0xBF, n - 0xF0⟩
  else if n == 0xF4 then .begins ⟨3, 0x80, 0x8F, 4⟩
  else .stray

/-- The machine between two bytes: the characters read, latest first, and the one begun. -/
structure Reading where
  done : List Char := []
  pending : Option Pending := none
  deriving Repr, DecidableEq

/-- Reads a byte between characters. -/
def Reading.start (done : List Char) (b : UInt8) : Reading :=
  match lead b with
  | .whole c => ⟨c :: done, none⟩
  | .begins p => ⟨done, some p⟩
  | .stray => ⟨replacement :: done, none⟩

/-- Reads one byte. -/
def Reading.feed (r : Reading) (b : UInt8) : Reading :=
  match r.pending with
  | none => .start r.done b
  | some p =>
    if p.low ≤ b && b ≤ p.high then
      let bits := p.bits * 64 + (b.toNat - 0x80)
      if p.owed == 1 then ⟨Char.ofNat bits :: r.done, none⟩
      else ⟨r.done, some ⟨p.owed - 1, 0x80, 0xBF, bits⟩⟩
    else .start (replacement :: r.done) b

/-- The characters read once the input has ended; a character left unfinished is ill-formed. -/
def Reading.finish (r : Reading) : List Char :=
  match r.pending with
  | none => r.done.reverse
  | some _ => (replacement :: r.done).reverse

/-- The text of any bytes, with U+FFFD for each ill-formed piece. -/
def decodeLossy (bs : Bytes) : List Char := (bs.foldl Reading.feed {}).finish

/-- The text of bytes that are UTF-8, and nothing for other bytes. -/
def decode? (bs : Bytes) : Option (List Char) :=
  let cs := decodeLossy bs
  if encode cs = bs then some cs else none

/-- The string of any bytes, with U+FFFD for each ill-formed piece. -/
def stringLossy (bs : Bytes) : String := String.ofList (decodeLossy bs)

end Text

end LineShell
