/-!
UTF-8. Decoding stops at the first ill-formed sequence and names the reason and the bytes at fault:
the longest part that could still have begun a character.
-/
namespace JavaRender.Utf8

inductive Problem where
  | startByte
  | continuationByte
  | truncated
deriving DecidableEq, Repr

def Problem.reason : Problem → String
  | .startByte => "invalid start byte"
  | .continuationByte => "invalid continuation byte"
  | .truncated => "unexpected end of data"

/-- The `length` bytes from offset `start` on begin no character; `first` is the first of them. -/
structure Error where
  problem : Problem
  start : Nat
  length : Nat
  first : UInt8
deriving DecidableEq, Repr

/-- A character of which some bytes are still to come: their number, the bits read so far and the
bounds of the next byte. -/
structure Pending where
  more : Nat
  bits : Nat
  low : UInt8
  high : UInt8
  start : Nat
  first : UInt8

/-- What a first byte of a longer sequence announces; overlong forms, surrogates and numbers beyond
the last code point are ruled out by the bounds of the second byte. -/
def lead? (offset : Nat) (b : UInt8) : Option Pending :=
  if b < 0xC2 then none
  else if b < 0xE0 then some ⟨1, b.toNat - 0xC0, 0x80, 0xBF, offset, b⟩
  else if b < 0xF0 then
    some ⟨2, b.toNat - 0xE0, if b = 0xE0 then 0xA0 else 0x80, if b = 0xED then 0x9F else 0xBF,
      offset, b⟩
  else if b < 0xF5 then
    some ⟨3, b.toNat - 0xF0, if b = 0xF0 then 0x90 else 0x80, if b = 0xF4 then 0x8F else 0xBF,
      offset, b⟩
  else none

mutual

def decodeFrom (offset : Nat) : List UInt8 → Except Error (List Char)
  | [] => .ok []
  | b :: rest =>
    if b < 0x80 then (Char.ofNat b.toNat :: ·) <$> decodeFrom (offset + 1) rest
    else match lead? offset b with
      | none => .error ⟨.startByte, offset, 1, b⟩
      | some p => resume (offset + 1) p rest

def resume (offset : Nat) (p : Pending) : List UInt8 → Except Error (List Char)
  | [] => .error ⟨.truncated, p.start, offset - p.start, p.first⟩
  | b :: rest =>
    if p.low ≤ b && b ≤ p.high then
      let bits := 64 * p.bits + (b.toNat - 0x80)
      if p.more ≤ 1 then (Char.ofNat bits :: ·) <$> decodeFrom (offset + 1) rest
      else resume (offset + 1) ⟨p.more - 1, bits, 0x80, 0xBF, p.start, p.first⟩ rest
    else .error ⟨.continuationByte, p.start, offset - p.start, p.first⟩

end

def decode (bs : List UInt8) : Except Error (List Char) := decodeFrom 0 bs

def mark : List UInt8 := [0xEF, 0xBB, 0xBF]

/-- Decodes a file that may begin with a byte order mark, which is dropped once. Bytes that only
begin the mark are an empty text. Offsets of errors count from behind the mark. -/
def decodeMarked (bs : List UInt8) : Except Error (List Char) :=
  if bs.length < 3 && bs.isPrefixOf mark then .ok []
  else if mark.isPrefixOf bs then decode (bs.drop 3)
  else decode bs

def encode (cs : List Char) : List UInt8 := cs.flatMap String.utf8EncodeChar

end JavaRender.Utf8
