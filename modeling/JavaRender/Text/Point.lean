import JavaRender.Text.Digit
import JavaRender.Text.Utf8

/-!
Texts as code points. The escapes of a document can spell half a surrogate pair, which is no
character and has no place in UTF-8, and what is made of a document may hold it. Characters stand in
for the halves while it is made: it is made twice, with two of them for each half, and the code
points are read off where the two results differ. Nothing on the way asks for a character that
stands in, so the results have one length and differ in the halves only.
-/
namespace JavaRender

/-- The character that stands for half a surrogate pair, by its number. -/
abbrev StandIn := Nat → Char

namespace StandIn

def replacement : StandIn := fun _ => '\ufffd'

/-- A character of its own for each half, out of those for private use. -/
def own : StandIn := fun n => Char.ofNat (n + 0x800)

end StandIn

inductive Point where
  | char (c : Char)
  /-- Half a surrogate pair, by its number. -/
  | half (n : Nat)
deriving DecidableEq, Repr

namespace Point

def ofString (s : String) : List Point := s.toList.map char

/-- The code points of a text by its two readings, first with the replacement in the place of every
half, then with their own characters. -/
def ofReadings : List Char → List Char → List Point
  | c :: cs, d :: ds => (if c = d then char c else half (d.toNat - 0x800)) :: ofReadings cs ds
  | cs, _ => cs.map char

end Point

namespace Utf8

/-- The `length` code points from offset `start` on are halves of pairs; `first` is the first. -/
structure EncodeError where
  start : Nat
  length : Nat
  first : Nat
deriving DecidableEq, Repr

def EncodeError.text (e : EncodeError) : String :=
  let place := if e.length = 1 then
      "character '\\u" ++ String.ofList (Digit.padded 16 4 e.first) ++ "' in position " ++
        toString e.start
    else "characters in position " ++ toString e.start ++ "-" ++ toString (e.start + e.length - 1)
  "'utf-8' codec can't encode " ++ place ++ ": surrogates not allowed"

def leadingHalves : List Point → Nat
  | .half _ :: rest => leadingHalves rest + 1
  | _ => 0

def encodeFrom (offset : Nat) : List Point → Except EncodeError (List UInt8)
  | [] => .ok []
  | .char c :: rest => (String.utf8EncodeChar c ++ ·) <$> encodeFrom (offset + 1) rest
  | .half n :: rest => .error ⟨offset, leadingHalves rest + 1, n⟩

def encodePoints (ps : List Point) : Except EncodeError (List UInt8) := encodeFrom 0 ps

end Utf8

end JavaRender
