import JavaRender.Text.Digit
import JavaRender.Text.Printable

/-!
Texts and bytes quoted for a message. A text takes apostrophes unless it holds an apostrophe and no
quotation mark; what cannot be shown becomes a hexadecimal escape of two, four or eight digits.
-/
namespace JavaRender.Quoted

/-- The mark around a text: the quotation mark only where that saves an escape. -/
def mark (cs : List Char) : Char :=
  if cs.contains '\'' && !cs.contains '"' then '"' else '\''

def hexEscape (n : Nat) : List Char :=
  if n ≤ 0xFF then '\\' :: 'x' :: Digit.padded 16 2 n
  else if n ≤ 0xFFFF then '\\' :: 'u' :: Digit.padded 16 4 n
  else '\\' :: 'U' :: Digit.padded 16 8 n

def escapeChar (quote c : Char) : List Char :=
  if c = quote || c = '\\' then ['\\', c]
  else if c = '\n' then ['\\', 'n']
  else if c = '\r' then ['\\', 'r']
  else if c = '\t' then ['\\', 't']
  else if Printable.isPrintable c then [c]
  else hexEscape c.toNat

def chars (cs : List Char) : List Char :=
  let quote := mark cs
  quote :: cs.flatMap (escapeChar quote) ++ [quote]

def text (s : String) : String := String.ofList (chars s.toList)

def escapeByte (quote : Char) (b : UInt8) : List Char :=
  let c := Char.ofNat b.toNat
  if b < 0x80 then escapeChar quote c else hexEscape b.toNat

def bytes (bs : List UInt8) : String :=
  let quote := mark (bs.map fun b => Char.ofNat b.toNat)
  String.ofList ('b' :: quote :: bs.flatMap (escapeByte quote) ++ [quote])

end JavaRender.Quoted
