import JavaRender.Json.Basic
import JavaRender.Text.Line
import JavaRender.Text.Point

/-!
Reading a document. Scanners take the characters still to be read and give back what is left; a
fault is placed by the number of characters left at it. Brackets may nest a thousand deep.
-/
namespace JavaRender.Json

/-- How numbers are read: digit by digit, or as whole numbers and doubles. -/
inductive NumberStyle where
  | exact
  | native
deriving DecidableEq, Repr

inductive Bracket where
  | array
  | object
deriving DecidableEq, Repr

inductive Flaw where
  | byteOrderMark
  | value
  | name
  | colon
  | comma
  | extraData
  | unterminatedString
  | controlCharacter
  | escape
  | hexEscape
deriving DecidableEq, Repr

def Flaw.message : Flaw → String
  | .byteOrderMark => "Unexpected UTF-8 BOM (decode using utf-8-sig)"
  | .value => "Expecting value"
  | .name => "Expecting property name enclosed in double quotes"
  | .colon => "Expecting ':' delimiter"
  | .comma => "Expecting ',' delimiter"
  | .extraData => "Extra data"
  | .unterminatedString => "Unterminated string starting at"
  | .controlCharacter => "Invalid control character at"
  | .escape => "Invalid \\escape"
  | .hexEscape => "Invalid \\uXXXX escape"

/-- Why a document cannot be read; `left` counts the characters from the fault to the end. -/
inductive Fault where
  | flawed (flaw : Flaw) (left : Nat)
  | tooDeep (bracket : Bracket)
  | numberRange
  | tooManyDigits (count : Nat)
deriving DecidableEq, Repr

def tooDeepMessage (bracket : Bracket) : String :=
  "maximum recursion depth exceeded while decoding a JSON " ++
    (match bracket with
      | .array => "array"
      | .object => "object") ++ " from a unicode string"

abbrev Result := Except Fault

def isBlank (c : Char) : Bool := c = ' ' || c = '\t' || c = '\n' || c = '\r'

def skipBlanks (cs : List Char) : List Char := cs.dropWhile isBlank

def simpleEscape? (c : Char) : Option Char :=
  if c = '"' || c = '\\' || c = '/' then some c
  else if c = 'b' then some '\x08'
  else if c = 'f' then some '\x0c'
  else if c = 'n' then some '\n'
  else if c = 'r' then some '\r'
  else if c = 't' then some '\t'
  else none

def isHighSurrogate (n : Nat) : Bool := 0xD800 ≤ n && n < 0xDC00

def isLowSurrogate (n : Nat) : Bool := 0xDC00 ≤ n && n < 0xE000

def unitChar (half : StandIn) (n : Nat) : Char :=
  if isHighSurrogate n || isLowSurrogate n then half n else Char.ofNat n

def pairChar (high low : Nat) : Char :=
  Char.ofNat (0x10000 + 0x400 * (high - 0xD800) + (low - 0xDC00))

/-- The code unit of four hexadecimal digits, with the unit behind it when both make a pair. Some
character has to follow an escape, for the string is not closed yet. -/
def scanUnits (hex tail : List Char) : Result (Nat × Option Nat) :=
  match Digit.hexNumber? hex with
  | none => .error (.flawed .hexEscape (tail.length + 5))
  | some n =>
    match tail with
    | [] => .error (.flawed .hexEscape (tail.length + 5))
    | '\\' :: 'u' :: e :: f :: g :: h :: more =>
      if isHighSurrogate n && !more.isEmpty then
        match Digit.hexNumber? [e, f, g, h] with
        | none => .error (.flawed .hexEscape (more.length + 5))
        | some low => .ok (n, if isLowSurrogate low then some low else none)
      else .ok (n, none)
    | _ => .ok (n, none)

def push (c : Char) (result : Result (List Char × List Char)) : Result (List Char × List Char) :=
  result.map fun (cs, left) => (c :: cs, left)

/-- The rest of a string behind its opening mark; `start` is the text from that mark on. -/
def scanString (half : StandIn) (start : List Char) :
    List Char → Result (List Char × List Char)
  | [] => .error (.flawed .unterminatedString start.length)
  | '"' :: rest => .ok ([], rest)
  | '\\' :: rest =>
    match rest with
    | [] => .error (.flawed .unterminatedString start.length)
    | 'u' :: a :: b :: c :: d :: tail =>
      match scanUnits [a, b, c, d] tail with
      | .error fault => .error fault
      | .ok (n, none) => push (unitChar half n) (scanString half start tail)
      | .ok (n, some low) =>
        match tail with
        | _ :: _ :: _ :: _ :: _ :: _ :: more => push (pairChar n low) (scanString half start more)
        | _ => .error (.flawed .hexEscape (tail.length + 5))
    | 'u' :: tail => .error (.flawed .hexEscape (tail.length + 1))
    | c :: tail =>
      match simpleEscape? c with
      | none => .error (.flawed .escape (tail.length + 2))
      | some x => push x (scanString half start tail)
  | c :: rest =>
    if c.toNat < 0x20 then .error (.flawed .controlCharacter (rest.length + 1))
    else push c (scanString half start rest)

structure Numeral where
  chars : List Char
  isWhole : Bool
  left : List Char

def scanPlaces (cs : List Char) : List Char × List Char :=
  match cs with
  | '.' :: rest =>
    let ds := rest.takeWhile Char.isDigit
    if ds.isEmpty then ([], cs) else ('.' :: ds, rest.dropWhile Char.isDigit)
  | _ => ([], cs)

def scanExponent (cs : List Char) : List Char × List Char :=
  match cs with
  | [] => ([], cs)
  | c :: rest =>
    if c = 'e' || c = 'E' then
      let (sign, body) := match rest with
        | '+' :: body => (['+'], body)
        | '-' :: body => (['-'], body)
        | body => ([], body)
      let ds := body.takeWhile Char.isDigit
      if ds.isEmpty then ([], cs) else (c :: sign ++ ds, body.dropWhile Char.isDigit)
    else ([], cs)

/-- The longest numeral at the front: no zero before further digits, a point only between digits. -/
def scanNumeral? (cs : List Char) : Option Numeral :=
  let (sign, body) := match cs with
    | '-' :: body => (['-'], body)
    | body => ([], body)
  match body with
  | [] => none
  | c :: rest =>
    if c.isDigit then
      let (front, left) := if c = '0' then (['0'], rest)
        else (c :: rest.takeWhile Char.isDigit, rest.dropWhile Char.isDigit)
      let (places, left) := scanPlaces left
      let (exponent, left) := scanExponent left
      some ⟨sign ++ front ++ places ++ exponent, places.isEmpty && exponent.isEmpty, left⟩
    else none

def ofNumeral (style : NumberStyle) (numeral : Numeral) : Result Json :=
  match style with
  | .exact =>
    match Decimal.readAscii? numeral.chars with
    | some (.finite d) => .ok (.number d)
    | _ => .error .numberRange
  | .native =>
    if numeral.isWhole then
      let (negative, ds) := Decimal.readSign numeral.chars
      if Whole.maxDigits < ds.length then .error (.tooManyDigits ds.length)
      else .ok (.whole (Decimal.toInt ⟨negative, Nat.ofDigitChars 10 ds 0, 0⟩))
    else .ok (.double ((Binary64.read? numeral.chars).getD .nan))

def words : List (String × Json) :=
  [("null", .null), ("true", .boolean true), ("false", .boolean false), ("NaN", .double .nan),
    ("Infinity", .double (.infinity false)), ("-Infinity", .double (.infinity true))]

def scanWord? (cs : List Char) : Option (Json × List Char) :=
  words.findSome? fun (word, v) =>
    if word.toList.isPrefixOf cs then some (v, cs.drop word.length) else none

def scanScalar (style : NumberStyle) (cs : List Char) : Result (Json × List Char) :=
  match scanWord? cs with
  | some found => .ok found
  | none =>
    match scanNumeral? cs with
    | none => .error (.flawed .value cs.length)
    | some numeral => (ofNumeral style numeral).map (·, numeral.left)

/-- Items up to the closing bracket, at least one. Each takes a character, so `fuel` of the number
of characters is never used up. -/
def scanItems (item : List Char → Result (Json × List Char)) :
    Nat → List Char → Result (List Json × List Char)
  | 0, cs => .error (.flawed .value cs.length)
  | fuel + 1, cs => do
    let (v, left) ← item cs
    match skipBlanks left with
    | ']' :: left => .ok ([v], left)
    | ',' :: left => do
      let (vs, left) ← scanItems item fuel (skipBlanks left)
      .ok (v :: vs, left)
    | left => .error (.flawed .comma left.length)

def scanArray (item : List Char → Result (Json × List Char)) (fuel : Nat) (cs : List Char) :
    Result (Json × List Char) :=
  match skipBlanks cs with
  | ']' :: left => .ok (.array [], left)
  | left => do
    let (vs, left) ← scanItems item fuel left
    .ok (.array vs, left)

def scanMember (half : StandIn) (item : List Char → Result (Json × List Char))
    (cs : List Char) : Result ((String × Json) × List Char) :=
  match cs with
  | '"' :: rest => do
    let (name, left) ← scanString half cs rest
    match skipBlanks left with
    | ':' :: left => do
      let (v, left) ← item (skipBlanks left)
      .ok ((String.ofList name, v), left)
    | left => .error (.flawed .colon left.length)
  | _ => .error (.flawed .name cs.length)

/-- Members up to the closing brace, at least one; `fuel` as for items. -/
def scanMembers (half : StandIn) (item : List Char → Result (Json × List Char)) :
    Nat → List Char → Result (List (String × Json) × List Char)
  | 0, cs => .error (.flawed .name cs.length)
  | fuel + 1, cs => do
    let (m, left) ← scanMember half item cs
    match skipBlanks left with
    | '}' :: left => .ok ([m], left)
    | ',' :: left => do
      let (ms, left) ← scanMembers half item fuel (skipBlanks left)
      .ok (m :: ms, left)
    | left => .error (.flawed .comma left.length)

def scanObject (half : StandIn) (item : List Char → Result (Json × List Char)) (fuel : Nat)
    (cs : List Char) : Result (Json × List Char) :=
  match skipBlanks cs with
  | '}' :: left => .ok (.object [], left)
  | left => do
    let (ms, left) ← scanMembers half item fuel left
    .ok (.object ms, left)

/-- One value, in which brackets may nest `depth` deep and hold fewer than `fuel` values. -/
def scanValue (half : StandIn) (style : NumberStyle) (fuel : Nat) :
    Nat → List Char → Result (Json × List Char)
  | depth, cs =>
    match cs with
    | '"' :: rest =>
      (scanString half cs rest).map fun (s, left) => (.string (String.ofList s), left)
    | '[' :: rest =>
      match depth with
      | 0 => .error (.tooDeep .array)
      | depth + 1 => scanArray (scanValue half style fuel depth) fuel rest
    | '{' :: rest =>
      match depth with
      | 0 => .error (.tooDeep .object)
      | depth + 1 => scanObject half (scanValue half style fuel depth) fuel rest
    | cs => scanScalar style cs

def maxDepth : Nat := 1000

def read (style : NumberStyle) (cs : List Char) (half : StandIn := .replacement) :
    Result Json :=
  if cs.head? = some '\ufeff' then .error (.flawed .byteOrderMark cs.length)
  else do
    let (v, left) ← scanValue half style (cs.length + 1) maxDepth (skipBlanks cs)
    match skipBlanks left with
    | [] => .ok v
    | left => .error (.flawed .extraData left.length)

def Fault.message (cs : List Char) : Fault → String
  | .flawed flaw left =>
    let offset := cs.length - left
    let place := Line.locate cs offset
    flaw.message ++ ": line " ++ toString place.line ++ " column " ++ toString place.column ++
      " (char " ++ toString offset ++ ")"
  | .tooDeep bracket => tooDeepMessage bracket
  | .numberRange => Decimal.invalidMessage
  | .tooManyDigits count => Whole.longNumeralMessage count

end JavaRender.Json
