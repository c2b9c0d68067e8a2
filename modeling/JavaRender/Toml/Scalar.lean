import JavaRender.Toml.Fault
import JavaRender.Toml.Value

/-!
Scalars and keys of a configuration document. Scanners take the characters still to be read and give
back what is left. Numbers and dates are the longest match of their pattern, and what follows them
is looked at later.
-/
namespace JavaRender.Toml

def isBlank (c : Char) : Bool := c = ' ' || c = '\t'

def isBlankOrLineEnd (c : Char) : Bool := isBlank c || c = '\n'

def skipBlanks (cs : List Char) : List Char := cs.dropWhile isBlank

def isControl (c : Char) : Bool := (c.toNat < 0x20 || c.toNat = 0x7F) && c ≠ '\t'

def isIllegal (multiline : Bool) (c : Char) : Bool := isControl c && !(multiline && c = '\n')

def checkStretch (multiline : Bool) (stretch left : List Char) : Result Unit :=
  match stretch.dropWhile (!isIllegal multiline ·) with
  | [] => .ok ()
  | c :: rest => .error (.flawed (.invalidCharacter c) (rest.length + 1 + left.length))

def skipComment (cs : List Char) : Result (List Char) :=
  match cs with
  | '#' :: rest => do
    let left := rest.dropWhile (· ≠ '\n')
    checkStretch false (rest.takeWhile (· ≠ '\n')) left
    .ok left
  | _ => .ok cs

def splitAtMark? (mark : List Char) : List Char → Option (List Char × List Char)
  | [] => none
  | c :: rest =>
    if mark.isPrefixOf (c :: rest) then some ([], (c :: rest).drop mark.length)
    else (splitAtMark? mark rest).map fun (before, after) => (c :: before, after)

def scanLiteral (multiline : Bool) (mark : List Char) (cs : List Char) :
    Result (List Char × List Char) :=
  match splitAtMark? mark cs with
  | none => .error (.flawed (.unclosedLiteral (String.ofList mark)) 0)
  | some (before, after) => do
    checkStretch multiline before (mark ++ after)
    .ok (before, after)

def simpleEscape? (c : Char) : Option Char :=
  if c = 'b' then some '\x08'
  else if c = 't' then some '\t'
  else if c = 'n' then some '\n'
  else if c = 'f' then some '\x0c'
  else if c = 'r' then some '\r'
  else if c = '"' || c = '\\' then some c
  else none

def hexChar (hex left : List Char) : Result Char :=
  match Digit.hexNumber? hex with
  | none => .error (.flawed .hexEscape (hex.length + left.length))
  | some n =>
    if h : n.isValidChar then .ok (Char.ofNatAux n h) else .error (.flawed .notScalar left.length)

/-- Where a text stands in a break of a line: outside, before the end of the line, or behind it. -/
inductive LineBreak where
  | outside
  | before
  | behind
deriving DecidableEq, Repr

def push (c : Char) (result : Result (List Char × List Char)) : Result (List Char × List Char) :=
  result.map fun (cs, left) => (c :: cs, left)

/-- A text with escapes, behind its opening mark. In a text of several lines a backslash at the end
of a line swallows all blanks and line ends up to the next character. -/
def scanBasic (multiline : Bool) : LineBreak → List Char → Result (List Char × List Char)
  | _, [] => .error (.flawed .unterminated 0)
  | .before, c :: rest =>
    if isBlank c then scanBasic multiline .before rest
    else if c = '\n' then scanBasic multiline .behind rest
    else .error (.flawed .escape (rest.length + 1))
  | _, '\\' :: rest =>
    match rest with
    | 'u' :: a :: b :: c :: d :: tail => do
      let x ← hexChar [a, b, c, d] tail
      push x (scanBasic multiline .outside tail)
    | 'U' :: a :: b :: c :: d :: e :: f :: g :: h :: tail => do
      let x ← hexChar [a, b, c, d, e, f, g, h] tail
      push x (scanBasic multiline .outside tail)
    | c :: tail =>
      if multiline && isBlank c then scanBasic multiline .before tail
      else if multiline && c = '\n' then scanBasic multiline .behind tail
      else if c = 'u' || c = 'U' then .error (.flawed .hexEscape tail.length)
      else match simpleEscape? c with
        | some x => push x (scanBasic multiline .outside tail)
        | none => .error (.flawed .escape tail.length)
    | [] => .error (.flawed .escape 0)
  | _, '"' :: rest =>
    if !multiline then .ok ([], rest)
    else match rest with
      | '"' :: '"' :: tail => .ok ([], tail)
      | _ => push '"' (scanBasic multiline .outside rest)
  | gap, c :: rest =>
    if gap = .behind && isBlankOrLineEnd c then scanBasic multiline .behind rest
    else if isIllegal multiline c then .error (.flawed (.illegalCharacter c) (rest.length + 1))
    else push c (scanBasic multiline .outside rest)

/-- Up to two more quotes belong to a text that three of them closed. -/
def closeQuotes (quote : Char) (text left : List Char) : List Char × List Char :=
  match left with
  | a :: b :: rest =>
    if a = quote && b = quote then (text ++ [quote, quote], rest)
    else if a = quote then (text ++ [quote], b :: rest)
    else (text, left)
  | [a] => if a = quote then (text ++ [quote], []) else (text, left)
  | [] => (text, left)

def dropFirstLineEnd (cs : List Char) : List Char :=
  match cs with
  | '\n' :: rest => rest
  | _ => cs

def isBare (c : Char) : Bool := c.isAlphanum || c = '-' || c = '_'

def scanKeyPart (cs : List Char) : Result (String × List Char) :=
  match cs with
  | '\'' :: rest => do
    let (s, left) ← scanLiteral false ['\''] rest
    .ok (String.ofList s, left)
  | '"' :: rest => do
    let (s, left) ← scanBasic false .outside rest
    .ok (String.ofList s, left)
  | c :: _ =>
    if isBare c then .ok (String.ofList (cs.takeWhile isBare), cs.dropWhile isBare)
    else .error (.flawed .keyStart cs.length)
  | [] => .error (.flawed .keyStart 0)

def scanKey : Nat → List Char → Result (Key × List Char)
  | 0, cs => .error (.flawed .keyStart cs.length)
  | fuel + 1, cs => do
    let (name, left) ← scanKeyPart cs
    match skipBlanks left with
    | '.' :: rest => do
      let (names, left) ← scanKey fuel (skipBlanks rest)
      .ok (name :: names, left)
    | left => .ok ([name], left)

def two? (low high : Nat) (cs : List Char) : Option (Nat × List Char) :=
  match cs with
  | a :: b :: rest =>
    if a.isDigit && b.isDigit then
      let n := Nat.ofDigitChars 10 [a, b] 0
      if low ≤ n && n ≤ high then some (n, rest) else none
    else none
  | _ => none

def after? (c : Char) (cs : List Char) : Option (List Char) :=
  match cs with
  | d :: rest => if d = c then some rest else none
  | [] => none

def scanMicros (cs : List Char) : Nat × List Char :=
  match cs with
  | '.' :: rest =>
    let ds := rest.takeWhile Char.isDigit
    if ds.isEmpty then (0, cs)
    else
      let six := ds.take 6
      (Nat.ofDigitChars 10 (six ++ List.replicate (6 - six.length) '0') 0,
        rest.dropWhile Char.isDigit)
  | _ => (0, cs)

def scanTime? (cs : List Char) : Option (Time × List Char) := do
  let (hour, cs) ← two? 0 23 cs
  let (minute, cs) ← two? 0 59 (← after? ':' cs)
  let (second, cs) ← two? 0 59 (← after? ':' cs)
  let (micros, cs) := scanMicros cs
  some (⟨hour, minute, second, micros⟩, cs)

def scanDate? (cs : List Char) : Option (Date × List Char) := do
  let year := cs.take 4
  if year.length = 4 && year.all Char.isDigit then
    let (month, cs) ← two? 1 12 (← after? '-' (cs.drop 4))
    let (day, cs) ← two? 1 31 (← after? '-' cs)
    some (⟨Nat.ofDigitChars 10 year 0, month, day⟩, cs)
  else none

def scanOffset? (cs : List Char) : Option (Nat × List Char) := do
  let (hours, cs) ← two? 0 23 cs
  let (minutes, cs) ← two? 0 59 (← after? ':' cs)
  some (60 * hours + minutes, cs)

def scanZone (cs : List Char) : Option Int × List Char :=
  match cs with
  | c :: rest =>
    if c = 'Z' || c = 'z' then (some 0, rest)
    else if c = '+' || c = '-' then
      match scanOffset? rest with
      | some (minutes, left) => (some (if c = '-' then -(minutes : Int) else minutes), left)
      | none => (none, cs)
    else (none, cs)
  | [] => (none, cs)

def scanDateValue? (cs : List Char) : Option (Date × Value × List Char) := do
  let (date, left) ← scanDate? cs
  let timed := do
    match left with
    | c :: rest => if c = 'T' || c = 't' || c = ' ' then scanTime? rest else none
    | [] => none
  match timed with
  | some (time, left) =>
    let (offset, left) := scanZone left
    some (date, .moment ⟨date, time, offset⟩, left)
  | none => some (date, .date date, left)

def scanMoreDigits (isDigit : Char → Bool) : List Char → List Char × List Char
  | '_' :: c :: rest =>
    if isDigit c then
      let (ds, left) := scanMoreDigits isDigit rest
      (c :: ds, left)
    else ([], '_' :: c :: rest)
  | c :: rest =>
    if isDigit c then
      let (ds, left) := scanMoreDigits isDigit rest
      (c :: ds, left)
    else ([], c :: rest)
  | [] => ([], [])

def scanDigits (isDigit : Char → Bool) (cs : List Char) : List Char × List Char :=
  match cs with
  | '_' :: _ => ([], cs)
  | _ => scanMoreDigits isDigit cs

def scanSign (cs : List Char) : List Char × List Char :=
  match cs with
  | '+' :: rest => ([], rest)
  | '-' :: rest => (['-'], rest)
  | _ => ([], cs)

def scanBased (base : Nat) (isDigit : Char → Bool) (cs : List Char) : Option (Int × List Char) :=
  let (ds, left) := scanDigits isDigit cs
  if ds.isEmpty then none
  else
    let n : Nat := ds.foldl (fun n c => base * n + (Digit.hexValue? c).getD 0) 0
    some (n, left)

def isHexDigit (c : Char) : Bool := (Digit.hexValue? c).isSome

def scanBased? (cs : List Char) : Option (Int × List Char) :=
  match cs with
  | '0' :: 'x' :: rest => scanBased 16 isHexDigit rest
  | '0' :: 'o' :: rest => scanBased 8 (fun c => '0' ≤ c && c ≤ '7') rest
  | '0' :: 'b' :: rest => scanBased 2 (fun c => c = '0' || c = '1') rest
  | _ => none

def scanPlaces (cs : List Char) : List Char × List Char :=
  match cs with
  | '.' :: rest =>
    let (ds, left) := scanDigits Char.isDigit rest
    if ds.isEmpty then ([], cs) else ('.' :: ds, left)
  | _ => ([], cs)

def scanExponent (cs : List Char) : List Char × List Char :=
  match cs with
  | c :: rest =>
    if c = 'e' || c = 'E' then
      let (sign, body) := scanSign rest
      let (ds, left) := scanDigits Char.isDigit body
      if ds.isEmpty then ([], cs) else ('e' :: sign ++ ds, left)
    else ([], cs)
  | [] => ([], cs)

def scanDecimal? (cs : List Char) : Option (Result (Value × List Char)) :=
  let (sign, body) := scanSign cs
  let front := match body with
    | '0' :: rest => (['0'], rest)
    | _ => scanDigits Char.isDigit body
  match front with
  | ([], _) => none
  | (ds, left) =>
    let (places, left) := scanPlaces left
    let (exponent, left) := scanExponent left
    some (
      if places.isEmpty && exponent.isEmpty then
        if Whole.maxDigits < ds.length then .error (.tooManyDigits ds.length)
        else .ok (.whole (Decimal.toInt ⟨!sign.isEmpty, Nat.ofDigitChars 10 ds 0, 0⟩), left)
      else .ok (.real ((Binary64.read? (sign ++ ds ++ places ++ exponent)).getD .nan), left))

def specials : List (String × Binary64) := [
  ("inf", .infinity false),
  ("nan", .nan),
  ("-inf", .infinity true),
  ("+inf", .infinity false),
  ("-nan", .nan),
  ("+nan", .nan)]

def scanSpecial? (cs : List Char) : Option (Value × List Char) :=
  specials.findSome? fun (word, x) =>
    if word.toList.isPrefixOf cs then some (.real x, cs.drop word.length) else none

def scanScalar (cs : List Char) : Result (Value × List Char) :=
  match scanDateValue? cs with
  | some (date, v, left) => if date.isValid then .ok (v, left) else .error (.flawed .date cs.length)
  | none =>
    match scanTime? cs with
    | some (time, left) => .ok (.time time, left)
    | none =>
      match scanBased? cs with
      | some (n, left) => .ok (.whole n, left)
      | none =>
        match scanDecimal? cs with
        | some result => result
        | none =>
          match scanSpecial? cs with
          | some found => .ok found
          | none => .error (.flawed .value cs.length)

end JavaRender.Toml
