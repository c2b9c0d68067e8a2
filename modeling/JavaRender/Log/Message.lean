import JavaRender.Number.Significant
import JavaRender.Text.Quoted

/-!
Messages with arguments. A percent sign begins a directive: flags, a width, a number of places and a
letter for the form. A star takes the width or the places from the arguments. If the only argument
has members, a directive may name one of them. A message without arguments is taken as it is.
-/
namespace JavaRender.Log

inductive Argument where
  | text (s : String)
  | whole (n : Int)
  | real (x : Binary64)
  | truth (b : Bool)
  | nothing
  | items (elements : List Argument)
  | members (named : List (String × Argument))

namespace Argument

mutual

def display : Argument → String
  | text s => Quoted.text s
  | whole n => toString n
  | real x => Shortest.text x
  | truth b => if b then "True" else "False"
  | nothing => "None"
  | items elements => "[" ++ ", ".intercalate (displayAll elements) ++ "]"
  | members named => "\x7b" ++ ", ".intercalate (displayNamed named) ++ "\x7d"

def displayAll : List Argument → List String
  | [] => []
  | a :: rest => a.display :: displayAll rest

def displayNamed : List (String × Argument) → List String
  | [] => []
  | (key, a) :: rest => (Quoted.text key ++ ": " ++ a.display) :: displayNamed rest

end

def spelling : Argument → String
  | text s => s
  | a => a.display

def named? : List Argument → Option (List (String × Argument))
  | [members named] => if named.isEmpty then none else some named
  | _ => none

def asciiDisplay (a : Argument) : String :=
  String.ofList (a.display.toList.flatMap fun c =>
    if c.toNat < 0x80 then [c] else Quoted.hexEscape c.toNat)

/-- The whole number of an argument; a double is cut at the point. -/
def whole? : Argument → Option Int
  | whole n => some n
  | truth b => some (if b then 1 else 0)
  | real (.finite negative m e) =>
    let n := m * pow2 e / pow2 (-e)
    some (if negative then -(n : Int) else n)
  | _ => none

def exactWhole? : Argument → Option Int
  | real _ => none
  | a => a.whole?

def real? : Argument → Option Binary64
  | real x => some x
  | a => a.exactWhole?.map fun n => Binary64.ofDecimal (Decimal.ofInt n)

end Argument

structure Directive where
  left : Bool := false
  zeros : Bool := false
  plus : Bool := false
  blank : Bool := false
  marked : Bool := false
  width : Nat := 0
  places : Option Nat := none
  /-- Flags come before the width. -/
  inFlags : Bool := true

namespace Directive

def fill (d : Directive) (zeros : Bool) (sign body : List Char) : List Char :=
  let missing := d.width - (sign.length + body.length)
  if d.left then sign ++ body ++ List.replicate missing ' '
  else if zeros then sign ++ List.replicate missing '0' ++ body
  else List.replicate missing ' ' ++ sign ++ body

def sign (d : Directive) (negative : Bool) : List Char :=
  if negative then ['-'] else if d.plus then ['+'] else if d.blank then [' '] else []

def ofText (d : Directive) (s : String) : List Char :=
  let cs := s.toList
  d.fill false [] (match d.places with
    | some n => cs.take n
    | none => cs)

def ofWhole (d : Directive) (base : Nat) (mark : List Char) (upper : Bool) (n : Int) : List Char :=
  let digits := Digit.padded base (max 1 (d.places.getD 1)) n.natAbs
  let digits := if upper then digits.map Char.toUpper else digits
  d.fill d.zeros (d.sign (n < 0) ++ if d.marked then mark else []) digits

def ofReal (d : Directive) (magnitude : Nat → Int → List Char) (upper : Bool) (x : Binary64) :
    List Char :=
  let body := match x with
    | .nan => ['n', 'a', 'n']
    | .infinity _ => ['i', 'n', 'f']
    | .finite _ m e => magnitude m e
  d.fill d.zeros (d.sign x.negative) (if upper then body.map Char.toUpper else body)

def fixed (d : Directive) (m : Nat) (e : Int) : List Char :=
  let places := d.places.getD 6
  Binary64.fixedText places (.finite false m e) ++ if d.marked && places = 0 then ['.'] else []

def scientific (d : Directive) (m : Nat) (e : Int) : List Char :=
  Significant.scientific (d.places.getD 6) m e d.marked

def general (d : Directive) (m : Nat) (e : Int) : List Char :=
  Significant.general (d.places.getD 6) m e d.marked

def ofCharacter (d : Directive) (a : Argument) : Option (List Char) :=
  match a with
  | .text s => if s.length = 1 then some (d.fill false [] s.toList) else none
  | a => do
    let n ← a.exactWhole?
    if 0 ≤ n && n.toNat.isValidChar then some (d.fill false [] [Char.ofNat n.toNat]) else none

def convert (d : Directive) (letter : Char) (a : Argument) : Option (List Char) :=
  if letter = 's' then some (d.ofText a.spelling)
  else if letter = 'r' then some (d.ofText a.display)
  else if letter = 'a' then some (d.ofText a.asciiDisplay)
  else if letter = 'd' || letter = 'i' || letter = 'u' then a.whole?.map (d.ofWhole 10 [] false)
  else if letter = 'x' then a.exactWhole?.map (d.ofWhole 16 ['0', 'x'] false)
  else if letter = 'X' then a.exactWhole?.map (d.ofWhole 16 ['0', 'X'] true)
  else if letter = 'o' then a.exactWhole?.map (d.ofWhole 8 ['0', 'o'] false)
  else if letter = 'c' then d.ofCharacter a
  else if letter = 'f' || letter = 'F' then a.real?.map (d.ofReal d.fixed (letter = 'F'))
  else if letter = 'e' || letter = 'E' then a.real?.map (d.ofReal d.scientific (letter = 'E'))
  else if letter = 'g' || letter = 'G' then a.real?.map (d.ofReal d.general (letter = 'G'))
  else none

def read? (d : Directive) (c : Char) : Option Directive :=
  let digit := c.toNat - '0'.toNat
  match d.places with
  | some n => if c.isDigit then some { d with places := some (10 * n + digit) } else none
  | none =>
    if c = '.' then some { d with places := some 0 }
    else if d.inFlags && c = '-' then some { d with left := true }
    else if d.inFlags && c = '0' then some { d with zeros := true }
    else if d.inFlags && c = '+' then some { d with plus := true }
    else if d.inFlags && c = ' ' then some { d with blank := true }
    else if d.inFlags && c = '#' then some { d with marked := true }
    else if c.isDigit then some { d with width := 10 * d.width + digit, inFlags := false }
    else none

/-- Takes the places or the width from a number; a negative width is one to the left. -/
def star (d : Directive) (n : Int) : Directive :=
  match d.places with
  | some _ => { d with places := some n.toNat }
  | none => { d with width := n.natAbs, left := d.left || n < 0, inFlags := false }

end Directive

/-- Where the reading of a message stands: outside of all directives, in the name of a member behind
some opening brackets, or in a directive. -/
inductive Reading where
  | plain
  | name (depth : Nat) (front : List Char)
  | directive (d : Directive)

/-- Puts the arguments into a message in order; `none` if they do not fit it. Members need not all
be named. -/
def substitute (named : Option (List (String × Argument))) :
    Reading → List Char → List Argument → Option (List Char)
  | .plain, [], args => if args.isEmpty || named.isSome then some [] else none
  | _, [], _ => none
  | .plain, c :: rest, args =>
    if c = '%' then substitute named (.directive {}) rest args
    else (substitute named .plain rest args).map (c :: ·)
  | .name depth front, c :: rest, args =>
    if c = ')' && depth = 0 then
      match named.bind (·.lookup (String.ofList front.reverse)) with
      | some a => substitute named (.directive {}) rest [a]
      | none => none
    else
      let depth := if c = '(' then depth + 1 else if c = ')' then depth - 1 else depth
      substitute named (.name depth (c :: front)) rest args
  | .directive d, c :: rest, args =>
    match d.read? c with
    | some d => substitute named (.directive d) rest args
    | none =>
      if c = '%' then (substitute named .plain rest args).map ('%' :: ·)
      else if c = '(' then substitute named (.name 0 []) rest args
      else if c = 'l' || c = 'h' || c = 'L' then substitute named (.directive d) rest args
      else match args with
        | [] => none
        | a :: others =>
          if c = '*' then
            match a.exactWhole? with
            | some n => substitute named (.directive (d.star n)) rest others
            | none => none
          else match d.convert c a with
            | some shown => (substitute named .plain rest others).map (shown ++ ·)
            | none => none

def withArguments (message : String) (args : List Argument) : Option String :=
  if args.isEmpty then some message
  else (substitute (Argument.named? args) .plain message.toList args).map String.ofList

end JavaRender.Log
