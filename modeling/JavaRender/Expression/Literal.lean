import JavaRender.Number.Shortest
import JavaRender.Tree.Fault

/-!
Literals in Java. Strings and characters escape their own quote, the backslash and five control
characters; whole numbers have all their digits and decimals keep theirs, a double through its
shortest text. A value that does not fit its kind is malformed.
-/
namespace JavaRender.Literal

def escapeChar (quote c : Char) : List Char :=
  if c = quote then ['\\', c]
  else if c = '\\' then ['\\', '\\']
  else if c = '\n' then ['\\', 'n']
  else if c = '\r' then ['\\', 'r']
  else if c = '\t' then ['\\', 't']
  else if c = '\x08' then ['\\', 'b']
  else if c = '\x0c' then ['\\', 'f']
  else [c]

def escape (quote : Char) (s : String) : String :=
  String.ofList (s.toList.flatMap (escapeChar quote))

def escapeText (s : String) : String := escape '"' s

def escapeCharacter (s : String) : String := escape '\'' s

def ofBoolean (b : Bool) : String := if b then "true" else "false"

def decimal? : Tree → Option Decimal
  | .decimal (.finite d) => some d
  | .double x =>
    match Decimal.read? (Shortest.chars x) with
    | some (.finite d) => some d
    | _ => none
  | _ => none

def valueText? (tag : LiteralKind) (value : Tree) : Option String :=
  match tag, value with
  | .string, .text s => some ("\"" ++ escapeText s ++ "\"")
  | .character, .text s => if s.length = 1 then some ("'" ++ escapeCharacter s ++ "'") else none
  | .integer, .integer n => some (toString n)
  | .integer, .kind k => some (toString k.number)
  | .decimal, v => (decimal? v).map Decimal.text
  | .boolean, .boolean b => some (ofBoolean b)
  | .nil, _ => some "null"
  | _, _ => none

/-- The kind that a tag stands for: a kind, or a number that equals the number of one. -/
def kindOf (tag : Tree) : Except Tree.Fault LiteralKind :=
  match tag with
  | .kind k => .ok k
  | .decimal (.nan _ true _) => .error .notComparable
  | _ =>
    match LiteralKind.all.find? fun k => tag.equalsNat k.number with
    | some k => .ok k
    | none => .error (.malformed "Literal" (some "kind") .missing)

/-- What a value gives that does not fit the kind of a tag; only a kind has a name to tell. -/
def misfit (tag : Tree) : Tree.Fault :=
  match tag with
  | .kind k => .malformed "Literal" (some "value") (.invalidValue k)
  | _ => .noSlot tag.qualifiedClassName "name"

def render (value tag : Tree) : Except Tree.Fault String := do
  let k ← kindOf tag
  match valueText? k value with
  | some s => .ok s
  | none => .error (misfit tag)

end JavaRender.Literal
