import JavaRender.Text.Quoted

/-!
Paths as names behind an anchor. Single dots and empty names are dropped when a path is read, double
dots are kept; only resolving takes them back, name by name and without a look at any directory.
-/
namespace JavaRender

/-- Where a path starts; two slashes are an anchor of their own. -/
inductive Anchor where
  | here
  | root
  | doubleRoot
deriving DecidableEq, Repr

structure Path where
  anchor : Anchor
  names : List String
deriving DecidableEq, Repr

namespace Path

def splitSlash : List Char → List (List Char)
  | [] => [[]]
  | c :: rest =>
    if c = '/' then [] :: splitSlash rest
    else match splitSlash rest with
      | [] => [[c]]
      | part :: parts => (c :: part) :: parts

def anchorOf : List Char → Anchor
  | '/' :: '/' :: '/' :: _ => .root
  | '/' :: '/' :: _ => .doubleRoot
  | '/' :: _ => .root
  | _ => .here

def ofString (s : String) : Path :=
  let parts := (splitSlash s.toList).filter fun part => part ≠ [] && part ≠ ['.']
  ⟨anchorOf s.toList, parts.map String.ofList⟩

def anchorText : Anchor → String
  | .here => ""
  | .root => "/"
  | .doubleRoot => "//"

def text (p : Path) : String :=
  let s := anchorText p.anchor ++ "/".intercalate p.names
  if s.isEmpty then "." else s

def name? (p : Path) : Option String := p.names.getLast?

/-- The path without its last name; an anchor alone stays. -/
def parent (p : Path) : Path := ⟨p.anchor, p.names.dropLast⟩

def withName? (p : Path) (name : String) : Option Path :=
  if p.names.isEmpty then none else some ⟨p.anchor, p.names.dropLast ++ [name]⟩

def join (base p : Path) : Path :=
  if p.anchor = .here then ⟨base.anchor, base.names ++ p.names⟩ else p

def climb (names : List String) (name : String) : List String :=
  if name = ".." then names.dropLast else names ++ [name]

/-- The path from the root, seen from a working directory and without double dots. -/
def resolve (workingDirectory p : Path) : Path :=
  ⟨.root, (workingDirectory.join p).names.foldl climb []⟩

def emptyNameMessage (p : Path) : String :=
  "PosixPath(" ++ Quoted.text p.text ++ ") has an empty name"

def hasNul (p : Path) : Bool := p.names.any (·.toList.contains '\x00')

end Path

end JavaRender
