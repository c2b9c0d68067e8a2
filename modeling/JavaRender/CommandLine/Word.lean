import JavaRender.Text.Digit
import JavaRender.Text.Quoted

/-!
Words of a command line. A word that begins with a dash may be an option, alone or with a value in
the same word; a long option may be cut short. Behind two dashes every word is plain.
-/
namespace JavaRender.CommandLine

inductive Flag where
  | help
  | verbose
  | out
  | config
  | newline
deriving DecidableEq, Repr

namespace Flag

def takesValue : Flag → Bool
  | help => false
  | verbose => false
  | _ => true

def title : Flag → String
  | help => "-h/--help"
  | verbose => "-v/--verbose"
  | out => "-o/--out"
  | config => "-c/--config"
  | newline => "--newline"

end Flag

abbrev Options := List (String × Flag)

def helpOptions : Options := [("-h", .help), ("--help", .help)]

def buildOptions : Options :=
  helpOptions ++ [
    ("-v", .verbose),
    ("--verbose", .verbose),
    ("-o", .out),
    ("--out", .out),
    ("-c", .config),
    ("--config", .config),
    ("--newline", .newline)]

/-- An option in a word: the flag if the spelling is known, whether two dashes begin it, and what is
attached to it. A sign of equality between the two is not part of either. -/
structure Match where
  flag : Option Flag
  long : Bool
  attached : Option (List Char)
deriving DecidableEq, Repr

inductive Word where
  | plain (s : String)
  | option (s : String) (found : Match)
  | dashes
deriving DecidableEq, Repr

namespace Word

def text : Word → String
  | plain s => s
  | option s _ => s
  | dashes => "--"

/-- A negative number in digits of any script, with a point or without; a line feed at its end does
not matter. -/
def isNegativeNumber (cs : List Char) : Bool :=
  match cs with
  | '-' :: rest =>
    let body := if rest.getLast? = some '\n' then rest.dropLast else rest
    match body.dropWhile Digit.isDecimal with
    | [] => !body.isEmpty
    | '.' :: places => !places.isEmpty && places.all Digit.isDecimal
    | _ => false
  | _ => false

def splitEquals (cs : List Char) : List Char × Option (List Char) :=
  (cs.takeWhile (· ≠ '='),
    match cs.dropWhile (· ≠ '=') with
    | _ :: rest => some rest
    | [] => none)

def longMatches (options : Options) (cs : List Char) : List (String × Match) :=
  let (front, value) := splitEquals cs
  options.filterMap fun (name, flag) =>
    if front.isPrefixOf name.toList then
      some (name, ⟨some flag, true, value⟩)
    else none

def shortMatches (options : Options) (cs : List Char) : List (String × Match) :=
  options.filterMap fun (name, flag) =>
    if name.toList = cs.take 2 then some (name, ⟨some flag, false, some (cs.drop 2)⟩) else none

def candidates (options : Options) (cs : List Char) : List (String × Match) :=
  match cs with
  | '-' :: '-' :: _ => longMatches options cs
  | _ => shortMatches options cs

def isLong (name : String) : Bool := name.startsWith "--"

/-- Reads a word that stands before two dashes alone. A word that begins more than one spelling is
ambiguous; the spellings are given. -/
def read (options : Options) (s : String) : Except (List String) Word :=
  let cs := s.toList
  match cs with
  | '-' :: _ :: _ =>
    match options.lookup s with
    | some flag => .ok (option s ⟨some flag, isLong s, none⟩)
    | none =>
      let (front, value) := splitEquals cs
      let name := String.ofList front
      match value, options.lookup name with
      | some value, some flag => .ok (option s ⟨some flag, isLong name, some value⟩)
      | _, _ =>
        match candidates options cs with
        | [] =>
          if isNegativeNumber cs || cs.contains ' ' then .ok (plain s)
          else .ok (option s ⟨none, false, none⟩)
        | [(_, found)] => .ok (option s found)
        | several => .error (several.map (·.1))
  | _ => .ok (plain s)

def readAll (options : Options) : List String → Except (String × List String) (List Word)
  | [] => .ok []
  | s :: rest =>
    if s = "--" then .ok (dashes :: rest.map plain)
    else do
      let word ← (read options s).mapError (s, ·)
      let words ← readAll options rest
      .ok (word :: words)

end Word

end JavaRender.CommandLine
