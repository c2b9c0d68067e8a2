import JavaRender.Files.Basic
import JavaRender.Number.Whole
import JavaRender.Settings.Newline
import JavaRender.Text.Utf8

/-!
The settings of a build. Without an output of its own the result goes beside the source.
-/
namespace JavaRender

/-- Where the result of a build goes. An output that is given without a value is nowhere. -/
inductive Output where
  | file (path : Path)
  | nowhere
deriving DecidableEq, Repr

def Output.text : Output → String
  | file path => path.text
  | nowhere => "[]"

structure Settings where
  source : Path
  output : Option Output
  terminator : String
  verbose : Bool
deriving DecidableEq, Repr

inductive SettingsError where
  | missingFile (path : Path)
  /-- A configuration file is asked for without a value. -/
  | unnamedFile
  | invalid (path : Path) (flaw : String)
  | noSystem (path : Path)
  | noVersion (path : Path)
  | unknownVersion (path : Path) (shown : String)
  | unknownNewline (shown : String)
  /-- A value of class `owner` stands where a table belongs. -/
  | notTable (owner : String)
  | notSearchable (owner : String)
  | textIndexed
  | listIndexed
  | notPath (owner : String)
  | notKey (owner : String)
  | longWhole (count : Option Nat)
  /-- A configuration file uses up the stack. -/
  | tooDeep
  | notUtf8 (e : Utf8.Error)
  | file (e : FileError)
deriving DecidableEq, Repr

def Utf8.Error.text (e : Utf8.Error) : String :=
  let place := if e.length = 1 then
      "byte 0x" ++ String.ofList (Digit.padded 16 2 e.first.toNat) ++ " in position " ++
        toString e.start
    else
      "bytes in position " ++ toString e.start ++ "-" ++ toString (e.start + e.length - 1)
  "'utf-8' codec can't decode " ++ place ++ ": " ++ e.problem.reason

def SettingsError.message : SettingsError → String
  | missingFile path => "Config file is missing: " ++ path.text
  | unnamedFile => "'list' object has no attribute 'exists'"
  | invalid path flaw => "Invalid TOML in " ++ path.text ++ ": " ++ flaw
  | noSystem path => "Missing segment system in " ++ path.text
  | noVersion path => "Missing system.version in " ++ path.text
  | unknownVersion path shown => "Unknown config version in " ++ path.text ++ ": " ++ shown
  | unknownNewline shown =>
    "Unknown newline style: " ++ shown ++ " (expected one of " ++ Newline.names ++ ")"
  | notTable owner => "'" ++ owner ++ "' object has no attribute 'get'"
  | notSearchable owner => "argument of type '" ++ owner ++ "' is not iterable"
  | textIndexed => "string indices must be integers, not 'str'"
  | listIndexed => "list indices must be integers or slices, not str"
  | notPath owner => "unsupported operand type(s) for /: 'PosixPath' and '" ++ owner ++ "'"
  | notKey owner => "unhashable type: '" ++ owner ++ "'"
  | longWhole none => Whole.longMessage
  | longWhole (some count) => Whole.longNumeralMessage count
  | tooDeep => "maximum recursion depth exceeded"
  | notUtf8 e => e.text
  | file e => e.message

namespace Settings

def default : Settings :=
  ⟨Path.ofString "./main.ast.json", none, Newline.platform.terminator, false⟩

def version : String := "0.1.0"

def resultName : String := "Main.java"

/-- Where the result goes; `none` if it would go beside a source that has no name. -/
def effectiveOutput? (s : Settings) : Option Output :=
  s.output.or ((s.source.withName? resultName).map .file)

def setNewline (name : String) (s : Settings) : Except SettingsError Settings :=
  match Newline.ofName? name with
  | some n => .ok { s with terminator := n.terminator }
  | none => .error (.unknownNewline (Quoted.text name))

end Settings

end JavaRender
