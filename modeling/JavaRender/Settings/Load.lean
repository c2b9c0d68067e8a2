import JavaRender.Settings.Basic
import JavaRender.Text.Line
import JavaRender.Toml.Reader

/-!
Settings from a configuration file. The file names its version, and version one has a build table
with up to three settings. They are taken one after the other, so what was taken before a fault
stays.
-/
namespace JavaRender.Settings

open Toml

/-- Changes settings; a fault leaves the changes made before it. -/
abbrev Change := ExceptT SettingsError (StateM Settings)

/-- The value under a name, if it is there. A list or a text may hold the name itself, but has no
value under it. -/
def lookUp (name : String) : Value → Except SettingsError (Option Value)
  | .table members => .ok (members.lookup name)
  | .array items =>
    let isName := fun
      | .text s => s == name
      | _ => false
    if items.any isName then .error .listIndexed else .ok none
  | .text s =>
    if (splitAtMark? name.toList s.toList).isSome then .error .textIndexed else .ok none
  | v => .error (.notSearchable v.className)

def pathFrom (base : Path) : Value → Except SettingsError Path
  | .text s => .ok (base.join (Path.ofString s))
  | v => .error (.notPath v.className)

def terminatorOf : Value → Except SettingsError String
  | .text s =>
    match Newline.ofName? s with
    | some n => .ok n.terminator
    | none => .error (.unknownNewline (Quoted.text s))
  | .array _ => .error (.notKey "list")
  | .table _ => .error (.notKey "dict")
  | v =>
    match v.display? with
    | some shown => .error (.unknownNewline shown)
    | none => .error (.longWhole none)

def applyBuild (data : Table) (base : Path) : Change Unit := do
  let build := (data.lookup "build").getD (.table [])
  if let some v ← lookUp "source" build then
    let p ← pathFrom base v
    modify fun s => { s with source := p }
  if let some v ← lookUp "output" build then
    let p ← pathFrom base v
    modify fun s => { s with output := some (.file p) }
  if let some v ← lookUp "newline" build then
    let terminator ← terminatorOf v
    modify fun s => { s with terminator }

def versionOf (path : Path) (data : Table) : Except SettingsError String := do
  match data.lookup "system" with
  | none => .error (.noSystem path)
  | some (.table members) =>
    match members.lookup "version" with
    | none => .error (.noVersion path)
    | some v =>
      match v.spelling? with
      | some shown => .ok shown
      | none => .error (.longWhole none)
  | some v => .error (.notTable v.className)

def applyDocument (path : Path) (data : Table) : Change Unit := do
  let version ← versionOf path data
  if version = "1" then applyBuild data path.parent
  else throw (.unknownVersion path version)

def document (path : Path) (text : List Char) : Except SettingsError Table :=
  match Toml.read text with
  | .ok data => .ok data
  | .error (.flawed flaw left) => .error (.invalid path (flawText text flaw left))
  | .error .tooDeep => .error .tooDeep
  | .error (.tooManyDigits count) => .error (.longWhole (some count))

def applyBytes (path : Path) (bytes : List UInt8) : Change Unit := do
  match Utf8.decodeMarked bytes with
  | .error e => throw (.notUtf8 e)
  | .ok text => do
    let data ← document path (Line.unify text)
    applyDocument path data

def load {m : Type → Type} [Monad m] [Files m] (path : Path) (s : Settings) :
    m (Except SettingsError Unit × Settings) := do
  match ← Files.isThere path with
  | .error e => return (.error (.file e), s)
  | .ok false => return (.error (.missingFile path), s)
  | .ok true =>
    match ← Files.read path with
    | .error e => return (.error (.file e), s)
    | .ok bytes => return ((applyBytes path bytes).run s)

end JavaRender.Settings
