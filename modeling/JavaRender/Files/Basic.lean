import JavaRender.Files.Path

/-!
What a program asks of files. Every operation answers with a value or with an error that names the
path as it was given; making a directory may first have to make those above it.
-/
namespace JavaRender

inductive FileFault where
  | missing
  | alreadyThere
  | notDirectory
  | isDirectory
  | nameTooLong
  | other (number : Nat) (text : String)
deriving DecidableEq, Repr

namespace FileFault

def number : FileFault → Nat
  | missing => 2
  | alreadyThere => 17
  | notDirectory => 20
  | isDirectory => 21
  | nameTooLong => 36
  | other number _ => number

def text : FileFault → String
  | missing => "No such file or directory"
  | alreadyThere => "File exists"
  | notDirectory => "Not a directory"
  | isDirectory => "Is a directory"
  | nameTooLong => "File name too long"
  | other _ text => text

def ofNumber (number : Nat) (text : String) : FileFault :=
  ([missing, alreadyThere, notDirectory, isDirectory, nameTooLong].find?
    (·.number == number)).getD (other number text)

end FileFault

inductive FileError where
  | system (fault : FileFault) (path : Path)
  /-- A null character in a path. -/
  | nul
deriving DecidableEq, Repr

def FileError.message : FileError → String
  | system fault path =>
    "[Errno " ++ toString fault.number ++ "] " ++ fault.text ++ ": " ++ Quoted.text path.text
  | nul => "embedded null byte"

/-- The operations on files. -/
class Files (m : Type → Type) where
  isThere : Path → m (Except FileError Bool)
  isDirectory : Path → m (Except FileError Bool)
  read : Path → m (Except FileError (List UInt8))
  write : Path → List UInt8 → m (Except FileError Unit)
  makeDirectory : Path → m (Except FileError Unit)
  workingDirectory : m Path

namespace Files

variable {m : Type → Type} [Monad m] [Files m]

/-- A refusal to make a directory does not matter if there is one. -/
def unlessDirectory (p : Path) (e : FileError) : m (Except FileError Unit) := do
  match e with
  | .nul => return .error e
  | .system _ _ =>
    match ← isDirectory p with
    | .ok true => return .ok ()
    | .ok false => return .error e
    | .error e => return .error e

def ensureDirectory (p : Path) : m (Except FileError Unit) := do
  match ← makeDirectory p with
  | .ok () => return .ok ()
  | .error (.system .missing path) => return .error (.system .missing path)
  | .error e => unlessDirectory p e

/-- Makes the directory of `depth` names and those above it that are missing. -/
def ensureFrom (p : Path) : Nat → m (Except FileError Unit)
  | 0 => ensureDirectory ⟨p.anchor, []⟩
  | depth + 1 => do
    let dir : Path := ⟨p.anchor, p.names.take (depth + 1)⟩
    match ← makeDirectory dir with
    | .ok () => return .ok ()
    | .error (.system .missing _) =>
      match ← ensureFrom p depth with
      | .ok () => ensureDirectory dir
      | .error e => return .error e
    | .error e => unlessDirectory dir e

def ensureDirectories (p : Path) : m (Except FileError Unit) := ensureFrom p p.names.length

end Files

end JavaRender
