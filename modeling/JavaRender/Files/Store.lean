import JavaRender.Files.Basic

/-!
A file system as a value: the entries under their names from the root, and a working directory.
Following a path needs every directory on the way, also where double dots lead back out of it.
-/
namespace JavaRender

inductive Entry where
  | file (bytes : List UInt8)
  | directory
deriving DecidableEq, Repr

structure Store where
  entries : List (List String × Entry)
  here : List String
deriving DecidableEq, Repr

namespace Store

def maxName : Nat := 255

def maxPath : Nat := 4095

/-- What stands under names from the root, which is a directory itself. -/
def entry? (s : Store) (names : List String) : Option Entry :=
  if names.isEmpty then some .directory else s.entries.lookup names

def put (s : Store) (names : List String) (entry : Entry) : Store :=
  if (s.entries.lookup names).isSome then
    { s with entries := s.entries.map fun (key, old) =>
        if key = names then (key, entry) else (key, old) }
  else { s with entries := s.entries ++ [(names, entry)] }

def enter (s : Store) (names : List String) (name : String) : Except FileFault (List String) :=
  match s.entry? names with
  | none => .error .missing
  | some (.file _) => .error .notDirectory
  | some .directory =>
    if name = ".." then .ok names.dropLast
    else if maxName < name.utf8ByteSize then .error .nameTooLong
    else .ok (names ++ [name])

/-- The names from the root that a path leads to; the last of them need not exist. -/
def locate (s : Store) (p : Path) : Except FileFault (List String) :=
  if maxPath < p.text.utf8ByteSize then .error .nameTooLong
  else p.names.foldlM s.enter (if p.anchor = .here then s.here else [])

def find (s : Store) (p : Path) : Except FileFault Entry := do
  match s.entry? (← s.locate p) with
  | some entry => .ok entry
  | none => .error .missing

def isThere (s : Store) (p : Path) : Except FileError Bool :=
  if p.hasNul then .ok false
  else match s.find p with
    | .ok _ => .ok true
    | .error .nameTooLong => .error (.system .nameTooLong p)
    | .error _ => .ok false

def isDirectory (s : Store) (p : Path) : Except FileError Bool :=
  if p.hasNul then .ok false
  else match s.find p with
    | .ok .directory => .ok true
    | .ok (.file _) => .ok false
    | .error .nameTooLong => .error (.system .nameTooLong p)
    | .error _ => .ok false

def read (s : Store) (p : Path) : Except FileError (List UInt8) :=
  if p.hasNul then .error .nul
  else match s.find p with
    | .ok (.file bytes) => .ok bytes
    | .ok .directory => .error (.system .isDirectory p)
    | .error fault => .error (.system fault p)

def write (s : Store) (p : Path) (bytes : List UInt8) : Except FileError Unit × Store :=
  if p.hasNul then (.error .nul, s)
  else match s.locate p with
    | .error fault => (.error (.system fault p), s)
    | .ok names =>
      match s.entry? names with
      | some .directory => (.error (.system .isDirectory p), s)
      | _ => (.ok (), s.put names (.file bytes))

def makeDirectory (s : Store) (p : Path) : Except FileError Unit × Store :=
  if p.hasNul then (.error .nul, s)
  else match s.locate p with
    | .error fault => (.error (.system fault p), s)
    | .ok names =>
      match s.entry? names with
      | some _ => (.error (.system .alreadyThere p), s)
      | none => (.ok (), s.put names .directory)

instance : Files (StateM Store) where
  isThere p := do return (← get).isThere p
  isDirectory p := do return (← get).isDirectory p
  read p := do return (← get).read p
  write p bytes := fun s => s.write p bytes
  makeDirectory p := fun s => s.makeDirectory p
  workingDirectory := do return ⟨.root, (← get).here⟩

def plant (s : Store) (p : Path) (entry : Entry) : Store :=
  let names := s.here ++ p.names
  let above := (List.range names.length).map (names.take ·)
  (above.foldl (fun s dir => if (s.entry? dir).isNone then s.put dir .directory else s) s).put
    names entry

/-- The entries that were added or changed, under their names from the working directory. -/
def changes (before after : Store) : List (List String × Entry) :=
  after.entries.filterMap fun (names, entry) =>
    if before.here.isPrefixOf names && before.entry? names ≠ some entry then
      some (names.drop before.here.length, entry)
    else none

end Store

end JavaRender
