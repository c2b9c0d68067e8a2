import JavaRender.Toml.Fault
import JavaRender.Toml.Value

/-!
Building tables. A key leads through tables, and through the last element of a list of tables; it
creates what is missing. Marks remember which names may not be opened or filled again.
-/
namespace JavaRender.Toml

namespace Table

def put (t : Table) (name : String) (v : Value) : Table :=
  if (t.lookup name).isSome then
    t.map fun (key, old) => if key = name then (key, v) else (key, old)
  else t ++ [(name, v)]

/-- Changes the table behind a key. Lists of tables are entered only if `lists` allows it; any
other value on the way is in the way. -/
def change (lists : Bool) (f : Table → Except Flaw Table) : Key → Table → Except Flaw Table
  | [], t => f t
  | name :: rest, t =>
    match t.lookup name with
    | none => (change lists f rest []).map fun inner => put t name (.table inner)
    | some (.table inner) =>
      (change lists f rest inner).map fun inner => put t name (.table inner)
    | some (.array items) =>
      match lists, items.getLast? with
      | true, some (.table inner) =>
        (change lists f rest inner).map fun inner =>
          put t name (.array (items.dropLast ++ [.table inner]))
      | _, _ => .error .overwrite
    | some _ => .error .overwrite

def define (taken : Flaw) (name : String) (v : Value) (t : Table) : Except Flaw Table :=
  if (t.lookup name).isSome then .error taken else .ok (put t name v)

def extend (name : String) (t : Table) : Except Flaw Table :=
  match t.lookup name with
  | none => .ok (put t name (.array [.table []]))
  | some (.array items) => .ok (put t name (.array (items ++ [.table []])))
  | some _ => .error .overwrite

end Table

/-- What a mark forbids: the whole content under a key, or a second declaration of the key. -/
inductive Mark where
  | frozen
  | explicit
deriving DecidableEq, Repr

/-- A mark on a key; a deep one holds also for every key behind it. -/
structure Marked where
  key : Key
  mark : Mark
  deep : Bool
deriving DecidableEq, Repr

abbrev Marks := List Marked

namespace Marks

def holds (marks : Marks) (key : Key) (mark : Mark) : Bool :=
  !key.isEmpty && marks.any fun m =>
    m.mark == mark && (m.key == key || (m.deep && m.key.isPrefixOf key))

def clear (marks : Marks) (key : Key) : Marks := marks.filter fun m => !key.isPrefixOf m.key

end Marks

def isClosed : Value → Bool
  | .array _ => true
  | .table _ => true
  | _ => false

end JavaRender.Toml
