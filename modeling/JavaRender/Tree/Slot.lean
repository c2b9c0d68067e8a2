import JavaRender.Tree.Display

/-!
Reading slots that a well-made tree has filled. An absent content is a malformed tree, and so is
another value where a sequence belongs; a rendering name is asked of any value that has the slot.
-/
namespace JavaRender.Tree

def need (owner slot : String) (content : Tree) : Except Fault Unit :=
  if content.isAbsent then .error (.malformed owner (some slot) .missing) else .ok ()

def needItems (owner slot : String) (content : Tree) : Except Fault (List Tree) := do
  need owner slot content
  match content.items? with
  | some items => .ok items
  | none => .error (.malformed owner (some slot) .notSequence)

/-- The content of a slot; a value without the slot counts as one whose slot is absent. -/
def require (t : Tree) (slot : String) : Except Fault Tree := do
  let content := (t.slot? slot).getD .absent
  need t.className slot content
  .ok content

def requireItems (t : Tree) (slot : String) : Except Fault (List Tree) :=
  needItems t.className slot ((t.slot? slot).getD .absent)

def slotOf (t : Tree) (slot : String) : Except Fault Tree :=
  match t.slot? slot with
  | some content => .ok content
  | none => .error (.noSlot t.qualifiedClassName slot)

def jvmName (t : Tree) : Except Fault Tree := t.slotOf "jvm_name"

def jvmSpelling (t : Tree) : Except Fault String := do (← t.jvmName).spelling?

def unsupported (t : Tree) : Fault := .malformed t.className none .missing

end JavaRender.Tree
