import JavaRender.Text.Line
import JavaRender.Toml.Scalar
import JavaRender.Toml.Table

/-!
Reading a configuration document, statement by statement. Every statement takes a line: a key with
its value, or a header that says which table the following keys belong to.
-/
namespace JavaRender.Toml

def skipFiller : Nat → List Char → Result (List Char)
  | 0, cs => .ok cs
  | fuel + 1, cs =>
    match cs.dropWhile isBlankOrLineEnd with
    | '#' :: rest => do
      let left ← skipComment ('#' :: rest)
      skipFiller fuel left
    | left => .ok left

/-- The items of an array up to its end, at least one. Each takes a character, so `fuel` of the
number of characters is never used up. -/
def scanItems (item : List Char → Result (Value × List Char)) :
    Nat → List Char → Result (List Value × List Char)
  | 0, cs => .error (.flawed .value cs.length)
  | fuel + 1, cs => do
    let (v, left) ← item cs
    match ← skipFiller fuel left with
    | ']' :: left => .ok ([v], left)
    | ',' :: left =>
      match ← skipFiller fuel left with
      | ']' :: left => .ok ([v], left)
      | left => do
        let (vs, left) ← scanItems item fuel left
        .ok (v :: vs, left)
    | left => .error (.flawed .unclosedArray left.length)

def scanArray (item : List Char → Result (Value × List Char)) (fuel : Nat) (cs : List Char) :
    Result (Value × List Char) := do
  match ← skipFiller fuel cs with
  | ']' :: left => .ok (.array [], left)
  | left => do
    let (vs, left) ← scanItems item fuel left
    .ok (.array vs, left)

def scanPair (item : List Char → Result (Value × List Char)) (fuel : Nat) (cs : List Char) :
    Result ((Key × Value) × List Char) := do
  let (key, left) ← scanKey fuel cs
  match left with
  | '=' :: rest => do
    let (v, left) ← item (skipBlanks rest)
    .ok ((key, v), left)
  | _ => .error (.flawed .equals left.length)

/-- A flaw found behind a value or key; what follows these places it. -/
def placed {α : Type} (left : List Char) (result : Except Flaw α) : Result α :=
  result.mapError (.flawed · left.length)

def stem (key : Key) : String := key.getLastD ""

/-- The pairs of an inline table up to its end, at least one; `fuel` as for items. -/
def scanPairs (item : List Char → Result (Value × List Char)) :
    Nat → Table → Marks → List Char → Result (Table × List Char)
  | 0, _, _, cs => .error (.flawed .keyStart cs.length)
  | fuel + 1, t, marks, cs => do
    let ((key, v), left) ← scanPair item fuel cs
    if marks.holds key .frozen then .error (.flawed (.immutable key) left.length)
    else do
      let name := stem key
      let t ← placed left
        (Table.change false (Table.define (.duplicate name) name v) key.dropLast t)
      match skipBlanks left with
      | '\x7d' :: left => .ok (t, left)
      | ',' :: left =>
        let marks := if isClosed v then ⟨key, .frozen, true⟩ :: marks else marks
        scanPairs item fuel t marks (skipBlanks left)
      | left => .error (.flawed .unclosedInline left.length)

def scanInline (item : List Char → Result (Value × List Char)) (fuel : Nat) (cs : List Char) :
    Result (Value × List Char) :=
  match skipBlanks cs with
  | '\x7d' :: left => .ok (.table [], left)
  | left => do
    let (t, left) ← scanPairs item fuel [] [] left
    .ok (.table t, left)

def scanText? (cs : List Char) : Option (Result (List Char × List Char)) :=
  match cs with
  | '"' :: '"' :: '"' :: rest =>
    some ((scanBasic true .outside (dropFirstLineEnd rest)).map fun (s, left) =>
      closeQuotes '"' s left)
  | '"' :: rest => some (scanBasic false .outside rest)
  | '\'' :: '\'' :: '\'' :: rest =>
    some ((scanLiteral true ['\'', '\'', '\''] (dropFirstLineEnd rest)).map fun (s, left) =>
      closeQuotes '\'' s left)
  | '\'' :: rest => some (scanLiteral false ['\''] rest)
  | _ => none

/-- A value, in which brackets may nest `depth` deep and hold fewer than `fuel` values. -/
def scanValue (fuel : Nat) : Nat → List Char → Result (Value × List Char)
  | depth, cs =>
    match scanText? cs with
    | some result => result.map fun (s, left) => (.text (String.ofList s), left)
    | none =>
      match cs with
      | 't' :: 'r' :: 'u' :: 'e' :: left => .ok (.truth true, left)
      | 'f' :: 'a' :: 'l' :: 's' :: 'e' :: left => .ok (.truth false, left)
      | '[' :: rest =>
        match depth with
        | 0 => .error .tooDeep
        | depth + 1 => scanArray (scanValue fuel depth) fuel rest
      | '\x7b' :: rest =>
        match depth with
        | 0 => .error .tooDeep
        | depth + 1 => scanInline (scanValue fuel depth) fuel rest
      | cs => scanScalar cs

/-- How deep brackets may nest before the stack is used up. -/
def maxDepth : Nat := 490

/-- A document as far as it has been read. Keys that a dotted key passed through are pending: a
header may not open them once the section is over. -/
structure Draft where
  data : Table
  marks : Marks
  pending : List Key
  header : Key

def Draft.settle (d : Draft) : Draft :=
  { d with marks := d.pending.map (⟨·, .explicit, false⟩) ++ d.marks, pending := [] }

def leading (header key : Key) : List Key :=
  (List.range (key.length - 1)).map fun i => header ++ key.take (i + 1)

def Draft.assign (d : Draft) (key : Key) (v : Value) : Except Flaw Draft := do
  let passed := leading d.header key
  match passed.find? (d.marks.holds · .explicit) with
  | some k => .error (.redefined k)
  | none =>
    let parent := d.header ++ key.dropLast
    if d.marks.holds parent .frozen then .error (.immutable parent)
    else
      let data ← Table.change true (Table.define .overwrite (stem key) v) parent d.data
      let marks := if isClosed v then ⟨d.header ++ key, .frozen, true⟩ :: d.marks else d.marks
      .ok { d with data, marks, pending := passed ++ d.pending }

def Draft.openTable (d : Draft) (key : Key) : Except Flaw Draft :=
  if d.marks.holds key .explicit || d.marks.holds key .frozen then .error (.declaredTwice key)
  else (Table.change true .ok key d.data).map fun data =>
    { d with data, marks := ⟨key, .explicit, false⟩ :: d.marks, header := key }

def Draft.openListed (d : Draft) (key : Key) : Except Flaw Draft :=
  if d.marks.holds key .frozen then .error (.immutable key)
  else (Table.change true (Table.extend (stem key)) key.dropLast d.data).map fun data =>
    { d with data, marks := ⟨key, .explicit, false⟩ :: d.marks.clear key, header := key }

/-- A statement at its first character, and the characters behind it; `fuel` is more than their
number. -/
def scanStatement (fuel : Nat) (d : Draft) (cs : List Char) : Result (Draft × List Char) :=
  match cs with
  | '[' :: '[' :: rest => do
    let (key, left) ← scanKey fuel (skipBlanks rest)
    let d ← placed left (d.settle.openListed key)
    match left with
    | ']' :: ']' :: left => .ok (d, left)
    | _ => .error (.flawed .arrayTableEnd left.length)
  | '[' :: rest => do
    let (key, left) ← scanKey fuel (skipBlanks rest)
    let d ← placed left (d.settle.openTable key)
    match left with
    | ']' :: left => .ok (d, left)
    | _ => .error (.flawed .tableEnd left.length)
  | '#' :: _ => .ok (d, cs)
  | c :: _ =>
    if isBare c || c = '"' || c = '\'' then do
      let ((key, v), left) ← scanPair (scanValue fuel maxDepth) fuel cs
      let d ← placed left (d.assign key v)
      .ok (d, left)
    else .error (.flawed .statement cs.length)
  | [] => .ok (d, [])

/-- All statements of a text of fewer than `size` characters; each takes one, so `fuel` of as many
is never used up. -/
def scanStatements (size : Nat) : Nat → Draft → List Char → Result Table
  | 0, d, _ => .ok d.data
  | fuel + 1, d, cs =>
    match skipBlanks cs with
    | [] => .ok d.data
    | '\n' :: rest => scanStatements size fuel d rest
    | cs => do
      let (d, left) ← scanStatement size d cs
      match ← skipComment (skipBlanks left) with
      | [] => .ok d.data
      | '\n' :: rest => scanStatements size fuel d rest
      | left => .error (.flawed .lineEnd left.length)

def read (cs : List Char) : Result Table :=
  scanStatements (cs.length + 1) (cs.length + 1) ⟨[], [], [], []⟩ cs

def placeText (cs : List Char) (left : Nat) : String :=
  if left = 0 then "end of document"
  else
    let place := Line.locate cs (cs.length - left)
    "line " ++ toString place.line ++ ", column " ++ toString place.column

def flawText (cs : List Char) (flaw : Flaw) (left : Nat) : String :=
  flaw.message ++ " (at " ++ placeText cs left ++ ")"

end JavaRender.Toml
