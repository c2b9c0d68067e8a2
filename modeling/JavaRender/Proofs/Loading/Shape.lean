import JavaRender.Proofs.Interchange.Reload
import Mathlib.Data.List.Nodup

/-!
What is expected where in a document: for each class of nodes and each descriptor the keys that it
defines, what becomes of a key that is left out, and what has to stand under it. The decoders of
nodes read nothing else; here they are given in terms of the members that keys look up.
-/
namespace JavaRender.Document

open Json (lastMember?)

/-- What a value has to be. In a plain place no object and no list of the loader can stand. -/
inductive Place where
  | node
  | nodes
  | var
  | function
  | type
  | types
  | names
  | plain
deriving DecidableEq, Repr

/-- What becomes of a key: it has to be there, it may be null or left out, it is a list that may be
left out, it is a spelling that may be left out, or it is the value of a literal. -/
inductive Part where
  | required (place : Place)
  | optional
  | listed (place : Place)
  | spelling
  | content
deriving DecidableEq, Repr

def Part.place : Part → Place
  | required place => place
  | optional => .node
  | listed place => place
  | spelling => .plain
  | content => .plain

def classParts : String → List (String × Part)
  | "Source" => [("fields", .listed .nodes), ("methods", .listed .nodes)]
  | "Field" => [("variable", .required .var), ("value", .optional)]
  | "Method" =>
    [("function", .required .function), ("parameters", .listed .names),
      ("statements", .listed .nodes)]
  | "ExpressionStmt" => [("expression", .required .node)]
  | "Declaration" => [("variable", .required .var), ("value", .optional)]
  | "Assignment" => [("receiver", .required .node), ("value", .required .node)]
  | "If" =>
    [("condition", .required .node), ("then_statements", .listed .nodes),
      ("else_statements", .listed .nodes)]
  | "For" =>
    [("name", .required .plain), ("value", .required .node), ("statements", .listed .nodes)]
  | "While" => [("condition", .required .node), ("statements", .listed .nodes)]
  | "Return" => [("value", .required .node)]
  | "Literal" => [("kind", .required .plain), ("value", .content)]
  | "Group" => [("expression", .required .node)]
  | "Binary" =>
    [("operator", .required .plain), ("left", .required .node), ("right", .required .node)]
  | "Access" => [("variable", .required .var), ("receiver", .optional)]
  | "Call" =>
    [("function", .required .function), ("arguments", .listed .nodes), ("receiver", .optional)]
  | _ => []

def tag? (members : List (String × Json)) : Option String :=
  match lastMember? "_type" members with
  | some (.string tag) => some tag
  | _ => none

def Place.parts (tag : Option String) : Place → List (String × Part)
  | node => ("_type", .required .plain) :: (tag.map classParts).getD []
  | var => [("name", .required .plain), ("jvm_name", .spelling), ("type", .required .type)]
  | function =>
    [("name", .required .plain), ("jvm_name", .spelling), ("return_type", .required .type),
      ("parameter_types", .listed .types)]
  | type => [("name", .required .plain), ("jvm_name", .spelling)]
  | nodes | types | names | plain => []

def partsOf (place : Place) (members : List (String × Json)) : List (String × Part) :=
  place.parts (tag? members)

def Place.element : Place → Place
  | nodes => node
  | types => type
  | node | var | function | type | names | plain => plain

section Parts

variable {place : Place} {members : List (String × Json)} {key : String} {part part' : Part}

theorem classParts_distinct (tag : String) :
    ((("_type", Part.required .plain) :: classParts tag).map (·.1)).Nodup := by
  unfold classParts
  split <;> decide

theorem partsOf_distinct (place : Place) (members : List (String × Json)) :
    ((partsOf place members).map (·.1)).Nodup := by
  unfold partsOf
  cases place with
  | node =>
    cases tag? members with
    | none => decide
    | some tag => exact classParts_distinct tag
  | nodes | var | function | type | types | names | plain =>
    rw [Place.parts]
    decide

/-- A key is defined once. -/
theorem part_unique (h : (key, part) ∈ partsOf place members)
    (h' : (key, part') ∈ partsOf place members) : part = part' :=
  congrArg Prod.snd (List.inj_on_of_nodup_map (partsOf_distinct place members) h h' rfl)

theorem mem_partsOf {tag : String} (htag : tag? members = some tag)
    (h : (key, part) ∈ ("_type", Part.required .plain) :: classParts tag) :
    (key, part) ∈ partsOf .node members := by
  rw [partsOf, htag]
  exact h

/-- A text is what stands under its key. -/
theorem get_of_textAt {get : String → Option Json} {s : String} (h : textAt get key = .ok s) :
    get key = some (.string s) := by
  unfold textAt at h
  split at h
  · cases h
  · next hkey =>
    cases h
    exact hkey
  · cases h

/-- An object that has a text under the tag is of that class. -/
theorem tag_of_textAt {tag : String} (h : textAt (lastMember? · members) "_type" = .ok tag) :
    tag? members = some tag := by
  have hkey : lastMember? "_type" members = some (.string tag) := get_of_textAt h
  rw [tag?, hkey]

end Parts

section Views

variable (key : String) (members : List (String × Json))

theorem viewsOf_nodeAt :
    Views.nodeAt (viewsOf members) key = partAt (lastMember? · members) key nodeOf := by
  rw [Views.nodeAt, partAt, partAt, lastMember_viewsOf]
  cases lastMember? key members <;> rfl

/-- A list that is left out is read as an empty one. -/
theorem viewsOf_nodesAt :
    Views.nodesAt (viewsOf members) key =
      under (.key key) (nodesOf ((lastMember? key members).getD (.array []))) := by
  rw [Views.nodesAt, lastMember_viewsOf]
  cases lastMember? key members <;> rfl

def optionOf (key : String) : Option Json → Decoded (Option Node)
  | none => .ok none
  | some .null => .ok none
  | some v => some <$> under (.key key) (nodeOf v)

theorem viewsOf_optionAt :
    Views.optionAt (viewsOf members) key = optionOf key (lastMember? key members) := by
  unfold Views.optionAt
  rw [lastMember_viewsOf]
  cases lastMember? key members with
  | none => rfl
  | some v => cases v <;> rfl

theorem optionOf_some {v : Json} (h : v ≠ .null) :
    optionOf key (some v) = some <$> under (.key key) (nodeOf v) := by
  cases v with
  | null => exact absurd rfl h
  | _ => rfl

def nameOf : Json → Decoded String
  | .string s => .ok s
  | _ => refuse .notParameterName

def namesOf (v : Json) : Decoded (List String) := do
  let items ← listOf v
  eachOf nameOf 0 items

theorem viewsOf_parametersAt :
    Views.parametersAt (viewsOf members) key =
      under (.key key) (namesOf ((lastMember? key members).getD (.array []))) := by
  rw [Views.parametersAt, raw_viewsOf, namesOf]
  refine congrArg (under (.key key)) (congrArg (listOf _ >>= ·) ?_)
  funext items
  refine congrArg (fun decode => eachOf decode 0 items) ?_
  funext v
  cases v <;> rfl

/-- The nodes of a list are decoded one by one. -/
theorem nodesFrom_eq (first : Nat) (items : List Json) :
    nodesFrom first items = eachOf nodeOf first items := by
  induction items generalizing first with
  | nil => rfl
  | cons v rest ih => rw [nodesFrom, eachOf, ih]

theorem nodesOf_array (items : List Json) : nodesOf (.array items) = eachOf nodeOf 0 items := by
  rw [nodesOf, nodesFrom_eq]

end Views

end JavaRender.Document
