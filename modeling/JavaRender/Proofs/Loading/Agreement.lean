import JavaRender.Proofs.Loading.Shape

/-!
When two values are read alike. Two objects are if every key that is defined looks up contents that
are, where contents are compared in the way in which the key is read: with or without a default, as
a spelling beside a name, as the value of a kind of literals.
-/
namespace JavaRender.Document

open Json (lastMember?)

section Agreement

inductive SameContainer : Json → Json → Prop
  | objects (members members' : List (String × Json)) :
      SameContainer (.object members) (.object members')
  | lists (items items' : List Json) : SameContainer (.array items) (.array items')

/-- Two values are read alike in a place; the types of a list are read later than the list. -/
def Agree : Place → Json → Json → Prop
  | .node, v, v' => nodeOf v = nodeOf v'
  | .nodes, v, v' => nodesOf v = nodesOf v'
  | .var, v, v' => varOf v = varOf v'
  | .function, v, v' => functionOf v = functionOf v'
  | .type, v, v' => typeOf v = typeOf v'
  | .types, v, v' => (listOf v).map (eachOf typeOf 0) = (listOf v').map (eachOf typeOf 0)
  | .names, v, v' => namesOf v = namesOf v'
  | .plain, v, v' => v = v' ∨ SameContainer v v'

def spellingOf (name : String) : Option Json → Decoded String
  | none => .ok name
  | some (.string s) => .ok s
  | some _ => under (.key "jvm_name") (refuse (.notString "jvm_name"))

theorem jvmNameOf_eq (get : String → Option Json) :
    jvmNameOf get = textAt get "name" >>= fun name => spellingOf name (get "jvm_name") := rfl

def Part.Same (get : String → Option Json) (o o' : Option Json) : Part → Prop
  | required place => Option.Rel (Agree place) o o'
  | optional => ∀ key, optionOf key o = optionOf key o'
  | listed place => Agree place (o.getD (.array [])) (o'.getD (.array []))
  | spelling =>
    ∀ name, get "name" = some (.string name) → spellingOf name o = spellingOf name o'
  | content =>
    ∀ name kind, get "kind" = some (.string name) → LiteralKind.ofName? name = some kind →
      literalOf kind (o.getD .null) = literalOf kind (o'.getD .null)

def SameObject (place : Place) (members members' : List (String × Json)) : Prop :=
  ∀ key part, (key, part) ∈ partsOf place members →
    part.Same (lastMember? · members) (lastMember? key members) (lastMember? key members')

theorem Agree.refl (place : Place) (v : Json) : Agree place v v := by
  cases place with
  | plain => exact .inl rfl
  | _ => exact rfl

theorem Part.Same.refl (get : String → Option Json) (o : Option Json) (part : Part) :
    part.Same get o o := by
  cases part with
  | required place =>
    cases o with
    | none => exact .none
    | some v => exact .some (Agree.refl place v)
  | optional => exact fun _ => rfl
  | listed place => exact Agree.refl place _
  | spelling => exact fun _ _ => rfl
  | content => exact fun _ _ _ _ => rfl

variable {place inner : Place} {members members' : List (String × Json)} {key : String}
variable (h : SameObject place members members')
include h

theorem same_text (hpart : (key, Part.required .plain) ∈ partsOf place members) :
    textAt (lastMember? · members) key = textAt (lastMember? · members') key := by
  have hrel : Option.Rel (Agree .plain) (lastMember? key members) (lastMember? key members') :=
    h key _ hpart
  unfold textAt
  dsimp only
  generalize lastMember? key members = o, lastMember? key members' = o' at hrel
  cases hrel with
  | none => rfl
  | some hplain =>
    rcases hplain with rfl | hcontainer
    · rfl
    · cases hcontainer <;> rfl

theorem same_part {β : Type} {decode : Json → Decoded β}
    (hpart : (key, Part.required inner) ∈ partsOf place members)
    (hdecode : ∀ v v', Agree inner v v' → decode v = decode v') :
    partAt (lastMember? · members) key decode = partAt (lastMember? · members') key decode := by
  have hrel : Option.Rel (Agree inner) (lastMember? key members) (lastMember? key members') :=
    h key _ hpart
  unfold partAt
  dsimp only
  generalize lastMember? key members = o, lastMember? key members' = o' at hrel
  cases hrel with
  | none => rfl
  | some hagree => exact congrArg (under (.key key)) (hdecode _ _ hagree)

theorem same_jvmName (hname : ("name", Part.required .plain) ∈ partsOf place members)
    (hspelling : ("jvm_name", Part.spelling) ∈ partsOf place members) :
    jvmNameOf (lastMember? · members) = jvmNameOf (lastMember? · members') := by
  rw [jvmNameOf_eq, jvmNameOf_eq, ← same_text h hname]
  cases htext : textAt (lastMember? · members) "name" with
  | error => rfl
  | ok name => exact h "jvm_name" _ hspelling name (get_of_textAt htext)

theorem same_node (hpart : (key, Part.required .node) ∈ partsOf place members) :
    Views.nodeAt (viewsOf members) key = Views.nodeAt (viewsOf members') key := by
  rw [viewsOf_nodeAt, viewsOf_nodeAt]
  exact same_part h hpart fun _ _ hagree => hagree

theorem same_var (hpart : (key, Part.required .var) ∈ partsOf place members) :
    partAt (lastMember? · members) key varOf = partAt (lastMember? · members') key varOf :=
  same_part h hpart fun _ _ hagree => hagree

theorem same_function (hpart : (key, Part.required .function) ∈ partsOf place members) :
    partAt (lastMember? · members) key functionOf =
      partAt (lastMember? · members') key functionOf :=
  same_part h hpart fun _ _ hagree => hagree

theorem same_type (hpart : (key, Part.required .type) ∈ partsOf place members) :
    partAt (lastMember? · members) key typeOf = partAt (lastMember? · members') key typeOf :=
  same_part h hpart fun _ _ hagree => hagree

theorem same_nodes (hpart : (key, Part.listed .nodes) ∈ partsOf place members) :
    Views.nodesAt (viewsOf members) key = Views.nodesAt (viewsOf members') key := by
  rw [viewsOf_nodesAt, viewsOf_nodesAt]
  exact congrArg (under (.key key)) (h key _ hpart)

theorem same_parameters (hpart : (key, Part.listed .names) ∈ partsOf place members) :
    Views.parametersAt (viewsOf members) key = Views.parametersAt (viewsOf members') key := by
  rw [viewsOf_parametersAt, viewsOf_parametersAt]
  exact congrArg (under (.key key)) (h key _ hpart)

theorem same_option (hpart : (key, Part.optional) ∈ partsOf place members) :
    Views.optionAt (viewsOf members) key = Views.optionAt (viewsOf members') key := by
  rw [viewsOf_optionAt, viewsOf_optionAt]
  exact h key _ hpart key

theorem same_literal (hkind : ("kind", Part.required .plain) ∈ partsOf place members)
    (hvalue : ("value", Part.content) ∈ partsOf place members) :
    Views.literal (viewsOf members) = Views.literal (viewsOf members') := by
  unfold Views.literal
  rw [raw_viewsOf, raw_viewsOf, ← same_text h hkind]
  cases htext : textAt (lastMember? · members) "kind" with
  | error => rfl
  | ok name =>
    dsimp only [bind, Except.bind]
    split
    · rfl
    · next kind hname =>
      rw [h "value" _ hvalue name kind (get_of_textAt htext) hname]

omit h

/-- What a place defines without a class it defines in any case. -/
theorem mem_partsOf_base {part : Part} (hbase : (key, part) ∈ place.parts none) :
    (key, part) ∈ partsOf place members := by
  cases place with
  | node =>
    rw [List.mem_singleton.mp hbase]
    exact List.mem_cons_self
  | _ => exact hbase

theorem same_views (h : SameObject .node members members') :
    Views.node (viewsOf members) = Views.node (viewsOf members') := by
  unfold Views.node
  rw [raw_viewsOf, raw_viewsOf, ← same_text h (mem_partsOf_base (by decide))]
  cases htext : textAt (lastMember? · members) "_type" with
  | error => rfl
  | ok tag =>
    have hdef {key : String} {part : Part} :
        (key, part) ∈ ("_type", .required .plain) :: classParts tag →
          (key, part) ∈ partsOf .node members :=
      mem_partsOf (tag_of_textAt htext)
    dsimp only [bind, Except.bind]
    split
    · rw [same_nodes h (hdef (by decide)), same_nodes h (hdef (by decide))]
    · rw [same_var h (hdef (by decide)), same_option h (hdef (by decide))]
    · rw [same_function h (hdef (by decide)), same_parameters h (hdef (by decide)),
        same_nodes h (hdef (by decide))]
    · rw [same_node h (hdef (by decide))]
    · rw [same_var h (hdef (by decide)), same_option h (hdef (by decide))]
    · rw [same_node h (hdef (by decide)), same_node h (hdef (by decide))]
    · rw [same_node h (hdef (by decide)), same_nodes h (hdef (by decide)),
        same_nodes h (hdef (by decide))]
    · rw [same_text h (hdef (by decide)), same_node h (hdef (by decide)),
        same_nodes h (hdef (by decide))]
    · rw [same_node h (hdef (by decide)), same_nodes h (hdef (by decide))]
    · rw [same_node h (hdef (by decide))]
    · exact same_literal h (hdef (by decide)) (hdef (by decide))
    · rw [same_node h (hdef (by decide))]
    · rw [same_text h (hdef (by decide)), same_node h (hdef (by decide)),
        same_node h (hdef (by decide))]
    · rw [same_var h (hdef (by decide)), same_option h (hdef (by decide))]
    · rw [same_function h (hdef (by decide)),
        same_nodes h (hdef (by decide)), same_option h (hdef (by decide))]
    · rfl

/-- An object is read through the keys that are defined. -/
theorem agree_object (h : SameObject place members members') :
    Agree place (.object members) (.object members') := by
  cases place with
  | node => exact same_views h
  | var =>
    change varOf _ = varOf _
    unfold varOf membersOf
    dsimp only [bind, Except.bind]
    rw [same_text h (mem_partsOf_base (by decide)),
      same_jvmName h (mem_partsOf_base (by decide)) (mem_partsOf_base (by decide)),
      same_type h (mem_partsOf_base (by decide))]
  | function =>
    have htypes : Agree .types ((lastMember? "parameter_types" members).getD (.array []))
        ((lastMember? "parameter_types" members').getD (.array [])) :=
      h "parameter_types" (.listed .types) (mem_partsOf_base (by decide))
    change functionOf _ = functionOf _
    unfold functionOf membersOf
    dsimp only [bind, Except.bind]
    rw [same_text h (mem_partsOf_base (by decide)),
      same_jvmName h (mem_partsOf_base (by decide)) (mem_partsOf_base (by decide)),
      same_type h (mem_partsOf_base (by decide))]
    cases hlist : listOf ((lastMember? "parameter_types" members).getD (.array [])) <;>
      cases hlist' : listOf ((lastMember? "parameter_types" members').getD (.array [])) <;>
      simp only [Agree, hlist, hlist', Except.map, Except.ok.injEq, Except.error.injEq,
        reduceCtorEq] at htypes
    · rw [htypes]
    · simp only [under, Except.mapError, htypes]
  | type =>
    change typeOf _ = typeOf _
    unfold typeOf membersOf
    dsimp only [bind, Except.bind]
    rw [same_text h (mem_partsOf_base (by decide)),
      same_jvmName h (mem_partsOf_base (by decide)) (mem_partsOf_base (by decide))]
  | nodes | types | names => rfl
  | plain => exact .inr (.objects members members')

end Agreement

end JavaRender.Document
