import JavaRender.Proofs.Loading.Shape

/-!
Where a refusal of the loader comes from. A value that is refused in a place is at fault itself, or
it lacks a key, or one of its parts is refused in the place of that part, and then the refusal is
the one of the part behind one step. Nothing else can be refused.
-/
namespace JavaRender.Document

open Json (lastMember?)

def Refuses {α : Type} (d : Decoded α) (p : Refusal → Prop) : Prop := ∀ r, d = .error r → p r

namespace Refuses

variable {α β : Type} {p q : Refusal → Prop} {d : Decoded α}

theorem ok (a : α) : Refuses (.ok a) p := fun _ h => nomatch h

theorem refuse {cause : Cause} (h : p ⟨cause, []⟩) : Refuses (refuse cause : Decoded α) p := by
  intro r hr
  cases hr
  exact h

theorem mono (h : Refuses d p) (hpq : ∀ r, p r → q r) : Refuses d q := fun r hr => hpq r (h r hr)

theorem bind {f : α → Decoded β} (hd : Refuses d p) (hf : ∀ a, d = .ok a → Refuses (f a) p) :
    Refuses (d >>= f) p := by
  intro r hr
  cases d with
  | error r' =>
    cases hr
    exact hd r rfl
  | ok a => exact hf a rfl r hr

theorem map {f : α → β} (hd : Refuses d p) : Refuses (f <$> d) p := by
  intro r hr
  cases d with
  | error r' =>
    cases hr
    exact hd r rfl
  | ok a => cases hr

theorem under {step : Step} (h : Refuses d fun r => p ⟨r.cause, step :: r.steps⟩) :
    Refuses (under step d) p := by
  intro r hr
  cases d with
  | error r' =>
    cases hr
    exact h r' rfl
  | ok a => cases hr

end Refuses

/-- A refusal of a value itself, and not because it lacks a key. -/
structure Own (r : Refusal) : Prop where
  here : r.steps = []
  given : ∀ key, r.cause ≠ .missingKey key

theorem own_of {cause : Cause} (h : ∀ key, cause ≠ .missingKey key) : Own ⟨cause, []⟩ := ⟨rfl, h⟩

def Fails : Place → Json → Refusal → Prop
  | .node, v, r => nodeOf v = .error r
  | .nodes, v, r => nodesOf v = .error r
  | .var, v, r => varOf v = .error r
  | .function, v, r => functionOf v = .error r
  | .type, v, r => typeOf v = .error r
  | .types, v, r => listOf v >>= eachOf typeOf 0 = .error r
  | .names, v, r => namesOf v = .error r
  | .plain, _, r => Own r

inductive Origin (place : Place) : Json → Refusal → Prop
  | own {v : Json} {r : Refusal} (h : Own r) : Origin place v r
  | missing {members : List (String × Json)} {key : String} {inner : Place}
      (part : (key, Part.required inner) ∈ partsOf place members)
      (absent : lastMember? key members = none) :
      Origin place (.object members) ⟨.missingKey key, []⟩
  /-- The value of a literal is looked at even if there is none. -/
  | valueless {members : List (String × Json)} {cause : Cause} (node : place = .node)
      (literal : tag? members = some "Literal") (absent : lastMember? "value" members = none)
      (h : ∀ key, cause ≠ .missingKey key) : Origin place (.object members) ⟨cause, [.key "value"]⟩
  | member {members : List (String × Json)} {key : String} {part : Part} {v : Json} {r : Refusal}
      (defined : (key, part) ∈ partsOf place members) (present : lastMember? key members = some v)
      (h : Fails part.place v r) :
      Origin place (.object members) ⟨r.cause, .key key :: r.steps⟩
  | element {items : List Json} {i : Nat} {v : Json} {r : Refusal} (item : items[i]? = some v)
      (h : Fails place.element v r) : Origin place (.array items) ⟨r.cause, .index i :: r.steps⟩

section Literals

variable (v : Json)

theorem own_integerOf : Refuses (integerOf v) Own := by
  unfold integerOf
  split
  · exact .ok _
  · dsimp only
    split
    · exact .refuse (own_of (by simp))
    · exact .ok _
  · split
    · exact .ok _
    · exact .refuse (own_of (by simp))
  · exact .refuse (own_of (by simp))

theorem own_decimalOf : Refuses (decimalOf v) Own := by
  unfold decimalOf
  cases v with
  | string s =>
    dsimp only
    cases Decimal.read? s.toList with
    | none => exact .refuse (own_of (by simp))
    | some x =>
      cases x with
      | finite d => exact .ok _
      | _ => exact .refuse (own_of (by simp))
  | double x =>
    dsimp only
    cases Decimal.read? (Shortest.chars x) with
    | none => exact .refuse (own_of (by simp))
    | some y =>
      cases y with
      | finite d => exact .ok _
      | _ => exact .refuse (own_of (by simp))
  | whole | number => exact .ok _
  | _ => exact .refuse (own_of (by simp))

/-- No literal looks into its value. -/
theorem own_literalOf (kind : LiteralKind) : Refuses (literalOf kind v) Own := by
  cases kind with
  | nil => exact .ok _
  | integer => exact (own_integerOf v).map
  | decimal => exact (own_decimalOf v).map
  | boolean | string =>
    cases v with
    | boolean | string => first | exact .ok _ | exact .refuse (own_of (by simp))
    | _ => exact .refuse (own_of (by simp))
  | character =>
    cases v with
    | string s =>
      simp only [literalOf]
      split
      · exact .ok _
      · exact .refuse (own_of (by simp))
    | _ => exact .refuse (own_of (by simp))

end Literals

section Members

variable {place inner : Place} {members : List (String × Json)} {key : String}

theorem refuses_text (h : (key, Part.required .plain) ∈ partsOf place members) :
    Refuses (textAt (lastMember? · members) key) (Origin place (.object members)) := by
  unfold textAt
  split
  · next absent => exact .refuse (.missing h absent)
  · exact .ok _
  · next v _ present => exact .under (.refuse (.member h present (own_of (by simp))))

theorem refuses_spelling (hname : ("name", Part.required .plain) ∈ partsOf place members)
    (hspelling : ("jvm_name", Part.spelling) ∈ partsOf place members) :
    Refuses (jvmNameOf (lastMember? · members)) (Origin place (.object members)) := by
  unfold jvmNameOf
  refine (refuses_text hname).bind fun name _ => ?_
  split
  · exact .ok _
  · exact .ok _
  · next v _ present => exact .under (.refuse (.member hspelling present (own_of (by simp))))

theorem refuses_part {β : Type} {decode : Json → Decoded β}
    (h : (key, Part.required inner) ∈ partsOf place members)
    (hdecode : ∀ v, Refuses (decode v) (Fails inner v)) :
    Refuses (partAt (lastMember? · members) key decode) (Origin place (.object members)) := by
  unfold partAt
  split
  · next absent => exact .refuse (.missing h absent)
  · next v present => exact .under ((hdecode v).mono fun _ hr => .member h present hr)

theorem refuses_listed {β : Type} {nothing : β} (decode : Json → Decoded β)
    (h : (key, Part.listed inner) ∈ partsOf place members)
    (hdecode : ∀ v, Refuses (decode v) (Fails inner v))
    (hempty : decode (.array []) = .ok nothing) :
    Refuses (under (.key key) (decode ((lastMember? key members).getD (.array []))))
      (Origin place (.object members)) := by
  refine .under ?_
  cases hkey : lastMember? key members with
  | none =>
    rw [Option.getD_none, hempty]
    exact .ok _
  | some v => exact (hdecode v).mono fun _ hr => .member h hkey hr

theorem refuses_optional (h : (key, Part.optional) ∈ partsOf place members) :
    Refuses (optionOf key (lastMember? key members)) (Origin place (.object members)) := by
  cases hkey : lastMember? key members with
  | none => exact .ok _
  | some v =>
    by_cases hnull : v = .null
    · subst hnull
      exact .ok _
    · rw [optionOf_some key hnull]
      exact .map (.under fun r hr => .member h hkey hr)

/-- The value of a literal stands under its key, or there is none. -/
theorem refuses_literal (hplace : place = .node) (htag : tag? members = some "Literal") :
    Refuses (Views.literal (viewsOf members)) (Origin place (.object members)) := by
  subst hplace
  have hkind : ("kind", Part.required .plain) ∈ partsOf .node members :=
    mem_partsOf htag (by decide)
  have hcontent : ("value", Part.content) ∈ partsOf .node members := mem_partsOf htag (by decide)
  unfold Views.literal
  rw [raw_viewsOf]
  refine (refuses_text hkind).bind fun name hname => ?_
  split
  · obtain ⟨v, present⟩ : ∃ v, lastMember? "kind" members = some v := by
      cases hkey : lastMember? "kind" members with
      | none => simp [textAt, hkey, refuse] at hname
      | some v => exact ⟨v, rfl⟩
    exact .under (.refuse (.member hkind present (own_of (by simp))))
  · next kind _ =>
    refine .map (.under ?_)
    refine (own_literalOf _ kind).mono fun r hr => ?_
    cases hkey : lastMember? "value" members with
    | none =>
      rw [hr.here]
      exact .valueless rfl htag hkey hr.given
    | some v => exact .member hcontent hkey hr

end Members

section Descriptors

variable {members : List (String × Json)}

/-- What a list refuses is what one of its elements refuses. -/
theorem refuses_eachOf {α β : Type} (decode : α → Decoded β) (items : List α) (first : Nat) :
    Refuses (eachOf decode first items) fun r => ∃ i v r', items[i]? = some v ∧
      decode v = .error r' ∧ r = ⟨r'.cause, .index (first + i) :: r'.steps⟩ := by
  induction items generalizing first with
  | nil => exact .ok _
  | cons v rest ih =>
    refine Refuses.bind (.under fun r hr => ⟨0, v, r, rfl, hr, rfl⟩) fun x _ => ?_
    refine Refuses.bind ((ih (first + 1)).mono ?_) fun xs _ => .ok _
    rintro r ⟨i, w, r', hitem, hr, rfl⟩
    refine ⟨i + 1, w, r', hitem, hr, ?_⟩
    rw [Nat.add_right_comm, Nat.add_assoc]

theorem refuses_membersOf (place : Place) (v : Json) :
    Refuses (membersOf v) (Origin place v) := by
  cases v with
  | object members => exact .ok _
  | _ => exact .refuse (.own (own_of (by simp)))

/-- A list that is decoded one by one. -/
theorem refuses_items {β : Type} (place : Place) {decode : Json → Decoded β}
    (hdecode : ∀ v r, decode v = .error r → Fails place.element v r) (v : Json) :
    Refuses (listOf v >>= eachOf decode 0) (Origin place v) := by
  cases v with
  | array items =>
    refine Refuses.bind (.ok _) fun items' hitems => ?_
    cases hitems
    refine (refuses_eachOf decode items 0).mono ?_
    rintro r ⟨i, w, r', hitem, hr, rfl⟩
    rw [Nat.zero_add]
    exact .element hitem (hdecode w r' hr)
  | _ => exact Refuses.bind (.refuse (.own (own_of (by simp)))) fun _ h => nomatch h

theorem refuses_type (v : Json) : Refuses (typeOf v) (Origin .type v) := by
  cases v with
  | string name =>
    rw [typeOf]
    cases TypeRef.builtin? name with
    | some t => exact .ok _
    | none => exact .refuse (.own (own_of (by simp)))
  | object members =>
    have hname : ("name", Part.required .plain) ∈ partsOf .type members := List.mem_cons_self
    refine Refuses.bind (.ok _) fun get hget => ?_
    cases hget
    refine (refuses_text hname).bind fun name _ => ?_
    exact (refuses_spelling hname (List.mem_cons_of_mem _ List.mem_cons_self)).bind
      fun jvmName _ => .ok _
  | _ => exact Refuses.bind (.refuse (.own (own_of (by simp)))) fun _ h => nomatch h

theorem refuses_var (v : Json) : Refuses (varOf v) (Origin .var v) := by
  unfold varOf
  refine (refuses_membersOf .var v).bind fun get hget => ?_
  cases v with
  | object members =>
    cases hget
    have hname : ("name", Part.required .plain) ∈ partsOf .var members := List.mem_cons_self
    refine (refuses_text hname).bind fun name _ => ?_
    refine (refuses_spelling hname (List.mem_cons_of_mem _ List.mem_cons_self)).bind
      fun jvmName _ => ?_
    have htype : ("type", Part.required .type) ∈ partsOf .var members := by
      rw [partsOf, Place.parts]
      decide
    exact (refuses_part htype fun v r hr => hr).bind fun type _ => .ok _
  | _ => cases hget

theorem refuses_function (v : Json) : Refuses (functionOf v) (Origin .function v) := by
  unfold functionOf
  refine (refuses_membersOf .function v).bind fun get hget => ?_
  cases v with
  | object members =>
    cases hget
    have hname : ("name", Part.required .plain) ∈ partsOf .function members := List.mem_cons_self
    have hreturn : ("return_type", Part.required .type) ∈ partsOf .function members := by
      rw [partsOf, Place.parts]
      decide
    have htypes : ("parameter_types", Part.listed .types) ∈ partsOf .function members := by
      rw [partsOf, Place.parts]
      decide
    have hlist : Refuses (under (.key "parameter_types")
        (listOf ((lastMember? "parameter_types" members).getD (.array []))))
          (Origin .function (.object members)) :=
      refuses_listed listOf htypes (fun v r hr => congrArg (· >>= eachOf typeOf 0) hr) rfl
    refine hlist.bind fun params hparams => ?_
    refine (refuses_text hname).bind fun name _ => ?_
    refine (refuses_spelling hname (List.mem_cons_of_mem _ List.mem_cons_self)).bind
      fun jvmName _ => ?_
    refine (refuses_part hreturn fun v r hr => hr).bind fun returnType _ => ?_
    refine Refuses.bind ?_ fun parameterTypes _ => .ok _
    -- the list was found before, so its types are refused as a list of types is
    have hboth := refuses_listed (fun v => listOf v >>= eachOf typeOf 0) htypes
      (fun v r hr => hr) rfl
    cases hitems : listOf ((lastMember? "parameter_types" members).getD (.array [])) with
    | error r =>
      rw [hitems] at hparams
      cases hparams
    | ok items =>
      rw [hitems] at hparams
      cases hparams
      rw [hitems] at hboth
      exact hboth
  | _ => cases hget

end Descriptors

/-- One case for each class: its parts are refused, or the class is unknown. -/
theorem refuses_node (members : List (String × Json)) :
    Refuses (nodeOf (.object members)) (Origin .node (.object members)) := by
  have htype : ("_type", Part.required .plain) ∈ partsOf .node members := List.mem_cons_self
  rw [nodeOf]
  unfold Views.node
  rw [raw_viewsOf]
  simp only [viewsOf_nodeAt, viewsOf_nodesAt, viewsOf_optionAt, viewsOf_parametersAt]
  refine (refuses_text htype).bind fun tag htext => ?_
  have htag := tag_of_textAt htext
  have child : ∀ {key}, (key, Part.required .node) ∈ partsOf .node members →
      Refuses (partAt (lastMember? · members) key nodeOf) (Origin .node (.object members)) :=
    fun h => refuses_part h fun v r hr => hr
  have children : ∀ {key}, (key, Part.listed .nodes) ∈ partsOf .node members →
      Refuses (under (.key key) (nodesOf ((lastMember? key members).getD (.array []))))
        (Origin .node (.object members)) :=
    fun h => refuses_listed nodesOf h (fun v r hr => hr) rfl
  have var : ∀ {key}, (key, Part.required .var) ∈ partsOf .node members →
      Refuses (partAt (lastMember? · members) key varOf) (Origin .node (.object members)) :=
    fun h => refuses_part h fun v r hr => hr
  have function : ∀ {key}, (key, Part.required .function) ∈ partsOf .node members →
      Refuses (partAt (lastMember? · members) key functionOf) (Origin .node (.object members)) :=
    fun h => refuses_part h fun v r hr => hr
  split
  · refine (children (mem_partsOf htag (by decide))).bind fun fields _ => ?_
    exact (children (mem_partsOf htag (by decide))).bind fun methods _ => .ok _
  · refine (var (mem_partsOf htag (by decide))).bind fun x _ => ?_
    exact (refuses_optional (mem_partsOf htag (by decide))).bind fun value _ => .ok _
  · refine (function (mem_partsOf htag (by decide))).bind fun f _ => ?_
    have names : ("parameters", Part.listed .names) ∈ partsOf .node members :=
      mem_partsOf htag (by decide)
    refine (refuses_listed namesOf names (fun v r hr => hr) rfl).bind
      fun parameters _ => ?_
    exact (children (mem_partsOf htag (by decide))).bind fun statements _ => .ok _
  · exact (child (mem_partsOf htag (by decide))).map
  · refine (var (mem_partsOf htag (by decide))).bind fun x _ => ?_
    exact (refuses_optional (mem_partsOf htag (by decide))).bind fun value _ => .ok _
  · refine (child (mem_partsOf htag (by decide))).bind fun receiver _ => ?_
    exact (child (mem_partsOf htag (by decide))).bind fun value _ => .ok _
  · refine (child (mem_partsOf htag (by decide))).bind fun condition _ => ?_
    refine (children (mem_partsOf htag (by decide))).bind fun thenStatements _ => ?_
    exact (children (mem_partsOf htag (by decide))).bind fun elseStatements _ => .ok _
  · refine (refuses_text (mem_partsOf htag (by decide))).bind fun name _ => ?_
    refine (child (mem_partsOf htag (by decide))).bind fun value _ => ?_
    exact (children (mem_partsOf htag (by decide))).bind fun statements _ => .ok _
  · refine (child (mem_partsOf htag (by decide))).bind fun condition _ => ?_
    exact (children (mem_partsOf htag (by decide))).bind fun statements _ => .ok _
  · exact (child (mem_partsOf htag (by decide))).map
  · exact refuses_literal rfl htag
  · exact (child (mem_partsOf htag (by decide))).map
  · refine (refuses_text (mem_partsOf htag (by decide))).bind fun operator _ => ?_
    refine (child (mem_partsOf htag (by decide))).bind fun left _ => ?_
    exact (child (mem_partsOf htag (by decide))).bind fun right _ => .ok _
  · refine (var (mem_partsOf htag (by decide))).bind fun x _ => ?_
    exact (refuses_optional (mem_partsOf htag (by decide))).bind fun receiver _ => .ok _
  · refine (function (mem_partsOf htag (by decide))).bind fun f _ => ?_
    refine (children (mem_partsOf htag (by decide))).bind fun arguments _ => ?_
    exact (refuses_optional (mem_partsOf htag (by decide))).bind fun receiver _ => .ok _
  · have present : lastMember? "_type" members = some (.string tag) := get_of_textAt htext
    exact .under (.refuse (.member htype present (own_of (by simp))))

/-- Every refusal has an origin. -/
theorem Fails.origin {place : Place} {v : Json} {r : Refusal} (h : Fails place v r) :
    Origin place v r := by
  cases place with
  | node =>
    cases v with
    | object members => exact refuses_node members r h
    | _ =>
      cases h
      exact .own (own_of (by simp))
  | nodes =>
    cases v with
    | array items =>
      have heach : listOf (.array items) >>= eachOf nodeOf 0 = .error r :=
        (nodesOf_array items).symm.trans h
      exact refuses_items .nodes (fun _ _ hr => hr) (.array items) r heach
    | _ =>
      cases h
      exact .own (own_of (by simp))
  | var => exact refuses_var v r h
  | function => exact refuses_function v r h
  | type => exact refuses_type v r h
  | types => exact refuses_items .types (fun _ _ hr => hr) v r h
  | names =>
    refine refuses_items .names (fun w r' hr => ?_) v r h
    cases w with
    | string s => cases hr
    | _ =>
      cases hr
      exact own_of (by simp)
  | plain => exact .own h

end JavaRender.Document
