import JavaRender.Proofs.Loading.Agreement
import Mathlib.Logic.Relation

/-!
Documents that differ in what the loader does not look at: the order of members, keys that are not
defined, defaults that are spelled out, and the value of a literal without one. One change, anywhere
in a document, is a step of a relation; main statement: values that are joined by any number of
steps, taken forwards or backwards, are loaded alike.
-/
namespace JavaRender.Document

open Json (lastMember?)

def placeAt (place : Place) (members : List (String × Json)) (key : String) : Place :=
  (((partsOf place members).lookup key).map Part.place).getD .plain

inductive Change : Place → Json → Json → Prop
  /-- Members with different keys in another order. -/
  | reordered {place : Place} {members members' : List (String × Json)}
      (distinct : (members.map (·.1)).Nodup) (perm : members.Perm members') :
      Change place (.object members) (.object members')
  /-- A member whose key is given again. -/
  | repeated {place : Place} {front back : List (String × Json)} {key : String} {v : Json}
      (again : key ∈ back.map (·.1)) :
      Change place (.object (front ++ (key, v) :: back)) (.object (front ++ back))
  /-- A member with a key that is not defined. -/
  | unknown {place : Place} {front back : List (String × Json)} {key : String} {v : Json}
      (undefined : key ∉ (partsOf place (front ++ back)).map (·.1)) :
      Change place (.object (front ++ back)) (.object (front ++ (key, v) :: back))
  /-- An empty list for one that was left out. -/
  | emptyList {place inner : Place} {front back : List (String × Json)} {key : String}
      (list : (key, Part.listed inner) ∈ partsOf place (front ++ back))
      (absent : key ∉ (front ++ back).map (·.1)) :
      Change place (.object (front ++ back)) (.object (front ++ (key, .array []) :: back))
  /-- Null for a child that was left out. -/
  | nullChild {place : Place} {front back : List (String × Json)} {key : String}
      (child : (key, Part.optional) ∈ partsOf place (front ++ back))
      (absent : key ∉ (front ++ back).map (·.1)) :
      Change place (.object (front ++ back)) (.object (front ++ (key, .null) :: back))
  /-- The name for a spelling that was left out. -/
  | sameName {place : Place} {front back : List (String × Json)} {key name : String}
      (spelled : (key, Part.spelling) ∈ partsOf place (front ++ back))
      (given : lastMember? "name" (front ++ back) = some (.string name))
      (absent : key ∉ (front ++ back).map (·.1)) :
      Change place (.object (front ++ back)) (.object (front ++ (key, .string name) :: back))
  /-- Any value, or none, for a literal that stands for nothing. -/
  | nilValue {front back : List (String × Json)} {v : Json}
      (literal : tag? (front ++ back) = some "Literal")
      (nil : lastMember? "kind" (front ++ back) = some (.string "NIL")) :
      Change .node (.object (front ++ back)) (.object (front ++ ("value", v) :: back))
  | member {place : Place} {front back : List (String × Json)} {key : String} {v v' : Json}
      (h : Change (placeAt place (front ++ (key, v) :: back) key) v v') :
      Change place (.object (front ++ (key, v) :: back)) (.object (front ++ (key, v') :: back))
  | element {place : Place} {front back : List Json} {v v' : Json} (h : Change place.element v v') :
      Change place (.array (front ++ v :: back)) (.array (front ++ v' :: back))

section Lookup

variable {α : Type} {key other : String} {v : α} {front back members members' : List (String × α)}

theorem lastMember_append :
    lastMember? key (front ++ back) = (lastMember? key back).or (lastMember? key front) := by
  induction front with
  | nil => rw [List.nil_append, lastMember?, Option.or_none]
  | cons member rest ih =>
    obtain ⟨k, v⟩ := member
    rw [List.cons_append, lastMember?, lastMember?, ih, Option.or_assoc]

theorem lastMember_eq_none : lastMember? key members = none ↔ key ∉ members.map (·.1) := by
  induction members with
  | nil => exact iff_of_true rfl List.not_mem_nil
  | cons member rest ih =>
    obtain ⟨k, v⟩ := member
    rw [lastMember?, Option.or_eq_none_iff, ih, List.map_cons, List.mem_cons, not_or]
    by_cases hk : k = key
    · simp [hk]
    · simp [hk, Ne.symm hk]

/-- A member in the middle is found if its key is not given again behind it. -/
theorem lastMember_middle :
    lastMember? key (front ++ (key, v) :: back) = (lastMember? key back).or (some v) := by
  rw [lastMember_append, lastMember?, if_pos rfl]
  cases lastMember? key back <;> rfl

theorem lastMember_other (h : other ≠ key) :
    lastMember? other (front ++ (key, v) :: back) = lastMember? other (front ++ back) := by
  rw [lastMember_append, lastMember_append, lastMember?, if_neg (Ne.symm h), Option.or_none]

theorem lastMember_perm (distinct : (members.map (·.1)).Nodup) (perm : members.Perm members') :
    lastMember? key members = lastMember? key members' := by
  induction perm with
  | nil => rfl
  | cons member _ ih =>
    obtain ⟨k, v⟩ := member
    rw [lastMember?, lastMember?, ih (List.nodup_cons.mp distinct).2]
  | swap first second rest =>
    obtain ⟨k, v⟩ := first
    obtain ⟨k', v'⟩ := second
    have hne : k' ≠ k := by
      intro heq
      subst heq
      simp at distinct
    simp only [lastMember?, Option.or_assoc]
    congr 1
    by_cases hk : k = key
    · have hk' : ¬ k' = key := fun hk' => hne (hk'.trans hk.symm)
      rw [if_pos hk, if_neg hk']
      rfl
    · rw [if_neg hk]
      cases (if k' = key then some v' else none) <;> rfl
  | trans hperm _ ih ih' =>
    exact (ih distinct).trans (ih' ((hperm.map (·.1)).nodup_iff.mp distinct))

end Lookup

section Objects

variable {place : Place} {members members' front back : List (String × Json)} {key : String}

theorem sameObject_of_eq (h : ∀ key, lastMember? key members = lastMember? key members') :
    SameObject place members members' := by
  intro key part _
  rw [← h key]
  exact Part.Same.refl _ _ part

/-- Objects that differ under one key are read alike if that key is. -/
theorem sameObject_of_key
    (hother : ∀ other, other ≠ key → lastMember? other members = lastMember? other members')
    (hkey : ∀ part, (key, part) ∈ partsOf place members →
      part.Same (lastMember? · members) (lastMember? key members) (lastMember? key members')) :
    SameObject place members members' := by
  intro other part hpart
  by_cases heq : other = key
  · subst heq
    exact hkey part hpart
  · rw [← hother other heq]
    exact Part.Same.refl _ _ part

/-- A member may be added if its value is read like the key left out. -/
theorem sameObject_insert {v : Json} (absent : key ∉ (front ++ back).map (·.1))
    (hkey : ∀ part, (key, part) ∈ partsOf place (front ++ back) →
      part.Same (lastMember? · (front ++ back)) none (some v)) :
    SameObject place (front ++ back) (front ++ (key, v) :: back) := by
  have hback : key ∉ back.map (·.1) := fun hmem =>
    absent (by rw [List.map_append]; exact List.mem_append_right _ hmem)
  refine sameObject_of_key (fun other hne => (lastMember_other hne).symm) fun part hpart => ?_
  rw [lastMember_middle, lastMember_eq_none.mpr absent, lastMember_eq_none.mpr hback]
  exact hkey part hpart

/-- A member may be exchanged if its values are read alike. -/
theorem sameObject_member {v v' : Json}
    (hkey : ∀ part, (key, part) ∈ partsOf place (front ++ (key, v) :: back) →
      part.Same (lastMember? · (front ++ (key, v) :: back)) (some v) (some v')) :
    SameObject place (front ++ (key, v) :: back) (front ++ (key, v') :: back) := by
  have hother (other : String) (hne : other ≠ key) :
      lastMember? other (front ++ (key, v) :: back) =
        lastMember? other (front ++ (key, v') :: back) := by
    rw [lastMember_other hne, lastMember_other hne]
  refine sameObject_of_key hother fun part hpart => ?_
  rw [lastMember_middle, lastMember_middle]
  cases lastMember? key back with
  | none => exact hkey part hpart
  | some _ => exact Part.Same.refl _ _ part

/-- A key that is defined has the place that its part has. -/
theorem placeAt_of_mem {part : Part} (hpart : (key, part) ∈ partsOf place members) :
    placeAt place members key = part.place := by
  obtain ⟨found, hfound⟩ := Option.isSome_iff_exists.mp
    (List.lookup_isSome_iff.mpr ⟨(key, part), hpart, beq_self_eq_true key⟩)
  obtain ⟨before, after, heq, -⟩ := List.lookup_eq_some_iff.mp hfound
  have hmem : (key, found) ∈ partsOf place members := by
    rw [heq]
    exact List.mem_append_right _ List.mem_cons_self
  rw [placeAt, hfound, part_unique hpart hmem]
  rfl

end Objects

section Steps

variable {place : Place} {v v' : Json}

/-- A change leaves an object an object and a list a list. -/
theorem Change.container (h : Change place v v') : SameContainer v v' := by
  cases h with
  | element => exact .lists _ _
  | _ => exact .objects _ _

/-- Containers of one kind are read alike where none may stand. -/
theorem Part.same_container (get : String → Option Json) {part : Part}
    (hcontainer : SameContainer v v') (hagree : Agree part.place v v') :
    part.Same get (some v) (some v') := by
  cases part with
  | required place => exact .some hagree
  | optional =>
    intro key
    have hdecode : nodeOf v = nodeOf v' := hagree
    cases hcontainer <;>
      rw [optionOf_some key Json.noConfusion, optionOf_some key Json.noConfusion, hdecode]
  | listed place => exact hagree
  | spelling =>
    intro name _
    cases hcontainer <;> rfl
  | content =>
    intro name kind _ _
    cases hcontainer <;> cases kind <;> rfl

theorem eachOf_exchange {β : Type} {decode : Json → Decoded β} (hdecode : decode v = decode v')
    (front back : List Json) (first : Nat) :
    eachOf decode first (front ++ v :: back) = eachOf decode first (front ++ v' :: back) := by
  induction front generalizing first with
  | nil => rw [List.nil_append, List.nil_append, eachOf, eachOf, hdecode]
  | cons head rest ih =>
    rw [List.cons_append, List.cons_append, eachOf, eachOf, ih]

theorem agree_element (hcontainer : SameContainer v v') (hagree : Agree place.element v v')
    (front back : List Json) :
    Agree place (.array (front ++ v :: back)) (.array (front ++ v' :: back)) := by
  cases place with
  | nodes =>
    change nodesOf _ = nodesOf _
    rw [nodesOf_array, nodesOf_array]
    exact eachOf_exchange hagree front back 0
  | types => exact congrArg Except.ok (eachOf_exchange hagree front back 0)
  | names =>
    have hname : nameOf v = nameOf v' := by cases hcontainer <;> rfl
    exact eachOf_exchange hname front back 0
  | plain => exact .inr (.lists _ _)
  | node | var | function | type => rfl

/-- One change is not noticed. -/
theorem Change.agree (h : Change place v v') : Agree place v v' := by
  induction h with
  | reordered distinct perm =>
    exact agree_object (sameObject_of_eq fun _ => lastMember_perm distinct perm)
  | @repeated place front back key v again =>
    refine agree_object (sameObject_of_eq fun other => ?_)
    by_cases heq : other = key
    · subst heq
      obtain ⟨last, hlast⟩ :=
        Option.ne_none_iff_exists'.mp fun hnone => lastMember_eq_none.mp hnone again
      rw [lastMember_middle, lastMember_append, hlast]
      rfl
    · exact lastMember_other heq
  | unknown undefined =>
    refine agree_object (sameObject_of_key (fun other hne => (lastMember_other hne).symm) ?_)
    exact fun part hpart => absurd (List.mem_map_of_mem hpart) undefined
  | emptyList list absent =>
    refine agree_object (sameObject_insert absent fun part hpart => ?_)
    rw [part_unique hpart list]
    exact Agree.refl _ _
  | nullChild child absent =>
    refine agree_object (sameObject_insert absent fun part hpart => ?_)
    rw [part_unique hpart child]
    exact fun _ => rfl
  | sameName spelled given absent =>
    refine agree_object (sameObject_insert absent fun part hpart => ?_)
    rw [part_unique hpart spelled]
    intro name hname
    cases given.symm.trans hname
    rfl
  | @nilValue front back _ literal nil =>
    have hcontent : ("value", Part.content) ∈ partsOf .node (front ++ back) :=
      mem_partsOf literal (by decide)
    refine agree_object (sameObject_of_key (fun other hne => (lastMember_other hne).symm) ?_)
    intro part hpart
    rw [part_unique hpart hcontent]
    intro name kind hname hkind
    cases nil.symm.trans hname
    cases hkind
    rfl
  | member h ih =>
    refine agree_object (sameObject_member fun part hpart => ?_)
    rw [placeAt_of_mem hpart] at ih
    exact Part.same_container _ h.container ih
  | element h ih => exact agree_element h.container ih _ _

/-- Loading does not notice how members are ordered, what is not defined, which defaults are
spelled out and what the literal without a value is given. -/
theorem loaded_alike (h : Relation.EqvGen (Change .node) v v') : nodeOf v = nodeOf v' := by
  induction h with
  | rel _ _ h => exact h.agree
  | refl => rfl
  | symm _ _ _ ih => exact ih.symm
  | trans _ _ _ _ _ ih ih' => exact ih.trans ih'

end Steps

/-- A literal without a value gets one, and the members around it change places. -/
theorem returned_nil_alike :
    nodeOf (.object [("_type", .string "Return"),
        ("value", .object [("_type", .string "Literal"), ("kind", .string "NIL")])]) =
      nodeOf (.object [("value", .object [("_type", .string "Literal"), ("kind", .string "NIL"),
        ("value", .whole 1)]), ("_type", .string "Return")]) := by
  have hvalue : Change .node (.object [("_type", .string "Literal"), ("kind", .string "NIL")])
      (.object [("_type", .string "Literal"), ("kind", .string "NIL"), ("value", .whole 1)]) :=
    @Change.nilValue [("_type", .string "Literal"), ("kind", .string "NIL")] [] _ rfl rfl
  have hmember := @Change.member .node [("_type", .string "Return")] [] "value" _ _ hvalue
  have hreordered := @Change.reordered .node _ _ (by decide) (List.Perm.swap
    ("value", .object [("_type", .string "Literal"), ("kind", .string "NIL"), ("value", .whole 1)])
    ("_type", .string "Return") [])
  exact loaded_alike (.trans _ _ _ (.rel _ _ hmember) (.rel _ _ hreordered))

end JavaRender.Document
