import JavaRender.Proofs.Loading.Origin

/-!
Paths of load errors. A path can be followed from the value that is loaded, step by step, and every
part that it leads through would be refused alone with the rest of the path. Main statement: what is
told about a value is the same wherever the value hangs, but for the name of that place in front of
the path.
-/
namespace JavaRender.Document

open Json (lastMember?)

def part? : Step → Json → Option Json
  | .key key, .object members => lastMember? key members
  | .index i, .array items => items[i]?
  | _, _ => none

def follow : List Step → Json → Option Json
  | [], v => some v
  | step :: rest, v => (part? step v).bind (follow rest)

/-- From a value in a place a path leads to a value that stands in a place again. -/
inductive Stands : Place → Json → List Step → Place → Json → Prop
  | here (place : Place) (v : Json) : Stands place v [] place v
  | member {place inner : Place} {members : List (String × Json)} {key : String} {part : Part}
      {v w : Json} {steps : List Step} (defined : (key, part) ∈ partsOf place members)
      (present : lastMember? key members = some v) (rest : Stands part.place v steps inner w) :
      Stands place (.object members) (.key key :: steps) inner w
  | element {place inner : Place} {items : List Json} {i : Nat} {v w : Json} {steps : List Step}
      (item : items[i]? = some v) (rest : Stands place.element v steps inner w) :
      Stands place (.array items) (.index i :: steps) inner w

def NodeAt (v : Json) (steps : List Step) (w : Json) : Prop := Stands .node v steps .node w

structure Complaint where
  message : String
  path : String
deriving DecidableEq, Repr

def loadAt (start : String) (v : Json) : Except Complaint Node :=
  (nodeOf v).mapError fun r => ⟨r.cause.message, pathText start r.steps⟩

section Paths

variable {place inner : Place} {v w : Json} {cause : Cause} {front back steps : List Step}

theorem Stands.follow (h : Stands place v steps inner w) : follow steps v = some w := by
  induction h with
  | here => rfl
  | member _ present _ ih => rw [Document.follow, part?, present, Option.bind_some, ih]
  | element item _ ih => rw [Document.follow, part?, item, Option.bind_some, ih]

/-- A member that a path leads through is refused in its place. -/
theorem Fails.of_member {members : List (String × Json)} {key : String} {part : Part}
    (h : Fails place (.object members) ⟨cause, .key key :: steps⟩)
    (defined : (key, part) ∈ partsOf place members) (present : lastMember? key members = some v) :
    Fails part.place v ⟨cause, steps⟩ := by
  cases h.origin with
  | own hown => cases hown.here
  | valueless _ _ absent _ =>
    rw [absent] at present
    cases present
  | member defined' present' hpart =>
    cases part_unique defined defined'
    cases present.symm.trans present'
    exact hpart

/-- An element that a path leads through is refused in its place. -/
theorem Fails.of_element {items : List Json} {i : Nat}
    (h : Fails place (.array items) ⟨cause, .index i :: steps⟩) (item : items[i]? = some v) :
    Fails place.element v ⟨cause, steps⟩ := by
  cases h.origin with
  | own hown => cases hown.here
  | element item' hitem =>
    cases item.symm.trans item'
    exact hitem

/-- What a path leads through would be refused alone. -/
theorem Fails.along (hstands : Stands place v front inner w)
    (h : Fails place v ⟨cause, front ++ back⟩) : Fails inner w ⟨cause, back⟩ := by
  induction hstands with
  | here => exact h
  | member defined present _ ih => exact ih (h.of_member defined present)
  | element item _ ih => exact ih (h.of_element item)

end Paths

section Messages

variable {place : Place} {members : List (String × Json)}

theorem head_append {s : String} {c : Char} (t : String) (h : s.toList.head? = some c) :
    (s ++ t).toList.head? = some c := by
  rw [String.toList_append, List.head?_append, h]
  rfl

/-- The other messages begin with other letters. -/
theorem head_message (cause : Cause) :
    (∃ key, cause = .missingKey key) ∨ ∃ c, cause.message.toList.head? = some c ∧ c ≠ 'M' := by
  cases cause with
  | missingKey key => exact .inl ⟨key, rfl⟩
  | notParameterName | notBoolean | notInteger | notDecimal | notCharacter | notText =>
    exact .inr ⟨'E', by decide, by decide⟩
  | notObject | notList | notString | notSource =>
    exact .inr ⟨'E', head_append _ (by decide), by decide⟩
  | unknownType | unknownClass | unknownKind =>
    exact .inr ⟨'U', head_append _ (by decide), by decide⟩
  | badInteger | badDecimal | tooDeep | tooManyDigits =>
    exact .inr ⟨'I', head_append _ (by decide), by decide⟩
  | flawed =>
    refine .inr ⟨'I', ?_, by decide⟩
    iterate 5 refine head_append _ ?_
    exact head_append _ (by decide)
  | notFinite => exact .inr ⟨'D', head_append _ (by decide), by decide⟩
  | notUtf8 => exact .inr ⟨'F', head_append _ (by decide), by decide⟩

/-- Only a missing key is said to be missing. -/
theorem cause_of_message {cause : Cause} {key : String}
    (h : cause.message = (Cause.missingKey key).message) : ∃ key', cause = .missingKey key' := by
  have hmissing : (Cause.missingKey key).message.toList.head? = some 'M' :=
    head_append _ (by decide)
  rcases head_message cause with hkey | ⟨c, hc, hother⟩
  · exact hkey
  · rw [h, hmissing] at hc
    exact absurd (Option.some.inj hc).symm hother

/-- A character that is quoted without a backslash stands for itself. -/
theorem escapeChar_unescaped (quote c : Char) :
    Quoted.escapeChar quote c = [c] ∨ '\\' ∈ Quoted.escapeChar quote c := by
  unfold Quoted.escapeChar Quoted.hexEscape
  split_ifs
  all_goals first
    | exact .inr List.mem_cons_self
    | exact .inl rfl

/-- A text that is quoted without an escape stands between the marks as it is. -/
theorem chars_of_unescaped {cs : List Char} (h : '\\' ∉ Quoted.chars cs) :
    Quoted.chars cs = Quoted.mark cs :: (cs ++ [Quoted.mark cs]) := by
  have hself : ∀ c ∈ cs, Quoted.escapeChar (Quoted.mark cs) c = [c] := by
    intro c hc
    refine (escapeChar_unescaped _ c).resolve_right fun hmem => h ?_
    exact List.mem_append_left _ (List.mem_cons_of_mem _ (List.mem_flatMap.mpr ⟨c, hc, hmem⟩))
  rw [Quoted.chars, List.flatMap_congr hself, List.flatMap_singleton']
  rfl

/-- No key of the loader is escaped when it is quoted. -/
theorem unescaped_parts (tag : Option String) (place : Place) :
    ∀ p ∈ place.parts tag, '\\' ∉ Quoted.chars p.1.toList := by
  have hclass : ∀ tag, ∀ p ∈ classParts tag, '\\' ∉ Quoted.chars p.1.toList := by
    intro tag
    unfold classParts
    split <;> decide
  cases place with
  | node =>
    rw [Place.parts, List.forall_mem_cons]
    cases tag with
    | none => exact ⟨by decide, fun p h => absurd h List.not_mem_nil⟩
    | some tag => exact ⟨by decide, hclass tag⟩
  | var | function | type | nodes | types | names | plain =>
    rw [Place.parts]
    decide

/-- The message tells which key is missing. -/
theorem key_of_message {key key' : String} {part : Part} (h : (key, part) ∈ partsOf place members)
    (hmessage : (Cause.missingKey key).message = (Cause.missingKey key').message) : key = key' := by
  have hquoted : Quoted.text key = Quoted.text key' :=
    (String.append_right_inj "Missing key ").mp hmessage
  have hchars : Quoted.chars key.toList = Quoted.chars key'.toList :=
    String.ofList_injective hquoted
  have hfree := unescaped_parts _ _ _ h
  have hfree' := hfree
  rw [hchars] at hfree'
  rw [chars_of_unescaped hfree, chars_of_unescaped hfree'] at hchars
  obtain ⟨hmark, hrest⟩ := List.cons.inj hchars
  rw [hmark] at hrest
  exact String.toList_inj.mp (List.append_cancel_right hrest)

end Messages

inductive Reached (place : Place) (cause : Cause) (steps : List Step) (v : Json) : Prop
  /-- To an element, which is an object without the key if a key is said to be missing. -/
  | element {w : Json} (leads : follow steps v = some w)
      (missing : ∀ key, cause.message = (Cause.missingKey key).message →
        ∃ members, w = .object members ∧ lastMember? key members = none)
  /-- To the value that a literal does not have. -/
  | value {front : List Step} {members : List (String × Json)}
      (last : steps = front ++ [.key "value"]) (node : Stands place v front .node (.object members))
      (literal : tag? members = some "Literal") (absent : lastMember? "value" members = none)
      (given : ∀ key, cause.message ≠ (Cause.missingKey key).message)

section Reached

variable {place inner : Place} {cause : Cause} {steps : List Step} {v w : Json}

theorem message_given (h : ∀ key, cause ≠ .missingKey key) (key : String) :
    cause.message ≠ (Cause.missingKey key).message := by
  intro hmessage
  obtain ⟨key', hkey⟩ := cause_of_message hmessage
  exact h key' hkey

/-- What is reached from a part is reached behind the step to it. -/
theorem Reached.behind {step : Step} (hpart : part? step v = some w)
    (hstands : ∀ front x, Stands inner w front .node x → Stands place v (step :: front) .node x)
    (h : Reached inner cause steps w) : Reached place cause (step :: steps) v := by
  cases h with
  | element leads missing =>
    refine .element ?_ missing
    rw [follow, hpart]
    exact leads
  | @value front members last node literal absent given =>
    exact .value (congrArg (step :: ·) last) (hstands front _ node) literal absent given

/-- By induction on the path: its first step comes from a part that is refused. -/
theorem Fails.reached (h : Fails place v ⟨cause, steps⟩) : Reached place cause steps v := by
  induction steps generalizing place v with
  | nil =>
    cases h.origin with
    | own hown =>
      exact .element rfl fun key hkey => absurd hkey (message_given hown.given key)
    | missing part absent =>
      refine .element rfl fun key hkey => ?_
      cases key_of_message part hkey
      exact ⟨_, rfl, absent⟩
  | cons step rest ih =>
    cases h.origin with
    | own hown => cases hown.here
    | valueless node literal absent given =>
      subst node
      exact .value (List.nil_append _).symm (.here _ _) literal absent (message_given given)
    | member defined present hpart =>
      exact (ih hpart).behind present fun front x hx => .member defined present hx
    | element item hitem =>
      exact (ih hitem).behind item fun front x hx => .element item hx

end Reached

/-- Whether a value is loaded, its tree and the message about it do not depend on the place where it
hangs, and of the path only the name of this place does. The path behind it can be followed from the
value to an element, or up to the value that a literal lacks; if a key is said to be missing, the
element is an object without it. Each node on the path, loaded alone, gives the same message and the
rest of the path. -/
theorem complaint_points_into_document (v : Json) :
    (∃ node, ∀ start, loadAt start v = .ok node) ∨
      ∃ cause steps, (∀ start, loadAt start v = .error ⟨cause.message, pathText start steps⟩) ∧
        Reached .node cause steps v ∧
        ∀ front back w, steps = front ++ back → NodeAt v front w →
          loadAt root w = .error ⟨cause.message, pathText root back⟩ := by
  cases hload : nodeOf v with
  | ok node =>
    refine .inl ⟨node, fun start => ?_⟩
    rw [loadAt, hload]
    rfl
  | error r =>
    obtain ⟨cause, steps⟩ := r
    have hfails : Fails .node v ⟨cause, steps⟩ := hload
    refine .inr ⟨cause, steps, fun start => ?_, hfails.reached, ?_⟩
    · rw [loadAt, hload]
      rfl
    · rintro front back w rfl hnode
      have halone : nodeOf w = .error ⟨cause, back⟩ := hfails.along hnode
      rw [loadAt, halone]
      rfl

/-- A binary expression without a right operand, deep in the arguments of a call. -/
example :
    loadAt "here" (.object [("_type", .string "Call"),
      ("function", .object [("name", .string "f"), ("return_type", .string "Nil")]),
      ("arguments", .array [.object [("_type", .string "Group"),
        ("expression", .object [("_type", .string "Binary"), ("operator", .string "+"),
          ("left", .object [("_type", .string "Literal"), ("kind", .string "NIL")])])]])]) =
      .error ⟨"Missing key 'right'", "here.arguments[0].expression"⟩ := rfl

end JavaRender.Document
