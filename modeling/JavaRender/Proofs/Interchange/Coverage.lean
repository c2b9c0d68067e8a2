import JavaRender.Proofs.Interchange.Reload

/-!
What documents cover; main statement: a valid tree is loaded from its document as it was, and every
tree that is loaded from any value is valid. So loading a loaded tree again changes nothing.
-/
namespace JavaRender.Document

open Json (lastMember?)
open JavaRender.Tree (FitsKind IsNode)

section Trees

/-- Trees that come from sound nodes one by one come from a list of them. -/
theorem exists_sounds (ts : List Tree) (h : ∀ t ∈ ts, ∃ n : Node, n.toTree = t ∧ Sound n) :
    ∃ ns, Node.listToTrees ns = ts ∧ ∀ n ∈ ns, Sound n := by
  induction ts with
  | nil => exact ⟨[], rfl, fun _ hn => absurd hn List.not_mem_nil⟩
  | cons t rest ih =>
    obtain ⟨n, rfl, hn⟩ := h t List.mem_cons_self
    obtain ⟨ns, rfl, hns⟩ := ih fun t ht => h t (List.mem_cons_of_mem _ ht)
    exact ⟨n :: ns, rfl, List.forall_mem_cons.mpr ⟨hn, hns⟩⟩

theorem exists_optional (t : Tree) (h : t ≠ .absent → ∃ n : Node, n.toTree = t ∧ Sound n) :
    ∃ o, Node.optionToTree o = t ∧ ∀ n ∈ o, Sound n := by
  by_cases habsent : t = .absent
  · subst habsent
    exact ⟨none, rfl, fun _ hn => nomatch hn⟩
  · obtain ⟨n, rfl, hn⟩ := h habsent
    refine ⟨some n, rfl, fun m hm => ?_⟩
    cases hm
    exact hn

theorem exists_literal {k : LiteralKind} {value : Tree} (h : FitsKind k value) :
    ∃ n : Node, n.toTree = .literal value (.kind k) ∧ Sound n := by
  cases h with
  | string s => exact ⟨.literal (.string s), rfl, .literal (.string s)⟩
  | @character s single =>
    obtain ⟨c, hc⟩ := List.length_eq_one_iff.mp ((String.length_toList (s := s)).trans single)
    have hsingle : s = String.singleton c := by
      rw [← String.toList_inj, hc, String.toList_singleton]
    subst hsingle
    exact ⟨.literal (.character c), rfl, .literal (.character single)⟩
  | integer n => exact ⟨.literal (.integer n), rfl, .literal (.integer n)⟩
  | decimal held => exact ⟨.literal (.decimal _), rfl, .literal (.decimal held)⟩
  | boolean b => exact ⟨.literal (.boolean b), rfl, .literal (.boolean b)⟩
  | nil => exact ⟨.literal .nil, rfl, .literal .nil⟩

/-- Every valid tree is the tree of a node that its document gives back. -/
theorem exists_sound {t : Tree} (h : t.IsNode) : ∃ n : Node, n.toTree = t ∧ Sound n := by
  induction h with
  | literal fits => exact exists_literal fits
  | group _ ih =>
    obtain ⟨e, rfl, he⟩ := ih
    exact ⟨.group e, rfl, .group he⟩
  | binary operator _ _ ihleft ihright =>
    obtain ⟨left, rfl, hleft⟩ := ihleft
    obtain ⟨right, rfl, hright⟩ := ihright
    exact ⟨.binary operator left right, rfl, .binary operator hleft hright⟩
  | access var _ ih =>
    obtain ⟨o, rfl, ho⟩ := exists_optional _ ih
    exact ⟨.access var o, rfl, .access var ho⟩
  | call function _ _ iharguments ihreceiver =>
    obtain ⟨ns, rfl, hns⟩ := exists_sounds _ iharguments
    obtain ⟨o, rfl, ho⟩ := exists_optional _ ihreceiver
    exact ⟨.call function ns o, rfl, .call function hns ho⟩
  | expressionStmt _ ih =>
    obtain ⟨e, rfl, he⟩ := ih
    exact ⟨.expressionStmt e, rfl, .expressionStmt he⟩
  | declaration var _ ih =>
    obtain ⟨o, rfl, ho⟩ := exists_optional _ ih
    exact ⟨.declaration var o, rfl, .declaration var ho⟩
  | assignment _ _ ihreceiver ihvalue =>
    obtain ⟨receiver, rfl, hreceiver⟩ := ihreceiver
    obtain ⟨value, rfl, hvalue⟩ := ihvalue
    exact ⟨.assignment receiver value, rfl, .assignment hreceiver hvalue⟩
  | ifElse _ _ _ ihcondition ihthen ihelse =>
    obtain ⟨condition, rfl, hcondition⟩ := ihcondition
    obtain ⟨thenStatements, rfl, hthen⟩ := exists_sounds _ ihthen
    obtain ⟨elseStatements, rfl, helse⟩ := exists_sounds _ ihelse
    exact ⟨.ifElse condition thenStatements elseStatements, rfl, .ifElse hcondition hthen helse⟩
  | forEach name _ _ ihvalue ihstatements =>
    obtain ⟨value, rfl, hvalue⟩ := ihvalue
    obtain ⟨ns, rfl, hns⟩ := exists_sounds _ ihstatements
    exact ⟨.forEach name value ns, rfl, .forEach name hvalue hns⟩
  | whileLoop _ _ ihcondition ihstatements =>
    obtain ⟨condition, rfl, hcondition⟩ := ihcondition
    obtain ⟨ns, rfl, hns⟩ := exists_sounds _ ihstatements
    exact ⟨.whileLoop condition ns, rfl, .whileLoop hcondition hns⟩
  | returnStmt _ ih =>
    obtain ⟨value, rfl, hvalue⟩ := ih
    exact ⟨.returnStmt value, rfl, .returnStmt hvalue⟩
  | field var _ ih =>
    obtain ⟨o, rfl, ho⟩ := exists_optional _ ih
    exact ⟨.field var o, rfl, .field var ho⟩
  | method function parameters _ ih =>
    obtain ⟨ns, rfl, hns⟩ := exists_sounds _ ih
    exact ⟨.method function parameters ns, rfl, .method function parameters hns⟩
  | source _ _ ihfields ihmethods =>
    obtain ⟨fields, rfl, hfields⟩ := exists_sounds _ ihfields
    obtain ⟨methods, rfl, hmethods⟩ := exists_sounds _ ihmethods
    exact ⟨.source fields methods, rfl, .source hfields hmethods⟩

end Trees

def Gives {α : Type} (d : Decoded α) (p : α → Prop) : Prop := ∀ a, d = .ok a → p a

namespace Gives

variable {α β : Type} {p : α → Prop} {q : β → Prop}

theorem ok {a : α} (h : p a) : Gives (.ok a) p := by
  intro b hb
  cases hb
  exact h

theorem refuse (cause : Cause) : Gives (refuse cause : Decoded α) p := fun _ h => nomatch h

theorem anything (d : Decoded α) : Gives d fun _ => True := fun _ _ => trivial

theorem bind {d : Decoded α} {f : α → Decoded β} (hd : Gives d p)
    (hf : ∀ a, p a → Gives (f a) q) : Gives (d >>= f) q := by
  intro b hb
  cases d with
  | error r => cases hb
  | ok a => exact hf a (hd a rfl) b hb

theorem map {d : Decoded α} {f : α → β} (hd : Gives d p) (hf : ∀ a, p a → q (f a)) :
    Gives (f <$> d) q := by
  intro b hb
  cases d with
  | error r => cases hb
  | ok a =>
    cases hb
    exact hf a (hd a rfl)

theorem under {d : Decoded α} (step : Step) (hd : Gives d p) :
    Gives (Document.under step d) p := by
  intro a ha
  cases d with
  | error r => cases ha
  | ok b => exact hd a ha

end Gives

/-- What the numeral of a decimal literal gives is in range. -/
theorem gives_decimal {v : Json} (h : v.InRange) :
    Gives (decimalOf v) fun d => d.inRange = true := by
  unfold decimalOf
  cases v with
  | string s =>
    dsimp only
    cases hread : Decimal.read? s.toList with
    | none => exact .refuse _
    | some x =>
      cases x with
      | finite d => exact .ok (Decimal.inRange_of_read hread)
      | _ => exact .refuse _
  | double x =>
    dsimp only
    cases hread : Decimal.read? (Shortest.chars x) with
    | none => exact .refuse _
    | some y =>
      cases y with
      | finite d => exact .ok (Decimal.inRange_of_read hread)
      | _ => exact .refuse _
  | whole n => exact .ok (Decimal.inRange_ofInt n)
  | number d => exact .ok h
  | _ => exact .refuse _

/-- A literal that is let through has a value of its kind. -/
theorem gives_literal {v : Json} (h : v.InRange) (kind : LiteralKind) :
    Gives (literalOf kind v) fun l => FitsKind l.kind l.value := by
  cases kind with
  | nil => exact .ok .nil
  | boolean =>
    cases v with
    | boolean b => exact .ok (.boolean b)
    | _ => exact .refuse _
  | integer => exact (Gives.anything _).map fun n _ => .integer n
  | decimal => exact (gives_decimal h).map fun d hd => .decimal hd
  | character =>
    cases v with
    | string s =>
      simp only [literalOf]
      split
      · next c _ => exact .ok (.character String.length_singleton)
      · exact .refuse _
    | _ => exact .refuse _
  | string =>
    cases v with
    | string s => exact .ok (.string s)
    | _ => exact .refuse _

structure Held (view : View) : Prop where
  literal : ∀ kind, Gives (literalOf kind view.raw) fun l => FitsKind l.kind l.value
  node : Gives view.node Sound
  nodes : Gives view.nodes fun ns => ∀ n ∈ ns, Sound n

section Members

variable {views : Views} (h : ∀ key view, lastMember? key views = some view → Held view)
include h

theorem gives_nodeAt (key : String) : Gives (views.nodeAt key) Sound := by
  rw [Views.nodeAt, partAt]
  cases hkey : lastMember? key views with
  | none => exact .refuse _
  | some view => exact (h key view hkey).node.under _

theorem gives_optionAt (key : String) :
    Gives (views.optionAt key) fun o => ∀ n ∈ o, Sound n := by
  unfold Views.optionAt
  split
  · exact .ok fun _ hn => nomatch hn
  · exact .ok fun _ hn => nomatch hn
  · next view _ hkey =>
    refine ((h key view hkey).node.under _).map fun n hn m hm => ?_
    cases hm
    exact hn

theorem gives_nodesAt (key : String) :
    Gives (views.nodesAt key) fun ns => ∀ n ∈ ns, Sound n := by
  rw [Views.nodesAt]
  cases hkey : lastMember? key views with
  | none => exact .ok fun _ hn => absurd hn List.not_mem_nil
  | some view => exact (h key view hkey).nodes.under _

theorem gives_literalNode : Gives views.literal Sound := by
  have hvalue : ∀ kind, Gives (literalOf kind ((views.raw "value").getD .null))
      fun l => FitsKind l.kind l.value := by
    intro kind
    rw [Views.raw]
    cases hkey : lastMember? "value" views with
    | none => exact gives_literal (v := .null) trivial kind
    | some view => exact (h _ view hkey).literal kind
  unfold Views.literal
  refine (Gives.anything _).bind fun name _ => ?_
  cases LiteralKind.ofName? name with
  | none => exact (Gives.refuse _).under _
  | some kind => exact ((hvalue kind).under _).map fun l hl => .literal hl

/-- One case for each class: what the class is made of is sound, and so is the node. -/
theorem gives_node : Gives views.node Sound := by
  unfold Views.node
  refine (Gives.anything _).bind fun tag _ => ?_
  split
  · refine (gives_nodesAt h _).bind fun fields hfields => ?_
    exact (gives_nodesAt h _).bind fun methods hmethods => .ok (.source hfields hmethods)
  · refine (Gives.anything _).bind fun var _ => ?_
    exact (gives_optionAt h _).bind fun value hvalue => .ok (.field var hvalue)
  · refine (Gives.anything _).bind fun function _ => (Gives.anything _).bind fun parameters _ => ?_
    exact (gives_nodesAt h _).bind fun ns hns => .ok (.method function parameters hns)
  · exact (gives_nodeAt h _).map fun e he => .expressionStmt he
  · refine (Gives.anything _).bind fun var _ => ?_
    exact (gives_optionAt h _).bind fun value hvalue => .ok (.declaration var hvalue)
  · refine (gives_nodeAt h _).bind fun receiver hreceiver => ?_
    exact (gives_nodeAt h _).bind fun value hvalue => .ok (.assignment hreceiver hvalue)
  · refine (gives_nodeAt h _).bind fun condition hcondition => ?_
    refine (gives_nodesAt h _).bind fun thenStatements hthen => ?_
    exact (gives_nodesAt h _).bind fun elseStatements helse => .ok (.ifElse hcondition hthen helse)
  · refine (Gives.anything _).bind fun name _ => (gives_nodeAt h _).bind fun value hvalue => ?_
    exact (gives_nodesAt h _).bind fun ns hns => .ok (.forEach name hvalue hns)
  · refine (gives_nodeAt h _).bind fun condition hcondition => ?_
    exact (gives_nodesAt h _).bind fun ns hns => .ok (.whileLoop hcondition hns)
  · exact (gives_nodeAt h _).map fun value hvalue => .returnStmt hvalue
  · exact gives_literalNode h
  · exact (gives_nodeAt h _).map fun e he => .group he
  · refine (Gives.anything _).bind fun operator _ => ?_
    refine (gives_nodeAt h _).bind fun left hleft => ?_
    exact (gives_nodeAt h _).bind fun right hright => .ok (.binary operator hleft hright)
  · refine (Gives.anything _).bind fun var _ => ?_
    exact (gives_optionAt h _).bind fun receiver hreceiver => .ok (.access var hreceiver)
  · refine (Gives.anything _).bind fun function _ => ?_
    refine (gives_nodesAt h _).bind fun ns hns => ?_
    exact (gives_optionAt h _).bind fun receiver hreceiver => .ok (.call function hns hreceiver)
  · exact (Gives.refuse _).under _

end Members

mutual

/-- What is loaded from a value is sound, by recursion on the value as the loader does it. -/
theorem gives_nodeOf : ∀ v : Json, v.InRange → Gives (nodeOf v) Sound
  | .object members, h => gives_node (held_viewsOf members h)
  | .null, _ | .boolean _, _ | .number _, _ | .whole _, _ | .double _, _ | .string _, _
  | .array _, _ => .refuse _

theorem gives_nodesOf : ∀ v : Json, v.InRange → Gives (nodesOf v) fun ns => ∀ n ∈ ns, Sound n
  | .array items, h => gives_nodesFrom 0 items h
  | .null, _ | .boolean _, _ | .number _, _ | .whole _, _ | .double _, _ | .string _, _
  | .object _, _ => .refuse _

theorem gives_nodesFrom (first : Nat) : ∀ items : List Json, Json.AllInRange items →
    Gives (nodesFrom first items) fun ns => ∀ n ∈ ns, Sound n
  | [], _ => .ok fun _ hn => absurd hn List.not_mem_nil
  | v :: rest, h => ((gives_nodeOf v h.1).under _).bind fun _ hn =>
      (gives_nodesFrom (first + 1) rest h.2).bind fun _ hns =>
        .ok (List.forall_mem_cons.mpr ⟨hn, hns⟩)

theorem held_viewsOf : ∀ members : List (String × Json), Json.MembersInRange members →
    ∀ key view, lastMember? key (viewsOf members) = some view → Held view
  | [], _, _, _, hview => nomatch hview
  | (k, v) :: rest, h, key, view, hview => by
    rw [viewsOf, lastMember?, Option.or_eq_some_iff] at hview
    rcases hview with hrest | ⟨-, hfirst⟩
    · exact held_viewsOf rest h.2 key view hrest
    · split at hfirst
      · cases hfirst
        exact ⟨gives_literal h.1, gives_nodeOf v h.1, gives_nodesOf v h.1⟩
      · cases hfirst

end

/-- The documents cover exactly the valid trees: a valid tree is loaded from its document as it was,
and whatever value a tree is loaded from, the tree is valid and its document loads it again. -/
theorem documents_cover_trees :
    (∀ t : Tree, t.IsNode → ∃ n : Node, n.toTree = t ∧ nodeOf n.toJson = .ok n) ∧
      ∀ (v : Json) (n : Node), v.InRange → nodeOf v = .ok n →
        n.toTree.IsNode ∧ nodeOf n.toJson = .ok n := by
  constructor
  · intro t ht
    obtain ⟨n, hn, hsound⟩ := exists_sound ht
    exact ⟨n, hn, hsound.reloads⟩
  · intro v n hv hn
    have hsound : Sound n := gives_nodeOf v hv n hn
    exact ⟨hsound.valid, hsound.reloads⟩

def tinyField : Tree :=
  .source (.sequence true [.field (VarRef.mk "x" "x_0" ⟨"Decimal", "double"⟩).toTree
    (.literal (.decimal (.finite ⟨true, 150, -40⟩)) (.kind .decimal))]) (.sequence true [])

def briefDeclaration : Json :=
  .object [("_type", .string "Declaration"), ("note", .number ⟨false, 1, 0⟩),
    ("variable", .object [("name", .string "x"), ("type", .string "Decimal")]),
    ("value", .object [("_type", .string "Literal"), ("kind", .string "DECIMAL"),
      ("value", .number ⟨false, 150, -2⟩)])]

def declared : Node :=
  .declaration ⟨"x", "x", ⟨"Decimal", "double"⟩⟩ (some (.literal (.decimal ⟨false, 150, -2⟩)))

theorem documents_cover_samples :
    (tinyField.IsNode ∧ ∃ n : Node, n.toTree = tinyField ∧ nodeOf n.toJson = .ok n) ∧
      briefDeclaration.InRange ∧ nodeOf briefDeclaration = .ok declared ∧
        declared.toTree.IsNode ∧ nodeOf declared.toJson = .ok declared := by
  have hvalid : tinyField.IsNode := by
    refine .source ?_ fun _ h => absurd h List.not_mem_nil
    intro t ht
    rw [List.mem_singleton.mp ht]
    exact .field _ fun _ => .literal (.decimal (by decide))
  have hrange : briefDeclaration.InRange := by
    have hexponent : Decimal.inRange ⟨false, 150, -2⟩ = true := by decide
    simpa [briefDeclaration, Json.InRange, Json.MembersInRange] using ⟨rfl, hexponent⟩
  have hload : nodeOf briefDeclaration = .ok declared := rfl
  exact ⟨⟨hvalid, documents_cover_trees.1 tinyField hvalid⟩, hrange, hload,
    documents_cover_trees.2 briefDeclaration declared hrange hload⟩

end JavaRender.Document
