import JavaRender.Node.Document
import JavaRender.Proofs.Interchange.Writer
import JavaRender.Proofs.Number.Layout

/-!
Loading the documents of trees, class by class: a node is loaded from its document as it was if its
children are. Every key of a document is found again, and so is every part under it.
-/
namespace JavaRender.Document

open Json (lastMember?)
open JavaRender.Tree (FitsKind IsNode)

section Parts

theorem eachOf_map {α β : Type} {decode : α → Decoded β} {encode : β → α}
    (h : ∀ x, decode (encode x) = .ok x) (xs : List β) (first : Nat) :
    eachOf decode first (xs.map encode) = .ok xs := by
  induction xs generalizing first with
  | nil => rfl
  | cons x rest ih =>
    rw [List.map_cons, eachOf, h x, ih]
    rfl

theorem typeOf_toJson (t : TypeRef) : typeOf t.toJson = .ok t := rfl

theorem functionOf_toJson (f : FunRef) : functionOf f.toJson = .ok f := by
  have htypes := eachOf_map typeOf_toJson f.parameterTypes 0
  change (do
    let parameterTypes ← under (.key "parameter_types")
      (eachOf typeOf 0 (f.parameterTypes.map TypeRef.toJson))
    .ok (⟨f.name, f.jvmName, f.returnType, parameterTypes⟩ : FunRef)) = .ok f
  rw [htypes]
  rfl

/-- The value of a literal is read back as a literal of its kind. -/
theorem literalOf_toJson {l : Literal} (h : FitsKind l.kind l.value) :
    literalOf l.kind l.toJson = .ok l := by
  cases l with
  | string s => rfl
  | character c =>
    simp only [literalOf, Literal.kind, Literal.toJson, String.toList_singleton]
  | integer n =>
    have hdigits : ((Nat.toDigits 10 n.natAbs).isEmpty ||
        !(Nat.toDigits 10 n.natAbs).all Char.isDigit) = false := by
      rw [List.isEmpty_eq_false_iff.mpr Nat.toDigits_ne_nil,
        List.all_eq_true.mpr (Decimal.allDigits_toDigits _)]
      rfl
    have hread : integerOf (.string (toString n)) = .ok n := by
      simp only [integerOf, Decimal.readSign_int, hdigits, Bool.false_eq_true, if_false,
        Nat.ofDigitChars_ten_toDigits]
      exact congrArg Except.ok (Decimal.toInt_ofInt n)
    rw [Literal.kind, Literal.toJson, literalOf, hread]
    rfl
  | decimal d =>
    cases h with
    | decimal held =>
      have hread : decimalOf (.string d.text) = .ok d := by
        simp only [decimalOf, Decimal.read_text held]
        rfl
      rw [Literal.kind, Literal.toJson, literalOf, hread]
      rfl
  | boolean b => rfl
  | nil => rfl

end Parts

section Views

variable (key : String) {members : List (String × Json)}

theorem lastMember_viewsOf (members : List (String × Json)) :
    lastMember? key (viewsOf members) =
      (lastMember? key members).map fun v => ⟨v, nodeOf v, nodesOf v⟩ := by
  induction members with
  | nil => rfl
  | cons member rest ih =>
    obtain ⟨k, v⟩ := member
    rw [viewsOf, lastMember?, lastMember?, ih]
    by_cases hk : k = key
    · rw [if_pos hk, if_pos hk]
      cases lastMember? key rest <;> rfl
    · rw [if_neg hk, if_neg hk]
      cases lastMember? key rest <;> rfl

theorem raw_viewsOf (members : List (String × Json)) :
    Views.raw (viewsOf members) = fun key => lastMember? key members := by
  funext key
  rw [Views.raw, lastMember_viewsOf, Option.map_map]
  cases lastMember? key members <;> rfl

theorem functionAt_viewsOf {f : FunRef} (hkey : lastMember? key members = some f.toJson) :
    partAt (fun key => lastMember? key members) key functionOf = .ok f := by
  rw [partAt, hkey]
  dsimp only
  rw [functionOf_toJson]
  rfl

/-- The document of a node is read through the views of its members. -/
theorem nodeOf_tagged (tag : String) (members : List (String × Json)) :
    nodeOf (Node.tagged tag members) =
      Views.node (viewsOf (("_type", .string tag) :: members)) := by
  rw [Node.tagged, nodeOf]

theorem nodeAt_viewsOf {v : Json} {n : Node} (hkey : lastMember? key members = some v)
    (hv : nodeOf v = .ok n) : Views.nodeAt (viewsOf members) key = .ok n := by
  rw [Views.nodeAt, partAt, lastMember_viewsOf, hkey]
  simp only [Option.map_some, hv]
  rfl

theorem nodesAt_viewsOf {v : Json} {ns : List Node} (hkey : lastMember? key members = some v)
    (hv : nodesOf v = .ok ns) : Views.nodesAt (viewsOf members) key = .ok ns := by
  rw [Views.nodesAt, lastMember_viewsOf, hkey]
  simp only [Option.map_some, hv]
  rfl

theorem optionAt_viewsOf {o : Option Node}
    (hkey : lastMember? key members = some (Node.optionToJson o))
    (ho : ∀ n ∈ o, nodeOf n.toJson = .ok n) : Views.optionAt (viewsOf members) key = .ok o := by
  rw [Views.optionAt, lastMember_viewsOf, hkey]
  cases o with
  | none => rfl
  | some n =>
    have hread := ho n rfl
    obtain ⟨parts, hobject, -⟩ := n.toJson_slots
    rw [Node.optionToJson]
    rw [hobject] at hread ⊢
    simp only [Option.map_some, Node.tagged] at hread ⊢
    rw [hread]
    rfl

theorem parametersAt_viewsOf {names : List String}
    (hkey : lastMember? key members = some (.array (names.map .string))) :
    Views.parametersAt (viewsOf members) key = .ok names := by
  rw [Views.parametersAt, raw_viewsOf]
  dsimp only
  rw [hkey, Option.getD_some, listOf]
  have heach : ∀ decode : Json → Decoded String, (∀ s, decode (.string s) = .ok s) →
      eachOf decode 0 (names.map Json.string) = .ok names := fun _ h => eachOf_map h names 0
  change under (.key key) (eachOf _ 0 (names.map Json.string)) = .ok names
  rw [heach _ fun _ => rfl]
  rfl

/-- The document of a literal is loaded by its kind and its value. -/
theorem nodeOf_literal (kind : LiteralKind) (v : Json) :
    nodeOf (Node.tagged "Literal" [("value", v), ("kind", .string kind.name)]) =
      Node.literal <$> under (.key "value") (literalOf kind v) := by
  have hkind : textAt (fun key => lastMember? key
      [("_type", .string "Literal"), ("value", v), ("kind", .string kind.name)]) "kind" =
        .ok kind.name := rfl
  have hvalue : lastMember? "value"
      [("_type", .string "Literal"), ("value", v), ("kind", .string kind.name)] = some v := rfl
  have hread : Views.literal (viewsOf
      [("_type", .string "Literal"), ("value", v), ("kind", .string kind.name)]) =
        Node.literal <$> under (.key "value") (literalOf kind v) := by
    rw [Views.literal, raw_viewsOf, hkind]
    simp only [bind, Except.bind, LiteralKind.ofName?_name, hvalue, Option.getD_some]
  rw [nodeOf_tagged, Views.node, raw_viewsOf]
  exact hread

end Views

structure Sound (n : Node) : Prop where
  valid : n.toTree.IsNode
  reloads : nodeOf n.toJson = .ok n

theorem listToTrees_eq (ns : List Node) : Node.listToTrees ns = ns.map Node.toTree := by
  induction ns with
  | nil => rfl
  | cons n rest ih => rw [Node.listToTrees, ih, List.map_cons]

namespace Sound

theorem valid_all {ns : List Node} (h : ∀ n ∈ ns, Sound n) :
    ∀ t ∈ Node.listToTrees ns, t.IsNode := by
  rw [listToTrees_eq, List.forall_mem_map]
  exact fun n hn => (h n hn).valid

theorem reloads_from {ns : List Node} (h : ∀ n ∈ ns, Sound n) (first : Nat) :
    nodesFrom first (Node.listToJson ns) = .ok ns := by
  induction ns generalizing first with
  | nil => rfl
  | cons n rest ih =>
    have hrest := ih (fun m hm => h m (List.mem_cons_of_mem _ hm)) (first + 1)
    rw [Node.listToJson, nodesFrom, (h n List.mem_cons_self).reloads, hrest]
    rfl

theorem reloads_all {ns : List Node} (h : ∀ n ∈ ns, Sound n) :
    nodesOf (.array (Node.listToJson ns)) = .ok ns :=
  reloads_from h 0

theorem valid_option {o : Option Node} (h : ∀ n ∈ o, Sound n) :
    Node.optionToTree o ≠ .absent → (Node.optionToTree o).IsNode := by
  intro hpresent
  cases o with
  | none => exact absurd rfl hpresent
  | some n => exact (h n rfl).valid

theorem reloads_option {o : Option Node} (h : ∀ n ∈ o, Sound n) :
    ∀ n ∈ o, nodeOf n.toJson = .ok n :=
  fun n hn => (h n hn).reloads

section Classes

variable {e left right receiver value condition : Node} {o : Option Node}
  {ns thenStatements elseStatements fields methods : List Node}

theorem literal {l : Literal} (h : FitsKind l.kind l.value) : Sound (.literal l) := by
  refine ⟨.literal h, ?_⟩
  rw [Node.toJson, nodeOf_literal, literalOf_toJson h]
  rfl

theorem group (h : Sound e) : Sound (.group e) := by
  refine ⟨.group h.valid, ?_⟩
  rw [Node.toJson, nodeOf_tagged, Views.node, raw_viewsOf,
    nodeAt_viewsOf "expression" rfl h.reloads]
  rfl

theorem binary (operator : String) (hleft : Sound left) (hright : Sound right) :
    Sound (.binary operator left right) := by
  refine ⟨.binary operator hleft.valid hright.valid, ?_⟩
  rw [Node.toJson, nodeOf_tagged, Views.node, raw_viewsOf,
    nodeAt_viewsOf "left" rfl hleft.reloads,
    nodeAt_viewsOf "right" rfl hright.reloads]
  rfl

theorem access (var : VarRef) (h : ∀ n ∈ o, Sound n) : Sound (.access var o) := by
  refine ⟨.access var (valid_option h), ?_⟩
  rw [Node.toJson, nodeOf_tagged, Views.node, raw_viewsOf,
    optionAt_viewsOf "receiver" rfl (reloads_option h)]
  rfl

theorem call (function : FunRef) (harguments : ∀ n ∈ ns, Sound n) (hreceiver : ∀ n ∈ o, Sound n) :
    Sound (.call function ns o) := by
  refine ⟨.call function (valid_all harguments) (valid_option hreceiver), ?_⟩
  rw [Node.toJson, nodeOf_tagged, Views.node, raw_viewsOf,
    functionAt_viewsOf "function" rfl,
    nodesAt_viewsOf "arguments" rfl (reloads_all harguments),
    optionAt_viewsOf "receiver" rfl (reloads_option hreceiver)]
  rfl

theorem expressionStmt (h : Sound e) : Sound (.expressionStmt e) := by
  refine ⟨.expressionStmt h.valid, ?_⟩
  rw [Node.toJson, nodeOf_tagged, Views.node, raw_viewsOf,
    nodeAt_viewsOf "expression" rfl h.reloads]
  rfl

theorem declaration (var : VarRef) (h : ∀ n ∈ o, Sound n) : Sound (.declaration var o) := by
  refine ⟨.declaration var (valid_option h), ?_⟩
  rw [Node.toJson, nodeOf_tagged, Views.node, raw_viewsOf,
    optionAt_viewsOf "value" rfl (reloads_option h)]
  rfl

theorem assignment (hreceiver : Sound receiver) (hvalue : Sound value) :
    Sound (.assignment receiver value) := by
  refine ⟨.assignment hreceiver.valid hvalue.valid, ?_⟩
  rw [Node.toJson, nodeOf_tagged, Views.node, raw_viewsOf,
    nodeAt_viewsOf "receiver" rfl hreceiver.reloads,
    nodeAt_viewsOf "value" rfl hvalue.reloads]
  rfl

theorem ifElse (hcondition : Sound condition) (hthen : ∀ n ∈ thenStatements, Sound n)
    (helse : ∀ n ∈ elseStatements, Sound n) :
    Sound (.ifElse condition thenStatements elseStatements) := by
  refine ⟨.ifElse hcondition.valid (valid_all hthen) (valid_all helse), ?_⟩
  rw [Node.toJson, nodeOf_tagged, Views.node, raw_viewsOf,
    nodeAt_viewsOf "condition" rfl hcondition.reloads,
    nodesAt_viewsOf "then_statements" rfl (reloads_all hthen),
    nodesAt_viewsOf "else_statements" rfl (reloads_all helse)]
  rfl

theorem forEach (name : String) (hvalue : Sound value) (h : ∀ n ∈ ns, Sound n) :
    Sound (.forEach name value ns) := by
  refine ⟨.forEach name hvalue.valid (valid_all h), ?_⟩
  rw [Node.toJson, nodeOf_tagged, Views.node, raw_viewsOf,
    nodeAt_viewsOf "value" rfl hvalue.reloads,
    nodesAt_viewsOf "statements" rfl (reloads_all h)]
  rfl

theorem whileLoop (hcondition : Sound condition) (h : ∀ n ∈ ns, Sound n) :
    Sound (.whileLoop condition ns) := by
  refine ⟨.whileLoop hcondition.valid (valid_all h), ?_⟩
  rw [Node.toJson, nodeOf_tagged, Views.node, raw_viewsOf,
    nodeAt_viewsOf "condition" rfl hcondition.reloads,
    nodesAt_viewsOf "statements" rfl (reloads_all h)]
  rfl

theorem returnStmt (h : Sound value) : Sound (.returnStmt value) := by
  refine ⟨.returnStmt h.valid, ?_⟩
  rw [Node.toJson, nodeOf_tagged, Views.node, raw_viewsOf,
    nodeAt_viewsOf "value" rfl h.reloads]
  rfl

theorem field (var : VarRef) (h : ∀ n ∈ o, Sound n) : Sound (.field var o) := by
  refine ⟨.field var (valid_option h), ?_⟩
  rw [Node.toJson, nodeOf_tagged, Views.node, raw_viewsOf,
    optionAt_viewsOf "value" rfl (reloads_option h)]
  rfl

theorem method (function : FunRef) (parameters : List String) (h : ∀ n ∈ ns, Sound n) :
    Sound (.method function parameters ns) := by
  refine ⟨.method function parameters (valid_all h), ?_⟩
  rw [Node.toJson, nodeOf_tagged, Views.node, raw_viewsOf,
    functionAt_viewsOf "function" rfl,
    parametersAt_viewsOf "parameters" rfl,
    nodesAt_viewsOf "statements" rfl (reloads_all h)]
  rfl

theorem source (hfields : ∀ n ∈ fields, Sound n) (hmethods : ∀ n ∈ methods, Sound n) :
    Sound (.source fields methods) := by
  refine ⟨.source (valid_all hfields) (valid_all hmethods), ?_⟩
  rw [Node.toJson, nodeOf_tagged, Views.node, raw_viewsOf,
    nodesAt_viewsOf "fields" rfl (reloads_all hfields),
    nodesAt_viewsOf "methods" rfl (reloads_all hmethods)]
  rfl

end Classes

end Sound

end JavaRender.Document
