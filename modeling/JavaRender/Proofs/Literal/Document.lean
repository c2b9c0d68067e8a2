import JavaRender.Proofs.Interchange.Reload
import JavaRender.Proofs.Json.Object

/-!
Documents of single literals. Main statement: such a document is loaded by the kind and the value of
the literal, whatever text spells the value.
-/
namespace JavaRender.Document

open Json (quoted IsPlain Spells)

/-- Loads a document whose root may be a node of any class. -/
def loadNode (text : List Char) : Except LoadError Node := do
  let v ← (Json.read .exact text).mapError (ofFault text)
  (nodeOf v).mapError .refused

/-- Loading a program is loading its root and looking at the class. -/
theorem load_eq (text : List Char) :
    load text = loadNode text >>= fun node =>
      match node with
      | .source _ _ => .ok node
      | _ => .error (.refused ⟨.notSource node.className, []⟩) := by
  rw [load, parse, loadNode]
  cases Json.read .exact text with
  | error fault => rfl
  | ok v => rfl

def literalText (kind : LiteralKind) (value : List Char) : List Char :=
  Json.objectText [("_type", quoted "Literal".toList), ("value", value),
    ("kind", quoted kind.name.toList)]

theorem loadNode_literal (kind : LiteralKind) {value : List Char} {v : Json} (h : Spells value v) :
    loadNode (literalText kind value) =
      (Node.literal <$> under (.key "value") (literalOf kind v)).mapError .refused := by
  have hnames : ∀ name ∈ ["_type", "value", "kind", "Literal"], ∀ c ∈ name.toList, IsPlain c := by
    simp [IsPlain]
  have hkind : ∀ c ∈ kind.name.toList, IsPlain c := by
    cases kind <;> simp [IsPlain, LiteralKind.name]
  have hread : Json.read .exact (literalText kind value) =
      .ok (Node.tagged "Literal" [("value", v), ("kind", .string kind.name)]) := by
    apply Json.read_objectText
    · refine .cons ⟨rfl, hnames "_type" (by decide), ?_⟩ ?_
      · exact Json.spells_text (hnames "Literal" (by decide))
      · refine .cons ⟨rfl, hnames "value" (by decide), h⟩ ?_
        exact .cons ⟨rfl, hnames "kind" (by decide), Json.spells_text hkind⟩ .nil
    · exact List.cons_ne_nil _ _
  rw [loadNode, hread, ← nodeOf_literal]
  rfl

end JavaRender.Document
