import JavaRender.Proofs.Interchange.Coverage
import JavaRender.Proofs.Placement.Rendering

/-!
Programs whose nodes stand where they belong; main statement: such a program is rendered exactly
when every method has a name for each parameter type, and nothing else is a reason to refuse it. In
particular every literal that a document can hold is rendered.
-/
namespace JavaRender.Node

open JavaRender.Tree (Fault)
open Emission

def mismatch : Fault := .malformed "Method" (some "parameters") .parameterMismatch

/-- Only a source has methods below it. -/
theorem inner_children {n : Node} (h : ∀ fields methods, n ≠ .source fields methods) :
    ∀ c ∈ n.children, c.1 ≠ .method := by
  cases n with
  | source fields methods => exact absurd rfl (h fields methods)
  | _ => simp [children, or_imp, forall_and]

/-- Below a node that is no method and no source there are no methods to count names for. -/
theorem counted_inside {n : Node} {place : Place} (hplace : place ≠ .method)
    (hholds : place.holds n = true) (h : n.WellPlaced) : ∀ m ∈ n.nodes, m.Counted := by
  induction n using children_induction generalizing place with
  | h n ih =>
    have hcounted : n.Counted := by
      cases n with
      | method => cases place <;> first | exact absurd rfl hplace | cases hholds
      | _ => trivial
    have hsource : ∀ fields methods, n ≠ .source fields methods := by
      rintro fields methods rfl
      cases place <;> cases hholds
    rw [forall_nodes_iff]
    refine ⟨hcounted, fun c hc => ?_⟩
    obtain ⟨hchild, hbelow⟩ := h.child hc
    exact ih c hc (inner_children hsource c hc) hchild hbelow

theorem renderable_inside {n : Node} {place : Place} (hplace : place ≠ .method)
    (hholds : place.holds n = true) (h : n.WellPlaced) : n.Renderable :=
  h.renderable (counted_inside hplace hholds h)

section Methods

variable (function : FunRef) (parameters : List String) {ns fields methods : List Node}

/-- For a method only the number of its names can be wrong. -/
theorem counted_method (h : (method function parameters ns).WellPlaced) :
    (∀ m ∈ (method function parameters ns).nodes, m.Counted) ↔
      (method function parameters ns).Counted := by
  rw [forall_nodes_iff, and_iff_left_iff_imp]
  intro _ c hc
  obtain ⟨hchild, hbelow⟩ := h.child hc
  obtain ⟨n, hn, rfl⟩ := List.mem_map.mp hc
  exact counted_inside (by simp) hchild hbelow

theorem header_mismatch (h : ¬ (method function parameters ns).Counted) :
    Emitter.header (toTree (method function parameters ns)) = .error mismatch := by
  have hlength : (function.parameterTypes.map TypeRef.toTree).length ≠
      (parameters.map Tree.text).length := by
    rw [List.length_map, List.length_map]
    exact h
  exact if_pos hlength

/-- A method that stands in its place is written, unless the number of its names is wrong. -/
theorem decides_placedMethod (h : (method function parameters ns).WellPlaced) :
    Decides Reliable (Emitter.method (toTree (method function parameters ns)))
      (method function parameters ns).Counted (· = mismatch) anything := by
  by_cases hcounted : (method function parameters ns).Counted
  · have hrenderable : (method function parameters ns).Renderable :=
      h.renderable ((counted_method function parameters h).mpr hcounted)
    have hbody : Decides Reliable (Emitter.statements (listToTrees ns)) (∀ n ∈ ns, n.Renderable)
        anything anything := decides_listing (fun _ _ => trivial) ns fun _ _ _ => trivial
    have hwritten := decides_methodNode (fun _ _ => trivial) function parameters hbody
    exact (hwritten.certain hrenderable).congr (iff_of_true trivial hcounted)
  · have hheader := header_mismatch function parameters hcounted
    rw [toTree] at hheader ⊢
    have hrun : ∀ e, Emitter.method (.method function.toTree (.sequence true (parameters.map .text))
        (.sequence true (listToTrees ns))) e = (.error mismatch, e) := by
      intro e
      rw [Emitter.method, Emitter.methodAround, hheader]
      rfl
    exact Decides.refused hrun rfl hcounted

end Methods

section Sources

variable {fields methods : List Node} (h : (source fields methods).WellPlaced)
include h

theorem fields_written : Decides Reliable (Emitter.fields (listToTrees fields)) True (· = mismatch)
    anything := by
  have hwritten : Decides Reliable (Emitter.fields (listToTrees fields))
      (∀ n ∈ fields, Place.field.accepts n = true ∧ n.Renderable) anything anything :=
    decides_fields (fun _ _ => trivial) fields fun _ => trivial
  refine hwritten.certain fun n hn => ?_
  have hchild := h.child (List.mem_append_left _ (List.mem_map_of_mem hn))
  exact ⟨Place.accepts_of_holds hchild.1, renderable_inside (by simp) hchild.1 hchild.2⟩

/-- A source has the names it needs when its methods have theirs. -/
theorem counted_source :
    (∀ m ∈ (source fields methods).nodes, m.Counted) ↔ ∀ n ∈ methods, n.Counted := by
  rw [forall_nodes_iff]
  constructor
  · rintro ⟨-, hbelow⟩ n hn
    exact hbelow _ (List.mem_append_right _ (List.mem_map_of_mem hn)) n n.self_mem_nodes
  · intro hcounted
    refine ⟨trivial, fun c hc => ?_⟩
    obtain ⟨hholds, hplaced⟩ := h.child hc
    rcases List.mem_append.mp hc with hfield | hmethod
    · obtain ⟨n, hn, rfl⟩ := List.mem_map.mp hfield
      exact counted_inside (by simp) hholds hplaced
    · obtain ⟨n, hn, rfl⟩ := List.mem_map.mp hmethod
      cases n with
      | method function parameters ns =>
        exact (counted_method function parameters hplaced).mpr (hcounted _ hn)
      | _ => cases hholds

end Sources

theorem decides_placedMethods (first : Bool) {ns : List Node}
    (h : ∀ n ∈ ns, Place.method.holds n = true ∧ n.WellPlaced) :
    Decides Reliable (Emitter.methods first (listToTrees ns)) (∀ n ∈ ns, n.Counted) (· = mismatch)
      anything := by
  induction ns generalizing first with
  | nil =>
    have hnone : ∀ n ∈ ([] : List Node), n.Counted := fun _ hn => absurd hn List.not_mem_nil
    exact (Decides.pure trivial).congr (iff_of_true trivial hnone)
  | cons n rest ih =>
    rw [List.forall_mem_cons] at h ⊢
    obtain ⟨⟨hholds, hplaced⟩, hrest⟩ := h
    cases n with
    | method function parameters ns =>
      exact decides_methods_cons (decides_placedMethod function parameters hplaced) (ih false hrest)
    | _ => cases hholds

/-- A program with each node in its place is rendered when its methods have their names; the number
of names is all that can be wrong with it. -/
theorem render_placed {fields methods : List Node} (h : (source fields methods).WellPlaced)
    (terminator : String) :
    Verdict (∀ m ∈ (source fields methods).nodes, m.Counted) (· = mismatch) anything
      (render (source fields methods) terminator).1 := by
  rw [counted_source h]
  have hmethods := decides_placedMethods true fun n hn =>
    h.child (List.mem_append_right _ (List.mem_map_of_mem hn))
  exact generate_verdict ((decides_class (fields_written h) hmethods).congr
    (and_iff_right trivial)) terminator

end JavaRender.Node

namespace JavaRender

open Emission

theorem Document.source_of_load {text : List Char} {node : Node}
    (h : Document.load text = .ok node) : ∃ fields methods, node = .source fields methods := by
  unfold Document.load Document.parse Document.sourceOf at h
  cases hread : Json.read .exact text with
  | error fault =>
    rw [hread] at h
    cases h
  | ok v =>
    rw [hread] at h
    cases hnode : Document.nodeOf v with
    | error refusal =>
      simp only [bind, Except.bind, Except.mapError, hnode] at h
      cases h
    | ok root =>
      simp only [bind, Except.bind, Except.mapError, hnode] at h
      cases root <;> cases h
      exact ⟨_, _, rfl⟩

theorem Document.kind_of_literal (kind : LiteralKind) (v : Json) :
    Document.Gives (Document.literalOf kind v) fun l => l.kind = kind := by
  cases kind with
  | nil => exact .ok rfl
  | boolean =>
    cases v with
    | boolean b => exact .ok rfl
    | _ => exact .refuse _
  | integer => exact (Document.Gives.anything _).map fun _ _ => rfl
  | decimal => exact (Document.Gives.anything _).map fun _ _ => rfl
  | character =>
    cases v with
    | string s =>
      simp only [Document.literalOf]
      split
      · exact .ok rfl
      · exact .refuse _
    | _ => exact .refuse _
  | string =>
    cases v with
    | string s => exact .ok rfl
    | _ => exact .refuse _

/-- Every literal of a document has a text. -/
theorem literal_rendered {kind : LiteralKind} {v : Json} {l : Literal}
    (h : Document.literalOf kind v = .ok l) : ∃ s, Literal.render l.value (.kind kind) = .ok s := by
  have hkind : l.kind = kind := Document.kind_of_literal kind v l h
  have hverdict : Verdict True anything anything (Literal.render l.value (.kind l.kind)) :=
    Node.literal_verdict l
  rw [hkind] at hverdict
  cases hrender : Literal.render l.value (.kind kind) with
  | ok s => exact ⟨s, rfl⟩
  | error fault =>
    rw [hrender] at hverdict
    exact absurd trivial hverdict.1

/-- A loaded program whose nodes stand where they belong is rendered exactly when every method has a
name for each parameter type, and is otherwise refused for that. No literal that the loader lets
through is refused. -/
theorem accepted_programs_render (text : String) (node : Node) (terminator : String)
    (hload : Document.load text.toList = .ok node) (hplaced : node.WellPlaced) :
    ((∃ java, (render node terminator).1 = .ok java) ↔ ∀ m ∈ node.nodes, m.Counted) ∧
      ((¬ ∀ m ∈ node.nodes, m.Counted) → (render node terminator).1 =
        .error (.malformed "Method" (some "parameters") .parameterMismatch)) ∧
      ∀ kind v l, Document.literalOf kind v = .ok l →
        ∃ s, Literal.render l.value (.kind kind) = .ok s := by
  obtain ⟨fields, methods, rfl⟩ := Document.source_of_load hload
  have hverdict := Node.render_placed hplaced terminator
  cases hrender : (render (.source fields methods) terminator).1 with
  | ok java =>
    rw [hrender] at hverdict
    have hcounted := hverdict.1
    refine ⟨iff_of_true ⟨java, rfl⟩ hcounted, fun hmissing => absurd hcounted hmissing, ?_⟩
    exact fun kind v l => literal_rendered
  | error fault =>
    rw [hrender] at hverdict
    obtain ⟨hmissing, rfl⟩ := hverdict
    refine ⟨iff_of_false (fun ⟨_, h⟩ => nomatch h) hmissing, fun _ => rfl, ?_⟩
    exact fun kind v l => literal_rendered

def oneMethod (names : String) : String :=
  "\x7b\"_type\":\"Source\",\"methods\":[\x7b\"_type\":\"Method\",\"function\":" ++
    "\x7b\"name\":\"f\",\"return_type\":\"Nil\",\"parameter_types\":[\"Integer\"]\x7d," ++
    "\"parameters\":[" ++ names ++ "]\x7d]\x7d"

theorem accepted_oneMethod :
    (∃ node, Document.load (oneMethod "\"n\"").toList = .ok node ∧ node.WellPlaced ∧
      ∃ java, (render node "\n").1 = .ok java) ∧
    ∃ node, Document.load (oneMethod "").toList = .ok node ∧ node.WellPlaced ∧
      (render node "\n").1 =
        .error (.malformed "Method" (some "parameters") .parameterMismatch) := by
  have hnamed : (Document.load (oneMethod "\"n\"").toList).toOption.any (fun node =>
      decide (node.WellPlaced ∧ ∀ m ∈ node.nodes, m.Counted)) = true := by decide +kernel
  have hunnamed : (Document.load (oneMethod "").toList).toOption.any (fun node =>
      decide (node.WellPlaced ∧ ¬ ∀ m ∈ node.nodes, m.Counted)) = true := by decide +kernel
  constructor
  · cases hload : Document.load (oneMethod "\"n\"").toList with
    | error e =>
      rw [hload] at hnamed
      cases hnamed
    | ok node =>
      rw [hload] at hnamed
      obtain ⟨hplaced, hcounted⟩ := of_decide_eq_true hnamed
      have haccepted := accepted_programs_render (oneMethod "\"n\"") node "\n" hload hplaced
      exact ⟨node, rfl, hplaced, haccepted.1.mpr hcounted⟩
  · cases hload : Document.load (oneMethod "").toList with
    | error e =>
      rw [hload] at hunnamed
      cases hunnamed
    | ok node =>
      rw [hload] at hunnamed
      obtain ⟨hplaced, hmissing⟩ := of_decide_eq_true hunnamed
      have haccepted := accepted_programs_render (oneMethod "") node "\n" hload hplaced
      exact ⟨node, rfl, hplaced, haccepted.2.1 hmissing⟩

end JavaRender
