import JavaRender.Proofs.Emission.Construct
import JavaRender.Proofs.Placement.Sorts
import JavaRender.Compile

/-!
Rendering the tree of a loaded node. It succeeds exactly when every node stands where it is rendered
and methods have their names; otherwise the tree is refused as malformed, unless an access stands
among fields.
-/
namespace JavaRender.Node

open JavaRender.Tree (Fault)
open Emission

/-- What happens to an access among fields: it has a variable, but no value can be asked of it. -/
def fieldAccessFault : Fault := .noSlot "Access" "value"

theorem isText_name (s : String) : IsName (.text s) := .inl ⟨s, rfl⟩

theorem isType_toTree (t : TypeRef) : IsType t.toTree :=
  .inl ⟨_, _, isText_name _, rfl⟩

theorem isAbsent_toTree (n : Node) : n.toTree.isAbsent = false := by
  cases n <;> rfl

theorem literal_verdict {bad : Fault → Prop} (l : Literal) :
    Verdict True bad anything (Literal.render l.value (.kind l.kind)) := by
  cases l with
  | character c =>
    have hlength : (String.singleton c).length = 1 := by simp
    simp only [Literal.value, Literal.kind, Literal.render, Literal.kindOf, bind, Except.bind,
      Literal.valueText?, hlength, if_true]
    exact ⟨trivial, trivial⟩
  | _ => exact ⟨trivial, trivial⟩

section Expressions

variable {bad : Fault → Prop}

mutual

/-- A node in the place of an expression comes to a text, or is refused as malformed. -/
theorem decides_render (hbad : ∀ fault, IsMalformed fault → bad fault) : ∀ n : Node,
    Decides anything (Expression.render n.toTree) n.InExpression bad IsText
  | .literal l => by
    rw [inExpression_iff rfl, children, fitting_nil]
    exact decides_literal (literal_verdict l)
  | .group e => by
    rw [inExpression_iff rfl, children, fitting_expression, fitting_nil, and_true]
    exact decides_group hbad ((decides_render hbad e).weaken fun _ => .inl)
  | .binary op left right => by
    rw [inExpression_iff rfl, children, fitting_expression, fitting_expression, fitting_nil,
      and_true]
    refine (decides_binary hbad (isText_name op) ((decides_render hbad left).weaken fun _ => .inl)
      ((decides_render hbad right).weaken fun _ => .inl)).congr (and_iff_right rfl)
  | .access var receiver => by
    rw [inExpression_iff rfl, children, fitting_option]
    refine (decides_access (isText_name var.jvmName) (decides_option hbad receiver)).weaken
      fun t ht => ?_
    split at ht
    · exact ⟨_, ht⟩
    · exact ht
  | .call function arguments receiver => by
    rw [inExpression_iff rfl, children, fitting_append, fitting_option, fitting_expressions,
      and_comm]
    have harguments : Arguments bad (.sequence true (listToTrees arguments))
        (∀ n ∈ arguments, n.InExpression) := by
      refine ⟨fun _ => rfl, fun _ => ?_⟩
      refine ((decides_arguments hbad arguments).bind fun ts hts => ?_).congr (and_iff_left trivial)
      have hjoined : Verdict (∀ t ∈ ts, IsText t) bad anything (Expression.joined ts) :=
        joined_verdict (fun t ht => .inl (hts t ht)) fun habsent =>
          absurd (hts _ habsent) fun ⟨_, hs⟩ => nomatch hs
      exact Decides.lift (hjoined.congr (iff_of_true hts trivial) fun _ h => h)
    exact decides_call hbad (isText_name function.jvmName) harguments (decides_option hbad receiver)
  | .expressionStmt _ | .declaration _ _ | .assignment _ _ | .ifElse _ _ _ | .forEach _ _ _
  | .whileLoop _ _ | .returnStmt _ | .field _ _ | .method _ _ _ | .source _ _ =>
    (Decides.throw (hbad _ ⟨_, _, _, rfl⟩)).congr (iff_of_false id fun h => nomatch h.1)

theorem decides_option (hbad : ∀ fault, IsMalformed fault → bad fault) : ∀ o : Option Node,
    OptionalOperand bad (optionToTree o) (∀ n ∈ o, n.InExpression)
  | none => ⟨fun _ _ h => (nomatch h), Bool.noConfusion⟩
  | some n => by
    have hmem : (∀ m ∈ some n, m.InExpression) ↔ n.InExpression := by
      simp only [Option.mem_some_iff, forall_eq']
    refine ⟨fun h => ?_, fun _ => ?_⟩
    · rw [optionToTree, isAbsent_toTree] at h
      cases h
    · rw [hmem]
      exact (decides_render hbad n).weaken fun _ => .inl

theorem decides_arguments (hbad : ∀ fault, IsMalformed fault → bad fault) : ∀ ns : List Node,
    Decides anything (Expression.renderAll (listToTrees ns)) (∀ n ∈ ns, n.InExpression) bad
      (fun ts => ∀ t ∈ ts, IsText t)
  | [] => (Decides.pure fun _ h => absurd h List.not_mem_nil).congr
      (iff_of_true trivial fun _ h => absurd h List.not_mem_nil)
  | n :: rest => by
    rw [List.forall_mem_cons]
    refine (decides_render hbad n).bind fun t ht => ?_
    refine ((decides_arguments hbad rest).bind fun ts hts => ?_).congr (and_iff_left trivial)
    exact Decides.pure (List.forall_mem_cons.mpr ⟨ht, hts⟩)

end

variable (hbad : ∀ fault, IsMalformed fault → bad fault)
include hbad

theorem operand_toTree (n : Node) : Operand bad n.toTree n.InExpression :=
  (decides_render hbad n).weaken fun _ => .inl

theorem decides_declared (var : VarRef) (value : Option Node) :
    Decides anything (Emitter.declarationText var.toTree (optionToTree value))
      (∀ n ∈ value, n.InExpression) bad anything :=
  (decides_declarationText hbad (isText_name var.jvmName) (isType_toTree var.type)
    (decides_option hbad value)).congr (and_iff_right rfl)

/-- A node of a class of expressions is written where it is visited, without a line of its own. -/
theorem decides_bare {n : Node} (h : Place.expression.holds n = true) :
    Decides Reliable (Emitter.noting (Expression.render n.toTree) >>= Emitter.writeValue)
      n.Renderable bad anything := by
  refine ((Decides.noting (decides_render hbad n)).bind fun t ht => ?_).congr
    ((and_iff_left trivial).trans (and_iff_right h))
  obtain ⟨s, rfl⟩ := ht
  exact Decides.write s

end Expressions

section Statements

variable {bad : Fault → Prop} (hbad : ∀ fault, IsMalformed fault → bad fault)
include hbad

/-- Among fields a node needs a variable and a value. -/
theorem decides_fieldOf (n : Node)
    (hstray : (∃ var receiver, n = .access var receiver) → bad fieldAccessFault) :
    Decides Reliable (Emitter.field n.toTree) (Place.field.accepts n = true ∧ n.Renderable) bad
      anything := by
  cases n with
  | field var value =>
    rw [renderable_iff, children, fitting_option]
    refine (decides_field hbad rfl rfl (decides_declared hbad var value)).congr ?_
    exact (and_iff_right trivial).symm.trans (and_iff_right rfl).symm
  | declaration var value =>
    rw [renderable_iff, children, fitting_option]
    refine (decides_field hbad rfl rfl (decides_declared hbad var value)).congr ?_
    exact (and_iff_right trivial).symm.trans (and_iff_right rfl).symm
  | access var receiver =>
    exact Decides.refused (fun _ => rfl) (hstray ⟨var, receiver, rfl⟩) fun h => nomatch h.1
  | _ => exact Decides.refused (fun _ => rfl) (hbad _ ⟨_, _, _, rfl⟩) fun h => nomatch h.1

/-- The header of a method that has all its parts. -/
theorem header_toTree_verdict (function : FunRef) (parameters : List String) (items : List Tree) :
    Verdict (function.parameterTypes.length = parameters.length) bad
      (fun h => Verdict True bad anything h.text)
      (Emitter.header (.method function.toTree (.sequence true (parameters.map .text))
        (.sequence true items))) := by
  have hpresent : ∀ t ∈ function.parameterTypes.map TypeRef.toTree, t.isAbsent = false := by
    rw [List.forall_mem_map]
    exact fun _ _ => rfl
  have hparameters : ∀ types names,
      (Tree.sequence true (function.parameterTypes.map TypeRef.toTree)).items? = some types →
        (Tree.sequence true (parameters.map .text)).items? = some names →
          types.length = names.length →
            Verdict True bad anything (Emitter.parameterTexts types names) := by
    intro types names htypes hnames hlength
    cases htypes
    cases hnames
    refine (parameterTexts_verdict hlength ?_ ?_ fun habsent => ?_).congr
      (iff_of_true hpresent trivial) fun _ h => h
    · rw [List.forall_mem_map]
      exact fun t _ => isType_toTree t
    · rw [List.forall_mem_map]
      exact fun s _ => isText_name s
    · exact absurd (hpresent _ habsent) Bool.noConfusion
  refine (header_verdict hbad (isText_name function.jvmName) (isType_toTree function.returnType)
    hparameters).congr ?_ fun _ h => h
  have hreturn : function.returnType.toTree.isAbsent = false := rfl
  simp only [hreturn, Tree.items?, Option.isSome_some, Option.getD_some, List.length_map, true_and,
    and_true]

/-- A method is written when it has its names and its statements are written. -/
theorem decides_methodNode (function : FunRef) (parameters : List String) {ns : List Node}
    (h : Decides Reliable (Emitter.statements (listToTrees ns)) (∀ n ∈ ns, n.Renderable) bad
      anything) :
    Decides Reliable (Emitter.visit (toTree (.method function parameters ns)))
      (Renderable (.method function parameters ns)) bad anything := by
  rw [renderable_iff, children, fitting_statements]
  exact decides_methodAround (header_toTree_verdict hbad function parameters (listToTrees ns)) h

omit hbad in
theorem listing_body {ns : List Node} {good : Prop}
    (h : Decides Reliable (Emitter.statements (listToTrees ns)) good bad anything) :
    Listing bad Emitter.statements (.sequence true (listToTrees ns)) good :=
  ⟨fun _ => rfl, fun _ hitems => by cases hitems; exact h⟩

/-- Every value that is no method lacks a part of the header. -/
theorem decides_methodOf {n : Node} (h : Place.method.holds n = false) :
    Decides Reliable (Emitter.method n.toTree) (Place.method.holds n = true ∧ n.Renderable) bad
      anything := by
  cases n with
  | method => cases h
  | _ => exact Decides.refused (fun _ => rfl) (hbad _ ⟨_, _, _, rfl⟩) fun hn => nomatch hn.1

theorem decides_fields (ns : List Node)
    (hstray : (∃ n ∈ ns, ∃ var receiver, n = .access var receiver) → bad fieldAccessFault) :
    Decides Reliable (Emitter.fields (listToTrees ns))
      (∀ n ∈ ns, Place.field.accepts n = true ∧ n.Renderable) bad anything := by
  induction ns with
  | nil => exact (Decides.pure trivial).congr (iff_of_true trivial fun _ h => nomatch h)
  | cons n rest ih =>
    rw [List.forall_mem_cons]
    refine decides_fields_cons (decides_fieldOf hbad n fun h => ?_) (ih fun h => ?_)
    · exact hstray ⟨n, List.mem_cons_self, h⟩
    · obtain ⟨m, hm, haccess⟩ := h
      exact hstray ⟨m, List.mem_cons_of_mem _ hm, haccess⟩

end Statements

section Visits

variable {bad : Fault → Prop}

mutual

/-- Visiting the tree of a node writes it, or refuses it as malformed. -/
theorem decides_visit (hbad : ∀ fault, IsMalformed fault → bad fault) : ∀ n : Node,
    (n.HasFieldAccess → bad fieldAccessFault) →
    Decides Reliable (Emitter.visit n.toTree) n.Renderable bad anything
  | .source fields methods, hstray => by
    have hfields := decides_fields hbad fields fun ⟨_, hn, _, _, haccess⟩ =>
      hstray (hasFieldAccess_source (haccess ▸ hn))
    have hmethods := decides_methods hbad true methods fun n hn h =>
      hstray (h.of_child (List.mem_append_right _ (List.mem_map_of_mem hn)))
    rw [renderable_iff, children, fitting_append, fitting_fields, fitting_methods]
    refine (decides_source hbad ⟨fun _ => rfl, fun _ hitems => ?_⟩
      ⟨fun _ => rfl, fun _ hitems => ?_⟩).congr (and_iff_right trivial).symm
    · cases hitems
      exact hfields
    · cases hitems
      exact hmethods
  | .field var value, _ => by
    rw [renderable_iff, children, fitting_option]
    exact (decides_field hbad rfl rfl (decides_declared hbad var value)).congr
      (and_iff_right trivial).symm
  | .method function parameters ns, hstray =>
    decides_methodNode hbad function parameters (decides_listing hbad ns fun n hn h =>
      hstray (h.of_child (List.mem_map_of_mem hn)))
  | .expressionStmt e, _ => by
    rw [renderable_iff, children, fitting_expression, fitting_nil, and_true]
    exact (decides_expressionStmt hbad (operand_toTree hbad e)).congr (and_iff_right trivial).symm
  | .declaration var value, _ => by
    rw [renderable_iff, children, fitting_option]
    exact (decides_declaration hbad (decides_declared hbad var value)).congr
      (and_iff_right trivial).symm
  | .assignment receiver value, _ => by
    rw [renderable_iff, children, fitting_expression, fitting_expression, fitting_nil, and_true]
    exact (decides_assignment hbad (operand_toTree hbad receiver)
      (operand_toTree hbad value)).congr (and_iff_right trivial).symm
  | .ifElse condition thenStatements elseStatements, hstray => by
    have hthen := listing_body (decides_listing hbad thenStatements fun n hn h =>
      hstray (h.of_child (List.mem_cons_of_mem _ (List.mem_append_left _
        (List.mem_map_of_mem hn)))))
    have helse := listing_body (decides_listing hbad elseStatements fun n hn h =>
      hstray (h.of_child (List.mem_cons_of_mem _ (List.mem_append_right _
        (List.mem_map_of_mem hn)))))
    rw [renderable_iff, children, fitting_expression, fitting_append, fitting_statements,
      fitting_statements]
    exact (decides_ifElse hbad (operand_toTree hbad condition) hthen helse).congr
      (and_iff_right trivial).symm
  | .forEach name value ns, hstray => by
    have hbody := listing_body (decides_listing hbad ns fun n hn h =>
      hstray (h.of_child (List.mem_cons_of_mem _ (List.mem_map_of_mem hn))))
    rw [renderable_iff, children, fitting_expression, fitting_statements]
    exact (decides_forEach hbad (isText_name name) (operand_toTree hbad value) hbody).congr
      ((and_iff_right rfl).trans (and_iff_right trivial).symm)
  | .whileLoop condition ns, hstray => by
    have hbody := listing_body (decides_listing hbad ns fun n hn h =>
      hstray (h.of_child (List.mem_cons_of_mem _ (List.mem_map_of_mem hn))))
    rw [renderable_iff, children, fitting_expression, fitting_statements]
    exact (decides_whileLoop hbad (operand_toTree hbad condition) hbody).congr
      (and_iff_right trivial).symm
  | .returnStmt value, _ => by
    rw [renderable_iff, children, fitting_expression, fitting_nil, and_true]
    exact (decides_returnStmt hbad (operand_toTree hbad value)).congr (and_iff_right trivial).symm
  | .literal _, _ | .group _, _ | .binary _ _ _, _ | .access _ _, _ | .call _ _ _, _ =>
    decides_bare hbad rfl

theorem decides_listing (hbad : ∀ fault, IsMalformed fault → bad fault) : ∀ ns : List Node,
    (∀ n ∈ ns, n.HasFieldAccess → bad fieldAccessFault) →
    Decides Reliable (Emitter.statements (listToTrees ns)) (∀ n ∈ ns, n.Renderable) bad anything
  | [], _ => decides_statements_nil.congr (iff_of_true trivial fun _ h => nomatch h)
  | n :: rest, hstray => by
    rw [List.forall_mem_cons]
    exact decides_statements_cons (decides_visit hbad n (hstray n List.mem_cons_self))
      (decides_listing hbad rest fun m hm => hstray m (List.mem_cons_of_mem _ hm))

theorem decides_method (hbad : ∀ fault, IsMalformed fault → bad fault) : ∀ n : Node,
    (n.HasFieldAccess → bad fieldAccessFault) →
    Decides Reliable (Emitter.method n.toTree) (Place.method.holds n = true ∧ n.Renderable) bad
      anything
  | .method function parameters ns, hstray =>
    (decides_methodNode hbad function parameters (decides_listing hbad ns fun _ hn h =>
      hstray (h.of_child (List.mem_map_of_mem hn)))).congr (and_iff_right rfl).symm
  | .literal _, _ | .group _, _ | .binary _ _ _, _ | .access _ _, _ | .call _ _ _, _
  | .expressionStmt _, _ | .declaration _ _, _ | .assignment _ _, _ | .ifElse _ _ _, _
  | .forEach _ _ _, _ | .whileLoop _ _, _ | .returnStmt _, _ | .field _ _, _ | .source _ _, _ =>
    decides_methodOf hbad rfl

theorem decides_methods (hbad : ∀ fault, IsMalformed fault → bad fault) (first : Bool) :
    ∀ ns : List Node, (∀ n ∈ ns, n.HasFieldAccess → bad fieldAccessFault) →
    Decides Reliable (Emitter.methods first (listToTrees ns))
      (∀ n ∈ ns, Place.method.holds n = true ∧ n.Renderable) bad anything
  | [], _ => (Decides.pure trivial).congr (iff_of_true trivial fun _ h => nomatch h)
  | n :: rest, hstray => by
    rw [List.forall_mem_cons]
    exact decides_methods_cons (decides_method hbad n (hstray n List.mem_cons_self))
      (decides_methods hbad false rest fun m hm => hstray m (List.mem_cons_of_mem _ hm))

end

def Refused (n : Node) (fault : Fault) : Prop :=
  IsMalformed fault ∨ fault = fieldAccessFault ∧ n.HasFieldAccess

/-- The text of a node is made exactly when every node below it stands where it is rendered. -/
theorem render_verdict (n : Node) (terminator : String) :
    Verdict n.Renderable n.Refused anything (render n terminator).1 :=
  generate_verdict (decides_visit (fun _ => .inl) n fun h => .inr ⟨rfl, h⟩) terminator

end Visits

end JavaRender.Node
