import JavaRender.Node.Basic

/-!
Places in a program and the nodes that stand in them. Each place belongs to a closed set of classes.
Rendering is more tolerant: a declaration passes for a field, and in a list of statements every node
is written.
-/
namespace JavaRender

inductive Place where
  | field
  | method
  | statement
  | expression
deriving DecidableEq, Repr

namespace Place

/-- The classes that belong in a place. -/
def holds : Place → Node → Bool
  | field, .field _ _ => true
  | method, .method _ _ _ => true
  | statement, .expressionStmt _ => true
  | statement, .declaration _ _ => true
  | statement, .assignment _ _ => true
  | statement, .ifElse _ _ _ => true
  | statement, .forEach _ _ _ => true
  | statement, .whileLoop _ _ => true
  | statement, .returnStmt _ => true
  | expression, .literal _ => true
  | expression, .group _ => true
  | expression, .binary _ _ _ => true
  | expression, .access _ _ => true
  | expression, .call _ _ _ => true
  | _, _ => false

/-- The classes that are rendered in a place. -/
def accepts : Place → Node → Bool
  | field, .declaration _ _ => true
  | statement, _ => true
  | place, node => place.holds node

theorem accepts_of_holds {place : Place} {node : Node} (h : place.holds node = true) :
    place.accepts node = true := by
  cases place <;> cases node <;> first | rfl | exact h

theorem accepts_method (node : Node) : method.accepts node = method.holds node := by
  cases node <;> rfl

theorem accepts_statement (node : Node) : statement.accepts node = true := by
  cases node <;> rfl

theorem accepts_expression (node : Node) : expression.accepts node = expression.holds node := by
  cases node <;> rfl

end Place

namespace Node

def children : Node → List (Place × Node)
  | literal _ => []
  | group expression => [(.expression, expression)]
  | binary _ left right => [(.expression, left), (.expression, right)]
  | access _ receiver => receiver.toList.map (.expression, ·)
  | call _ arguments receiver =>
    receiver.toList.map (.expression, ·) ++ arguments.map (.expression, ·)
  | expressionStmt expression => [(.expression, expression)]
  | declaration _ value => value.toList.map (.expression, ·)
  | assignment receiver value => [(.expression, receiver), (.expression, value)]
  | ifElse condition thenStatements elseStatements =>
    (.expression, condition) :: (thenStatements.map (.statement, ·) ++
      elseStatements.map (.statement, ·))
  | forEach _ value statements => (.expression, value) :: statements.map (.statement, ·)
  | whileLoop condition statements => (.expression, condition) :: statements.map (.statement, ·)
  | returnStmt value => [(.expression, value)]
  | field _ value => value.toList.map (.expression, ·)
  | method _ _ statements => statements.map (.statement, ·)
  | source fields methods => fields.map (.field, ·) ++ methods.map (.method, ·)

mutual

def nodes : Node → List Node
  | n@(literal _) => [n]
  | n@(group expression) => n :: expression.nodes
  | n@(binary _ left right) => n :: (left.nodes ++ right.nodes)
  | n@(access _ receiver) => n :: optionNodes receiver
  | n@(call _ arguments receiver) => n :: (optionNodes receiver ++ listNodes arguments)
  | n@(expressionStmt expression) => n :: expression.nodes
  | n@(declaration _ value) => n :: optionNodes value
  | n@(assignment receiver value) => n :: (receiver.nodes ++ value.nodes)
  | n@(ifElse condition thenStatements elseStatements) =>
    n :: (condition.nodes ++ (listNodes thenStatements ++ listNodes elseStatements))
  | n@(forEach _ value statements) => n :: (value.nodes ++ listNodes statements)
  | n@(whileLoop condition statements) => n :: (condition.nodes ++ listNodes statements)
  | n@(returnStmt value) => n :: value.nodes
  | n@(field _ value) => n :: optionNodes value
  | n@(method _ _ statements) => n :: listNodes statements
  | n@(source fields methods) => n :: (listNodes fields ++ listNodes methods)

def optionNodes : Option Node → List Node
  | none => []
  | some n => n.nodes

def listNodes : List Node → List Node
  | [] => []
  | n :: rest => n.nodes ++ listNodes rest

end

theorem optionNodes_eq (o : Option Node) : optionNodes o = o.toList.flatMap nodes := by
  cases o with
  | none => rfl
  | some n => rw [optionNodes, Option.toList_some, List.flatMap_singleton]

theorem listNodes_eq (ns : List Node) : listNodes ns = ns.flatMap nodes := by
  induction ns with
  | nil => rfl
  | cons n rest ih => rw [listNodes, ih, List.flatMap_cons]

/-- The nodes below a node are those of its children. -/
theorem nodes_eq (n : Node) : n.nodes = n :: n.children.flatMap (·.2.nodes) := by
  cases n <;>
    simp only [nodes, children, optionNodes_eq, listNodes_eq, List.flatMap_nil, List.flatMap_cons,
      List.flatMap_append, List.flatMap_map, List.append_nil]

theorem self_mem_nodes (n : Node) : n ∈ n.nodes := by
  rw [nodes_eq]
  exact List.mem_cons_self

def Counted : Node → Prop
  | method function parameters _ => function.parameterTypes.length = parameters.length
  | _ => True

instance (n : Node) : Decidable n.Counted :=
  match n with
  | method function parameters _ =>
    inferInstanceAs (Decidable (function.parameterTypes.length = parameters.length))
  | literal _ | group _ | binary _ _ _ | access _ _ | call _ _ _ | expressionStmt _
  | declaration _ _ | assignment _ _ | ifElse _ _ _ | forEach _ _ _ | whileLoop _ _ | returnStmt _
  | field _ _ | source _ _ => inferInstanceAs (Decidable True)

def WellPlaced (n : Node) : Prop := ∀ m ∈ n.nodes, ∀ c ∈ m.children, c.1.holds c.2 = true

instance (n : Node) : Decidable n.WellPlaced :=
  inferInstanceAs (Decidable (∀ m ∈ n.nodes, ∀ c ∈ m.children, c.1.holds c.2 = true))

def Renderable (n : Node) : Prop :=
  ∀ m ∈ n.nodes, m.Counted ∧ ∀ c ∈ m.children, c.1.accepts c.2 = true

def HasFieldAccess (n : Node) : Prop :=
  ∃ m ∈ n.nodes, ∃ var receiver, (.field, .access var receiver) ∈ m.children

/-- What holds at all nodes of a tree holds at its root and in the trees of the children. -/
theorem forall_nodes_iff {p : Node → Prop} (n : Node) :
    (∀ m ∈ n.nodes, p m) ↔ p n ∧ ∀ c ∈ n.children, ∀ m ∈ c.2.nodes, p m := by
  rw [nodes_eq, List.forall_mem_cons]
  simp only [List.mem_flatMap, forall_exists_index, and_imp]
  exact and_congr_right fun _ =>
    ⟨fun h c hc m hm => h m c hc hm, fun h m c hc hm => h c hc m hm⟩

/-- What passes from the children of a node to the node holds at every node. -/
theorem children_induction {p : Node → Prop} (h : ∀ n : Node, (∀ c ∈ n.children, p c.2) → p n)
    (n : Node) : p n := by
  -- by the number of nodes, which is less in each child
  induction hsize : n.nodes.length using Nat.strongRecOn generalizing n with
  | _ size ih =>
    refine h n fun c hc => ih c.2.nodes.length ?_ c.2 rfl
    have hsub : c.2.nodes.Sublist (n.children.flatMap (·.2.nodes)) :=
      List.sublist_flatten_of_mem (List.mem_map_of_mem hc)
    have hle := hsub.length_le
    rw [nodes_eq, List.length_cons] at hsize
    omega

theorem WellPlaced.child {n : Node} (h : n.WellPlaced) {c : Place × Node} (hc : c ∈ n.children) :
    c.1.holds c.2 = true ∧ c.2.WellPlaced := by
  have hnodes := (forall_nodes_iff n).mp h
  exact ⟨hnodes.1 c hc, hnodes.2 c hc⟩

/-- Nodes that stand where they belong are rendered. -/
theorem WellPlaced.renderable {n : Node} (h : n.WellPlaced) (hcounted : ∀ m ∈ n.nodes, m.Counted) :
    n.Renderable :=
  fun m hm => ⟨hcounted m hm, fun c hc => Place.accepts_of_holds (h m hm c hc)⟩

def InExpression (n : Node) : Prop := Place.expression.holds n = true ∧ n.Renderable

def Fitting (cs : List (Place × Node)) : Prop :=
  ∀ c ∈ cs, c.1.accepts c.2 = true ∧ c.2.Renderable

theorem renderable_iff (n : Node) : n.Renderable ↔ n.Counted ∧ Fitting n.children := by
  unfold Renderable Fitting
  rw [forall_nodes_iff, and_assoc]
  refine and_congr_right fun _ => ⟨fun h c hc => ⟨h.1 c hc, h.2 c hc⟩, fun h => ?_⟩
  exact ⟨fun c hc => (h c hc).1, fun c hc => (h c hc).2⟩

/-- For a node of a class of expressions all that matters is what stands below it. -/
theorem inExpression_iff {n : Node} (h : Place.expression.holds n = true) :
    n.InExpression ↔ Fitting n.children := by
  have hcounted : n.Counted := by
    cases n with
    | method => cases h
    | _ => trivial
  rw [InExpression, renderable_iff, and_iff_right h, and_iff_right hcounted]

section Fitting

variable (n : Node) (ns : List Node) (o : Option Node) (cs cs' : List (Place × Node))

theorem fitting_nil : Fitting [] ↔ True :=
  iff_true_intro fun _ h => absurd h List.not_mem_nil

theorem fitting_expression :
    Fitting ((.expression, n) :: cs) ↔ n.InExpression ∧ Fitting cs := by
  rw [Fitting, List.forall_mem_cons, Place.accepts_expression]
  rfl

theorem fitting_append : Fitting (cs ++ cs') ↔ Fitting cs ∧ Fitting cs' :=
  List.forall_mem_append

theorem fitting_option :
    Fitting (o.toList.map (Place.expression, ·)) ↔ ∀ m ∈ o, m.InExpression := by
  simp only [Fitting, List.forall_mem_map, Option.mem_toList, Place.accepts_expression]
  rfl

theorem fitting_expressions :
    Fitting (ns.map (Place.expression, ·)) ↔ ∀ m ∈ ns, m.InExpression := by
  simp only [Fitting, List.forall_mem_map, Place.accepts_expression]
  rfl

theorem fitting_statements :
    Fitting (ns.map (Place.statement, ·)) ↔ ∀ m ∈ ns, m.Renderable := by
  simp only [Fitting, List.forall_mem_map, Place.accepts_statement, true_and]

theorem fitting_fields :
    Fitting (ns.map (Place.field, ·)) ↔
      ∀ m ∈ ns, Place.field.accepts m = true ∧ m.Renderable :=
  List.forall_mem_map

theorem fitting_methods :
    Fitting (ns.map (Place.method, ·)) ↔
      ∀ m ∈ ns, Place.method.holds m = true ∧ m.Renderable := by
  simp only [Fitting, List.forall_mem_map, Place.accepts_method]

end Fitting

/-- An access among the fields of the source at the root. -/
theorem hasFieldAccess_source {fields methods : List Node} {var : VarRef} {receiver : Option Node}
    (h : access var receiver ∈ fields) : (source fields methods).HasFieldAccess :=
  ⟨_, self_mem_nodes _, var, receiver, List.mem_append_left _ (List.mem_map_of_mem h)⟩

theorem HasFieldAccess.of_child {n : Node} {c : Place × Node} (hc : c ∈ n.children)
    (h : c.2.HasFieldAccess) : n.HasFieldAccess := by
  obtain ⟨m, hm, haccess⟩ := h
  refine ⟨m, ?_, haccess⟩
  rw [nodes_eq]
  exact List.mem_cons_of_mem _ (List.mem_flatMap.mpr ⟨c, hc, hm⟩)

end Node

end JavaRender
