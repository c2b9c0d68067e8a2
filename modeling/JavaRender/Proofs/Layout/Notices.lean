import JavaRender.Proofs.Emission.Cut
import JavaRender.Proofs.Layout.Refinement
import JavaRender.Proofs.Typed.Walk

/-!
The order in which an emission comes to the expressions of a program, as a traversal of its own. It
gives the same nodes as a walk, but those of the arguments of a call before those of its receiver.
Main statement: an emission notes the operators outside the table one for one in this order, then
the size of the class, and they are those that a walk meets.
-/
namespace JavaRender.Tree

def isExpressionNode : Tree → Bool
  | literal _ _ | group _ | binary _ _ _ | access _ _ | call _ _ _ => true
  | _ => false

def unmapped? : Tree → Option String
  | binary (text op) _ _ => if (Operator.spelling? op).isSome then none else some op
  | _ => none

end JavaRender.Tree

namespace JavaRender.Typed

section Traversal

mutual

def Expr.visited : Expr → List Tree
  | e@(.literal _) => [e.toTree]
  | e@(.group inner) => e.toTree :: inner.visited
  | e@(.binary _ left right) => e.toTree :: (left.visited ++ right.visited)
  | e@(.access _ none) => [e.toTree]
  | e@(.access _ (some receiver)) => e.toTree :: receiver.visited
  | e@(.call _ arguments none) => e.toTree :: visitedAll arguments
  | e@(.call _ arguments (some receiver)) =>
    e.toTree :: (visitedAll arguments ++ receiver.visited)

def visitedAll : List Expr → List Tree
  | [] => []
  | e :: rest => e.visited ++ visitedAll rest

end

def optionVisited : Option Expr → List Tree
  | none => []
  | some e => e.visited

mutual

def Stmt.visited : Stmt → List Tree
  | .expression e => e.visited
  | .declaration _ value => optionVisited value
  | .assignment receiver value => receiver.visited ++ value.visited
  | .ifElse condition thenStatements elseStatements =>
    condition.visited ++ (stmtsVisited thenStatements ++ stmtsVisited elseStatements)
  | .forEach _ value statements => value.visited ++ stmtsVisited statements
  | .whileLoop condition statements => condition.visited ++ stmtsVisited statements
  | .returnStmt value => value.visited

def stmtsVisited : List Stmt → List Tree
  | [] => []
  | s :: rest => s.visited ++ stmtsVisited rest

end

def Source.visited (s : Source) : List Tree :=
  s.fields.flatMap (fun f => optionVisited f.value) ++
    s.methods.flatMap fun m => stmtsVisited m.statements

end Traversal

section Visits

/-- Lists with the same expressions up to their order, the second with other nodes between them. -/
def Visits (visited walked : List Tree) : Prop :=
  visited.Perm (walked.filter Tree.isExpressionNode)

namespace Visits

variable {visited visited' walked walked' : List Tree} {t : Tree}

theorem nil : Visits [] [] := List.Perm.refl _

theorem append (h : Visits visited walked) (h' : Visits visited' walked') :
    Visits (visited ++ visited') (walked ++ walked') := by
  rw [Visits, List.filter_append]
  exact List.Perm.append h h'

/-- The two parts may be visited the other way round. -/
theorem swap (h : Visits visited walked) (h' : Visits visited' walked') :
    Visits (visited' ++ visited) (walked ++ walked') :=
  List.perm_append_comm.trans (h.append h')

theorem node (ht : t.isExpressionNode = true) (h : Visits visited walked) :
    Visits (t :: visited) (t :: walked) := by
  rw [Visits, List.filter_cons_of_pos ht]
  exact List.Perm.cons t h

theorem other (ht : t.isExpressionNode = false) (h : Visits visited walked) :
    Visits visited (t :: walked) := by
  rw [Visits, List.filter_cons_of_neg (by rw [ht]; exact Bool.false_ne_true)]
  exact h

end Visits

mutual

theorem Expr.visits : ∀ e : Expr, Visits e.visited e.walked
  | .literal _ => Visits.nil.node rfl
  | .group inner => by
    rw [Expr.visited, Expr.walked]
    exact inner.visits.node rfl
  | .binary _ left right => by
    rw [Expr.visited, Expr.walked]
    exact (left.visits.append right.visits).node rfl
  | .access _ none => Visits.nil.node rfl
  | .access _ (some receiver) => by
    rw [Expr.visited, Expr.walked]
    exact receiver.visits.node rfl
  | .call _ arguments none => by
    rw [Expr.visited, Expr.walked]
    exact (visits_all arguments).node rfl
  | .call _ arguments (some receiver) => by
    rw [Expr.visited, Expr.walked]
    -- the only place where the two orders differ: a walk meets the receiver first
    exact (receiver.visits.swap (visits_all arguments)).node rfl

theorem visits_all : ∀ es : List Expr, Visits (visitedAll es) (walkedAll es)
  | [] => Visits.nil
  | e :: rest => e.visits.append (visits_all rest)

end

theorem visits_option (value : Option Expr) :
    Visits (optionVisited value) (optionWalked value) := by
  cases value with
  | none => exact Visits.nil
  | some e => exact e.visits

mutual

theorem Stmt.visits : ∀ s : Stmt, Visits s.visited s.walked
  | .expression e => by
    rw [Stmt.visited, Stmt.walked]
    exact e.visits.other rfl
  | .declaration _ value => by
    rw [Stmt.visited, Stmt.walked]
    exact (visits_option value).other rfl
  | .assignment receiver value => by
    rw [Stmt.visited, Stmt.walked]
    exact (receiver.visits.append value.visits).other rfl
  | .ifElse condition thenStatements elseStatements => by
    rw [Stmt.visited, Stmt.walked]
    have hbranches := (visits_stmts thenStatements).append (visits_stmts elseStatements)
    exact (condition.visits.append hbranches).other rfl
  | .forEach _ value statements => by
    rw [Stmt.visited, Stmt.walked]
    exact (value.visits.append (visits_stmts statements)).other rfl
  | .whileLoop condition statements => by
    rw [Stmt.visited, Stmt.walked]
    exact (condition.visits.append (visits_stmts statements)).other rfl
  | .returnStmt value => by
    rw [Stmt.visited, Stmt.walked]
    exact value.visits.other rfl

theorem visits_stmts : ∀ xs : List Stmt, Visits (stmtsVisited xs) (stmtsWalked xs)
  | [] => Visits.nil
  | s :: rest => s.visits.append (visits_stmts rest)

end

theorem visits_flatMap {α : Type} {visited walked : α → List Tree}
    (h : ∀ a, Visits (visited a) (walked a)) (as : List α) :
    Visits (as.flatMap visited) (as.flatMap walked) := by
  induction as with
  | nil => exact Visits.nil
  | cons a rest ih =>
    rw [List.flatMap_cons, List.flatMap_cons]
    exact (h a).append ih

/-- An emission comes to each expression that a walk meets, and to each once. -/
theorem Source.visits (s : Source) : Visits s.visited s.walked := by
  have hfields : Visits (s.fields.flatMap fun f => optionVisited f.value)
      (s.fields.flatMap Field.walked) :=
    visits_flatMap (fun f => (visits_option f.value).other rfl) s.fields
  have hmethods : Visits (s.methods.flatMap fun m => stmtsVisited m.statements)
      (s.methods.flatMap Method.walked) :=
    visits_flatMap (fun m => (visits_stmts m.statements).other rfl) s.methods
  exact (hfields.append hmethods).other rfl

end Visits

section Operators

def unmappedAt (nodes : List Tree) : List String := nodes.filterMap Tree.unmapped?

def unmappedNotices (ops : List String) : List Notice :=
  ops.map fun op => .unmappedOperator (Quoted.text op)

theorem unmappedNotices_append (nodes nodes' : List Tree) :
    unmappedNotices (unmappedAt (nodes ++ nodes')) =
      unmappedNotices (unmappedAt nodes) ++ unmappedNotices (unmappedAt nodes') := by
  rw [unmappedAt, List.filterMap_append, unmappedNotices, List.map_append]
  rfl

theorem unmappedNotices_binary (op : String) (left right : Tree) (rest : List Tree) :
    unmappedNotices (unmappedAt (.binary (.text op) left right :: rest)) =
      operatorNotices op ++ unmappedNotices (unmappedAt rest) := by
  rw [unmappedAt, List.filterMap_cons, Tree.unmapped?, operatorNotices]
  by_cases hknown : (Operator.spelling? op).isSome = true
  · rw [if_pos hknown, if_pos hknown]
    rfl
  · rw [if_neg hknown, if_neg hknown]
    rfl

/-- Only expressions have operators. -/
theorem unmappedAt_filter (nodes : List Tree) :
    unmappedAt (nodes.filter Tree.isExpressionNode) = unmappedAt nodes := by
  have honly (t : Tree) : (if t.isExpressionNode then t.unmapped? else none) = t.unmapped? := by
    cases t <;> rfl
  rw [unmappedAt, List.filterMap_filter]
  exact congrArg (List.filterMap · nodes) (funext honly)

/-- The same expressions have the same operators. -/
theorem Visits.unmapped {visited walked : List Tree} (h : Visits visited walked) :
    (unmappedAt visited).Perm (unmappedAt walked) := by
  have hperm := List.Perm.filterMap Tree.unmapped? h
  rwa [← unmappedAt, ← unmappedAt, unmappedAt_filter] at hperm

mutual

/-- The notices of an expression are about the operators that are met on the way. -/
theorem Expr.notices_visited : ∀ e : Expr, e.notices = unmappedNotices (unmappedAt e.visited)
  | .literal _ => rfl
  | .group inner => inner.notices_visited
  | .binary op left right => by
    rw [Expr.visited, Expr.toTree, unmappedNotices_binary, unmappedNotices_append,
      ← left.notices_visited, ← right.notices_visited]
    rfl
  | .access _ none => rfl
  | .access _ (some receiver) => receiver.notices_visited
  | .call _ arguments none => notices_visitedAll arguments
  | .call _ arguments (some receiver) => by
    have hparts := unmappedNotices_append (visitedAll arguments) receiver.visited
    rw [← notices_visitedAll arguments, ← receiver.notices_visited] at hparts
    exact hparts.symm

theorem notices_visitedAll :
    ∀ es : List Expr, exprNotices es = unmappedNotices (unmappedAt (visitedAll es))
  | [] => rfl
  | e :: rest => by
    rw [visitedAll, unmappedNotices_append, ← e.notices_visited, ← notices_visitedAll rest]
    rfl

end

theorem notices_optionVisited (value : Option Expr) :
    optionNotices value = unmappedNotices (unmappedAt (optionVisited value)) := by
  cases value with
  | none => rfl
  | some e => exact e.notices_visited

mutual

theorem Stmt.notices_visited : ∀ s : Stmt, s.notices = unmappedNotices (unmappedAt s.visited)
  | .expression e => e.notices_visited
  | .declaration _ value => notices_optionVisited value
  | .assignment receiver value => by
    rw [Stmt.visited, unmappedNotices_append, ← receiver.notices_visited, ← value.notices_visited]
    rfl
  | .ifElse condition thenStatements elseStatements => by
    rw [Stmt.visited, unmappedNotices_append, unmappedNotices_append, ← condition.notices_visited,
      ← notices_stmtsVisited thenStatements, ← notices_stmtsVisited elseStatements]
    rfl
  | .forEach _ value statements => by
    rw [Stmt.visited, unmappedNotices_append, ← value.notices_visited,
      ← notices_stmtsVisited statements]
    rfl
  | .whileLoop condition statements => by
    rw [Stmt.visited, unmappedNotices_append, ← condition.notices_visited,
      ← notices_stmtsVisited statements]
    rfl
  | .returnStmt value => value.notices_visited

theorem notices_stmtsVisited :
    ∀ xs : List Stmt, stmtNotices xs = unmappedNotices (unmappedAt (stmtsVisited xs))
  | [] => rfl
  | s :: rest => by
    rw [stmtsVisited, unmappedNotices_append, ← s.notices_visited, ← notices_stmtsVisited rest]
    rfl

end

theorem notices_flatMap {α : Type} {ns : α → List Notice} {visited : α → List Tree}
    (h : ∀ a, ns a = unmappedNotices (unmappedAt (visited a))) (as : List α) :
    as.flatMap ns = unmappedNotices (unmappedAt (as.flatMap visited)) := by
  induction as with
  | nil => rfl
  | cons a rest ih =>
    rw [List.flatMap_cons, List.flatMap_cons, unmappedNotices_append, h a, ih]

theorem Source.notices_visited (s : Source) :
    s.notices = unmappedNotices (unmappedAt s.visited) := by
  rw [Source.notices, Source.visited, unmappedNotices_append,
    notices_flatMap (fun f : Field => notices_optionVisited f.value),
    notices_flatMap (fun m : Method => notices_stmtsVisited m.statements)]

end Operators

end JavaRender.Typed

namespace JavaRender.Layout

open Typed Emission

/-- The emission of a program to a sink that takes everything succeeds and adds its notices. -/
theorem emit_notices (s : Source) {e : Emitter} (h : e.sink.failAt = none) :
    ∃ after, Emitter.emit s.toTree e = (.ok (), after) ∧ after.notices =
      e.notices ++ (s.notices ++ [.rendered s.fields.length s.methods.length]) := by
  have hwhole : Prints (Emitter.visit s.toTree >>= fun _ => modify fun e => { e with
      notices := e.notices ++ [.rendered (s.fields.map Field.toTree).length
        (s.methods.map Method.toTree).length] }) e.terminator 0 () _ _ :=
    (prints_source s e.terminator).bind (Prints.note _)
  obtain ⟨events, hplays, -, hnotices⟩ := hwhole
  have hemit : Emitter.emit s.toTree e = _ :=
    (hplays { e with level := 0 } rfl rfl).trans (playTo_spared (spares_of_none h _))
  refine ⟨_, hemit, ?_⟩
  simp only [hnotices, List.length_map]

/-- An emission notes each operator outside the table once for each of its binaries, in the order in
which it comes to them, and then the size of the class. It comes to the expressions that a walk
gives, to each once, so that the operators are those of the walk. -/
theorem emit_operators (s : Source) {e : Emitter} (h : e.sink.failAt = none) :
    ∃ nodes after, s.toTree.walk = .ok nodes ∧ Emitter.emit s.toTree e = (.ok (), after) ∧
      after.notices = e.notices ++ (unmappedNotices (unmappedAt s.visited) ++
        [.rendered s.fields.length s.methods.length]) ∧
      (unmappedAt s.visited).Perm (unmappedAt nodes) ∧
      s.visited.Perm (nodes.filter Tree.isExpressionNode) := by
  obtain ⟨after, hemit, hnotices⟩ := emit_notices s h
  rw [s.notices_visited] at hnotices
  exact ⟨s.walked, after, walk_source s, hemit, hnotices, s.visits.unmapped, s.visits⟩

def operatorsInCall : Source where
  fields := [⟨⟨"x", "x", ⟨"Integer", "int"⟩⟩, some (.call ⟨"f", "f", ⟨"Integer", "int"⟩, []⟩
    [.binary "MOD" (.literal (.integer 1)) (.literal (.integer 2))]
    (some (.group (.binary "**" (.literal (.integer 3))
      (.binary "+" (.literal (.integer 4)) (.literal (.integer 5)))))))⟩]
  methods := []

/-- The argument is noted before the receiver, although a walk meets the receiver first. -/
theorem operators_of_operatorsInCall :
    unmappedAt operatorsInCall.walked = ["**", "MOD"] ∧
      ∃ after, Emitter.emit operatorsInCall.toTree { terminator := "\n" } = (.ok (), after) ∧
        after.notices =
          [.unmappedOperator "'MOD'", .unmappedOperator "'**'", .rendered 1 0] := by
  refine ⟨by decide, ?_⟩
  obtain ⟨-, after, -, hemit, hnotices, -, -⟩ :=
    emit_operators operatorsInCall (e := { terminator := "\n" }) rfl
  exact ⟨after, hemit, hnotices.trans (by decide)⟩

end JavaRender.Layout
