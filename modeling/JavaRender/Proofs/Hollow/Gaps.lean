import Mathlib.Data.List.Forall2
import JavaRender.Proofs.Emission.Construct
import JavaRender.Proofs.Typed.Sorts

/-!
Trees with pieces missing. A piece at any depth may be absent; a gap is a missing piece that
rendering reads and cannot do without, and gaps differ in how rendering meets them.
-/
namespace JavaRender.Hollow

open JavaRender.Tree (Fault)

/-- The second tree is the first one, any pieces of which may be absent. -/
inductive Hollowed : Tree → Tree → Prop
  | hole (t : Tree) : Hollowed t .absent
  | leaf {t : Tree} (hslots : t.slots = []) (hitems : t.items? = none) : Hollowed t t
  | sequence (fixed : Bool) {ts ts' : List Tree} (hts : List.Forall₂ Hollowed ts ts') :
      Hollowed (.sequence fixed ts) (.sequence fixed ts')
  | typeRef {name jvmName name' jvmName' : Tree} (hname : Hollowed name name')
      (hjvmName : Hollowed jvmName jvmName') :
      Hollowed (.typeRef name jvmName) (.typeRef name' jvmName')
  | varRef {name jvmName type name' jvmName' type' : Tree} (hname : Hollowed name name')
      (hjvmName : Hollowed jvmName jvmName') (htype : Hollowed type type') :
      Hollowed (.varRef name jvmName type) (.varRef name' jvmName' type')
  | funRef {name jvmName returnType types name' jvmName' returnType' types' : Tree}
      (hname : Hollowed name name') (hjvmName : Hollowed jvmName jvmName')
      (hreturn : Hollowed returnType returnType') (htypes : Hollowed types types') :
      Hollowed (.funRef name jvmName returnType types) (.funRef name' jvmName' returnType' types')
  | literal {value tag value' tag' : Tree} (hvalue : Hollowed value value')
      (htag : Hollowed tag tag') : Hollowed (.literal value tag) (.literal value' tag')
  | group {e e' : Tree} (he : Hollowed e e') : Hollowed (.group e) (.group e')
  | binary {op left right op' left' right' : Tree} (hop : Hollowed op op')
      (hleft : Hollowed left left') (hright : Hollowed right right') :
      Hollowed (.binary op left right) (.binary op' left' right')
  | access {var receiver var' receiver' : Tree} (hvar : Hollowed var var')
      (hreceiver : Hollowed receiver receiver') :
      Hollowed (.access var receiver) (.access var' receiver')
  | call {function arguments receiver function' arguments' receiver' : Tree}
      (hfunction : Hollowed function function') (harguments : Hollowed arguments arguments')
      (hreceiver : Hollowed receiver receiver') :
      Hollowed (.call function arguments receiver) (.call function' arguments' receiver')
  | expressionStmt {e e' : Tree} (he : Hollowed e e') :
      Hollowed (.expressionStmt e) (.expressionStmt e')
  | declaration {var value var' value' : Tree} (hvar : Hollowed var var')
      (hvalue : Hollowed value value') :
      Hollowed (.declaration var value) (.declaration var' value')
  | assignment {receiver value receiver' value' : Tree} (hreceiver : Hollowed receiver receiver')
      (hvalue : Hollowed value value') :
      Hollowed (.assignment receiver value) (.assignment receiver' value')
  | ifElse {condition thenStatements elseStatements : Tree}
      {condition' thenStatements' elseStatements' : Tree}
      (hcondition : Hollowed condition condition') (hthen : Hollowed thenStatements thenStatements')
      (helse : Hollowed elseStatements elseStatements') :
      Hollowed (.ifElse condition thenStatements elseStatements)
        (.ifElse condition' thenStatements' elseStatements')
  | forEach {name value statements name' value' statements' : Tree} (hname : Hollowed name name')
      (hvalue : Hollowed value value') (hstatements : Hollowed statements statements') :
      Hollowed (.forEach name value statements) (.forEach name' value' statements')
  | whileLoop {condition statements condition' statements' : Tree}
      (hcondition : Hollowed condition condition') (hstatements : Hollowed statements statements') :
      Hollowed (.whileLoop condition statements) (.whileLoop condition' statements')
  | returnStmt {value value' : Tree} (hvalue : Hollowed value value') :
      Hollowed (.returnStmt value) (.returnStmt value')
  | field {var value var' value' : Tree} (hvar : Hollowed var var')
      (hvalue : Hollowed value value') : Hollowed (.field var value) (.field var' value')
  | method {function parameters statements function' parameters' statements' : Tree}
      (hfunction : Hollowed function function') (hparameters : Hollowed parameters parameters')
      (hstatements : Hollowed statements statements') :
      Hollowed (.method function parameters statements) (.method function' parameters' statements')
  | source {fields methods fields' methods' : Tree} (hfields : Hollowed fields fields')
      (hmethods : Hollowed methods methods') :
      Hollowed (.source fields methods) (.source fields' methods')

namespace Hollowed

mutual

/-- Nothing has to be missing. -/
theorem refl : ∀ t : Tree, Hollowed t t
  | .absent => .hole _
  | .boolean _ | .integer _ | .decimal _ | .double _ | .text _ | .bytes _ | .kind _ => .leaf rfl rfl
  | .sequence fixed ts => .sequence fixed (refl_items ts)
  | .typeRef name jvmName => .typeRef (refl name) (refl jvmName)
  | .varRef name jvmName type => .varRef (refl name) (refl jvmName) (refl type)
  | .funRef name jvmName returnType types =>
    .funRef (refl name) (refl jvmName) (refl returnType) (refl types)
  | .literal value tag => .literal (refl value) (refl tag)
  | .group e => .group (refl e)
  | .binary op left right => .binary (refl op) (refl left) (refl right)
  | .access var receiver => .access (refl var) (refl receiver)
  | .call function arguments receiver => .call (refl function) (refl arguments) (refl receiver)
  | .expressionStmt e => .expressionStmt (refl e)
  | .declaration var value => .declaration (refl var) (refl value)
  | .assignment receiver value => .assignment (refl receiver) (refl value)
  | .ifElse condition thenStatements elseStatements =>
    .ifElse (refl condition) (refl thenStatements) (refl elseStatements)
  | .forEach name value statements => .forEach (refl name) (refl value) (refl statements)
  | .whileLoop condition statements => .whileLoop (refl condition) (refl statements)
  | .returnStmt value => .returnStmt (refl value)
  | .field var value => .field (refl var) (refl value)
  | .method function parameters statements =>
    .method (refl function) (refl parameters) (refl statements)
  | .source fields methods => .source (refl fields) (refl methods)

theorem refl_items : ∀ ts : List Tree, List.Forall₂ Hollowed ts ts
  | [] => .nil
  | t :: rest => .cons (refl t) (refl_items rest)

end

end Hollowed

inductive Gap where
  /-- The piece is asked for and found missing. -/
  | checked
  /-- The name to render is spelled as it is found. -/
  | name
  /-- A name is asked of a parameter type that is not there. -/
  | parameterType
  /-- An argument that is a name alone is joined as it is found. -/
  | argument
deriving DecidableEq, Repr

def Gap.Causes : Gap → Fault → Prop
  | checked, fault => Emission.IsMalformed fault
  | name, _ => False
  | parameterType, fault => fault = .noSlot "NoneType" "jvm_name"
  | argument, fault => ∃ i, fault = .notJoinable i "NoneType"

section Gaps

def neededGaps (t : Tree) : List Gap := if t.isAbsent then [.checked] else []

def nameGaps (t : Tree) : List Gap := if t.isAbsent then [.name] else []

def typeGaps : Tree → List Gap
  | .typeRef _ jvmName => nameGaps jvmName
  | _ => [.checked]

def parameterTypeGaps : Tree → List Gap
  | .typeRef _ jvmName => nameGaps jvmName
  | _ => [.parameterType]

/-- The value of a literal may be missing only if it stands for nothing. -/
def literalGaps (value : Tree) : Tree → List Gap
  | .absent => [.checked]
  | .kind .nil => []
  | _ => neededGaps value

theorem literalGaps_kind {k : LiteralKind} (hk : k ≠ .nil) (value : Tree) :
    literalGaps value (.kind k) = neededGaps value := by
  cases k with
  | nil => exact absurd rfl hk
  | _ => rfl

def accessedGaps : Tree → List Gap
  | .varRef _ jvmName _ => nameGaps jvmName
  | _ => [.checked]

def calledGaps : Tree → List Gap
  | .funRef _ jvmName _ _ => nameGaps jvmName
  | _ => [.checked]

/-- An access whose text is a name that is not there. -/
def isNameless : Tree → Bool
  | .access (.varRef _ jvmName _) receiver => jvmName.isAbsent && receiver.isAbsent
  | _ => false

mutual

def exprGaps : Tree → List Gap
  | .absent => [.checked]
  | .literal value tag => literalGaps value tag
  | .group e => exprGaps e
  | .binary op left right => neededGaps op ++ (exprGaps left ++ exprGaps right)
  | .access var receiver =>
    accessedGaps var ++ (if receiver.isAbsent then [] else exprGaps receiver)
  | .call function arguments receiver =>
    calledGaps function ++
      (argumentGaps arguments ++ (if receiver.isAbsent then [] else exprGaps receiver))
  | _ => []

def argumentGaps : Tree → List Gap
  | .sequence _ items => itemGaps items
  | _ => [.checked]

def itemGaps : List Tree → List Gap
  | [] => []
  | t :: rest => (if isNameless t then [.argument] else exprGaps t) ++ itemGaps rest

end

def optionalGaps (t : Tree) : List Gap := if t.isAbsent then [] else exprGaps t

def declaredGaps (var value : Tree) : List Gap :=
  match var with
  | .varRef _ jvmName type =>
    typeGaps type ++ (nameGaps jvmName ++ optionalGaps value)
  | _ => [.checked]

mutual

def stmtGaps : Tree → List Gap
  | .absent => [.checked]
  | .expressionStmt e => exprGaps e
  | .declaration var value => declaredGaps var value
  | .assignment receiver value => exprGaps receiver ++ exprGaps value
  | .ifElse condition thenStatements elseStatements =>
    exprGaps condition ++ (bodyGaps thenStatements ++ bodyGaps elseStatements)
  | .forEach name value statements => neededGaps name ++ (exprGaps value ++ bodyGaps statements)
  | .whileLoop condition statements => exprGaps condition ++ bodyGaps statements
  | .returnStmt value => exprGaps value
  | _ => []

def bodyGaps : Tree → List Gap
  | .sequence _ items => stmtsGaps items
  | _ => [.checked]

def stmtsGaps : List Tree → List Gap
  | [] => []
  | t :: rest => stmtGaps t ++ stmtsGaps rest

end

def eachGaps (gaps : Tree → List Gap) : Tree → List Gap
  | .sequence _ items => items.flatMap gaps
  | _ => [.checked]

theorem bodyGaps_eq (t : Tree) : bodyGaps t = eachGaps stmtGaps t := by
  have hitems : ∀ items, stmtsGaps items = items.flatMap stmtGaps := by
    intro items
    induction items with
    | nil => rfl
    | cons t rest ih => rw [stmtsGaps, ih, List.flatMap_cons]
  cases t with
  | sequence _ items => exact hitems items
  | _ => rfl

def fieldGaps : Tree → List Gap
  | .field var value => declaredGaps var value
  | _ => [.checked]

def definedGaps : Tree → List Gap
  | .funRef _ jvmName returnType types =>
    typeGaps returnType ++ (nameGaps jvmName ++ eachGaps parameterTypeGaps types)
  | _ => [.checked]

def methodGaps : Tree → List Gap
  | .method function parameters statements =>
    definedGaps function ++ (eachGaps nameGaps parameters ++ bodyGaps statements)
  | _ => [.checked]

def gaps : Tree → List Gap
  | .source fields methods => eachGaps fieldGaps fields ++ eachGaps methodGaps methods
  | _ => [.checked]

end Gaps

section Whole

open Typed

theorem flatMap_nil {gaps : Tree → List Gap} {ts : List Tree} (h : ∀ t ∈ ts, gaps t = []) :
    ts.flatMap gaps = [] :=
  List.flatMap_eq_nil_iff.mpr h

theorem valueText_absent {k : LiteralKind} (hk : k ≠ .nil) :
    Literal.valueText? k .absent = none := by
  cases k with
  | nil => exact absurd rfl hk
  | _ => rfl

theorem value_present {k : LiteralKind} {value : Tree} {s : String} (hk : k ≠ .nil)
    (hfits : Literal.valueText? k value = some s) : value.isAbsent = false := by
  cases value with
  | absent => cases (valueText_absent hk).symm.trans hfits
  | _ => rfl

/-- Nothing is missing in a well-sorted expression, and it does show a text. -/
theorem exprGaps_whole {t : Tree} (h : IsExpression t) :
    exprGaps t = [] ∧ isNameless t = false := by
  have hitems : ∀ ts : List Tree, (∀ t ∈ ts, exprGaps t = [] ∧ isNameless t = false) →
      itemGaps ts = [] := by
    intro ts hts
    induction ts with
    | nil => rfl
    | cons t rest ih =>
      obtain ⟨hgaps, hnamed⟩ := hts t List.mem_cons_self
      rw [itemGaps, hnamed, if_neg Bool.false_ne_true, hgaps,
        ih fun t ht => hts t (List.mem_cons_of_mem _ ht), List.append_nil]
  induction h with
  | @literal k value s fits =>
    refine ⟨?_, rfl⟩
    by_cases hk : k = .nil
    · subst hk
      rfl
    · rw [exprGaps, literalGaps_kind hk, neededGaps, value_present hk fits]
      rfl
  | group _ ih => exact ⟨ih.1, rfl⟩
  | binary op _ _ ihleft ihright =>
    refine ⟨?_, rfl⟩
    rw [exprGaps, ihleft.1, ihright.1]
    rfl
  | access var => exact ⟨rfl, rfl⟩
  | member var _ ih =>
    refine ⟨?_, rfl⟩
    rw [exprGaps, ih.1, ite_self]
    rfl
  | call function _ ih =>
    refine ⟨?_, rfl⟩
    rw [exprGaps, argumentGaps, hitems _ ih]
    rfl
  | invocation function _ _ iharguments ihreceiver =>
    refine ⟨?_, rfl⟩
    rw [exprGaps, argumentGaps, hitems _ iharguments, ihreceiver.1, ite_self]
    rfl

theorem declaredGaps_whole (var : VarRef) {value : Tree} (h : IsOptional value) :
    declaredGaps var.toTree value = [] := by
  have hvalue : optionalGaps value = [] := by
    rcases h with rfl | h
    · rfl
    · rw [optionalGaps, (exprGaps_whole h).1, ite_self]
  rw [VarRef.toTree, declaredGaps, hvalue]
  rfl

theorem stmtGaps_whole {t : Tree} (h : IsStatement t) : stmtGaps t = [] := by
  induction h with
  | expression inner => exact (exprGaps_whole inner).1
  | declaration var hvalue => exact declaredGaps_whole var hvalue
  | assignment hreceiver hvalue =>
    rw [stmtGaps, (exprGaps_whole hreceiver).1, (exprGaps_whole hvalue).1, List.append_nil]
  | ifElse hcondition _ _ ihthen ihelse =>
    rw [stmtGaps, (exprGaps_whole hcondition).1, bodyGaps_eq, bodyGaps_eq, eachGaps, eachGaps,
      flatMap_nil ihthen, flatMap_nil ihelse]
    rfl
  | forEach name hvalue _ ih =>
    rw [stmtGaps, (exprGaps_whole hvalue).1, bodyGaps_eq, eachGaps, flatMap_nil ih]
    rfl
  | whileLoop hcondition _ ih =>
    rw [stmtGaps, (exprGaps_whole hcondition).1, bodyGaps_eq, eachGaps, flatMap_nil ih]
    rfl
  | returnStmt hvalue => exact (exprGaps_whole hvalue).1

theorem methodGaps_whole {t : Tree} (h : IsMethod t) : methodGaps t = [] := by
  obtain ⟨function, parameters, -, hstatements⟩ := h
  have htypes : (function.parameterTypes.map TypeRef.toTree).flatMap parameterTypeGaps = [] :=
    flatMap_nil (List.forall_mem_map.mpr fun _ _ => rfl)
  have hnames : (parameters.map Tree.text).flatMap nameGaps = [] :=
    flatMap_nil (List.forall_mem_map.mpr fun _ _ => rfl)
  rw [FunRef.toTree, methodGaps, definedGaps, bodyGaps_eq, eachGaps, eachGaps, eachGaps, htypes,
    hnames, flatMap_nil fun t ht => stmtGaps_whole (hstatements t ht)]
  rfl

/-- A well-sorted program has no gaps. -/
theorem gaps_whole {t : Tree} (h : IsSource t) : gaps t = [] := by
  obtain ⟨hfields, hmethods⟩ := h
  have hfieldGaps : ∀ t, IsField t → fieldGaps t = [] := by
    rintro _ ⟨var, hvalue⟩
    exact declaredGaps_whole var hvalue
  rw [gaps, eachGaps, eachGaps, flatMap_nil fun t ht => hfieldGaps t (hfields t ht),
    flatMap_nil fun t ht => methodGaps_whole (hmethods t ht), List.append_nil]

end Whole

end JavaRender.Hollow
