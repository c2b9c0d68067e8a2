import JavaRender.Emitter.Program

/-!
Trees without what is never rendered. The names that variables, functions and types have in the
program are blanked, and with them the types behind an access or a call; what is left of a
descriptor is its rendering name, and that of a type where one is declared. Main statement: an
expression is rendered like the one that is left.
-/
namespace JavaRender

namespace Tree

section Descriptors

def named : Tree → Tree
  | typeRef _ jvmName => typeRef absent jvmName
  | varRef _ jvmName _ => varRef absent jvmName absent
  | funRef _ jvmName _ _ => funRef absent jvmName absent absent
  | t => t

def namedItems : Tree → Tree
  | sequence fixed items => sequence fixed (items.map named)
  | t => t

def declared : Tree → Tree
  | varRef _ jvmName type => varRef absent jvmName type.named
  | t => t.named

def signature : Tree → Tree
  | funRef _ jvmName returnType parameterTypes =>
    funRef absent jvmName returnType.named parameterTypes.namedItems
  | t => t.named

def outline : Tree → Tree
  | absent => absent
  | sequence fixed _ => sequence fixed []
  | _ => text ""

def outlined : Tree → Tree
  | funRef _ jvmName returnType parameterTypes =>
    funRef absent jvmName returnType.outline parameterTypes.outline
  | t => t.named

end Descriptors

mutual

/-- A tree with all blanked that is not rendered. Holes, literals, operators, parameters and the
names of loops stay, and so does every value in a place where it makes no sense. -/
def blanked : Tree → Tree
  | sequence fixed items => sequence fixed (blankedAll items)
  | group expression => group expression.blanked
  | binary operator left right => binary operator left.blanked right.blanked
  | access var receiver => access var.named receiver.blanked
  | call function arguments receiver =>
    call function.named arguments.blanked receiver.blanked
  | expressionStmt expression => expressionStmt expression.blanked
  | declaration var value => declaration var.declared value.blanked
  | assignment receiver value => assignment receiver.blanked value.blanked
  | ifElse condition thenStatements elseStatements =>
    ifElse condition.blanked thenStatements.blanked elseStatements.blanked
  | forEach name value statements => forEach name value.blanked statements.blanked
  | whileLoop condition statements => whileLoop condition.blanked statements.blanked
  | returnStmt value => returnStmt value.blanked
  | field var value => field var.declared value.blanked
  | method function parameters statements =>
    method function.signature parameters statements.blanked
  | source fields methods => source fields.blanked methods.blankedMembers
  | t => t.named

def blankedAll : List Tree → List Tree
  | [] => []
  | t :: rest => t.blanked :: blankedAll rest

def blankedMembers : Tree → Tree
  | sequence fixed items => sequence fixed (blankedMembersAll items)
  | t => t.named

/-- A call among the methods of a source is refused for what its function lacks, so the holes of
this function stay. -/
def blankedMembersAll : List Tree → List Tree
  | [] => []
  | call function arguments receiver :: rest =>
    call function.outlined arguments.blanked receiver.blanked :: blankedMembersAll rest
  | t :: rest => t.blanked :: blankedMembersAll rest

end

def blankedMember : Tree → Tree
  | call function arguments receiver =>
    call function.outlined arguments.blanked receiver.blanked
  | t => t.blanked

theorem blankedMembersAll_cons (t : Tree) (rest : List Tree) :
    blankedMembersAll (t :: rest) = t.blankedMember :: blankedMembersAll rest := by
  cases t <;> rfl

theorem length_blankedAll (ts : List Tree) : (blankedAll ts).length = ts.length := by
  induction ts with
  | nil => rfl
  | cons t rest ih => rw [blankedAll, List.length_cons, List.length_cons, ih]

theorem length_blankedMembersAll (ts : List Tree) :
    (blankedMembersAll ts).length = ts.length := by
  induction ts with
  | nil => rfl
  | cons t rest ih => rw [blankedMembersAll_cons, List.length_cons, List.length_cons, ih]

section Checks

variable {t t' : Tree} {f : List Tree → List Tree} {g : Tree → Tree} (owner slot : String)

theorem need_congr (h : t'.isAbsent = t.isAbsent) : need owner slot t' = need owner slot t := by
  rw [need, h, ← need]

theorem needItems_map (habsent : t'.isAbsent = t.isAbsent) (hitems : t'.items? = t.items?.map f) :
    needItems owner slot t' = (needItems owner slot t).map f := by
  rw [needItems, need_congr owner slot habsent, hitems, needItems]
  cases need owner slot t with
  | error fault => rfl
  | ok _ => cases t.items? <;> rfl

/-- Values of one class give contents of a slot that are there in both or in neither. -/
theorem require_map (hclass : t'.className = t.className)
    (hslot : (t'.slot? slot).getD .absent = g ((t.slot? slot).getD .absent))
    (habsent : ∀ content, (g content).isAbsent = content.isAbsent) :
    t'.require slot = (t.require slot).map g := by
  unfold Tree.require
  dsimp only
  rw [hclass, hslot, need_congr t.className slot (habsent _)]
  cases need t.className slot ((t.slot? slot).getD .absent) <;> rfl

theorem requireItems_map (hclass : t'.className = t.className)
    (hslot : (t'.slot? slot).getD .absent = g ((t.slot? slot).getD .absent))
    (habsent : ∀ content, (g content).isAbsent = content.isAbsent)
    (hitems : ∀ content, (g content).items? = content.items?.map f) :
    t'.requireItems slot = (t.requireItems slot).map f := by
  rw [requireItems, hclass, hslot, needItems_map t.className slot (habsent _) (hitems _),
    ← requireItems]

/-- What is done with a checked value may ask for another form of it. -/
theorem map_bind_check {α β γ : Type} (r : Except Fault α) (f : α → β)
    (next : β → Except Fault γ) :
    (r.map f >>= next) = r >>= fun a => next (f a) := by
  cases r <;> rfl

theorem bind_check_map {α β γ : Type} (r : Except Fault α) (next : α → Except Fault β)
    (f : β → γ) :
    (r >>= next).map f = r >>= fun a => (next a).map f := by
  cases r <;> rfl

theorem lift_map_bind {σ α β γ : Type} (r : Except Fault α) (f : α → β)
    (next : β → ExceptT Fault (StateM σ) γ) :
    ((liftM (r.map f) : ExceptT Fault (StateM σ) β) >>= next) =
      (liftM r : ExceptT Fault (StateM σ) α) >>= fun a => next (f a) := by
  cases r <;> rfl

end Checks

section Names

variable (t : Tree) (owner slot : String)

theorem qualifiedClassName_named : t.named.qualifiedClassName = t.qualifiedClassName := by
  cases t <;> rfl

theorem isAbsent_named : t.named.isAbsent = t.isAbsent := by cases t <;> rfl

theorem isAbsent_blanked : t.blanked.isAbsent = t.isAbsent := by cases t <;> rfl

theorem need_blanked : need owner slot t.blanked = need owner slot t :=
  need_congr owner slot t.isAbsent_blanked

theorem needItems_blanked :
    needItems owner slot t.blanked = (needItems owner slot t).map blankedAll :=
  needItems_map owner slot t.isAbsent_blanked (by cases t <;> rfl)

/-- The rendering name of a descriptor stays. -/
theorem jvmName_named : t.named.jvmName = t.jvmName := by
  have hslot : t.named.slot? "jvm_name" = t.slot? "jvm_name" := by cases t <;> rfl
  rw [jvmName, slotOf, hslot, qualifiedClassName_named, ← slotOf, ← jvmName]

theorem jvmSpelling_named : t.named.jvmSpelling = t.jvmSpelling := by
  rw [jvmSpelling, jvmName_named, ← jvmSpelling]

end Names

end Tree

namespace Expression

open JavaRender.Tree

theorem qualify_congr {receiver receiver' : Tree} (h : receiver'.isAbsent = receiver.isAbsent)
    (name : Tree) (rendered : Noting Tree) :
    qualify receiver' name rendered = qualify receiver name rendered := by
  rw [qualify, h, ← qualify]

/-- Without a sequence there are no arguments. -/
theorem renderItems_of_items {t : Tree} (h : t.items? = none) : renderItems t = pure [] := by
  cases t with
  | sequence => cases h
  | _ => rfl

mutual

/-- An expression is rendered like the one that is left of it. -/
theorem render_blanked : ∀ t : Tree, render t.blanked = render t
  | .group expression => by
    rw [blanked, render, render, need_blanked, render_blanked expression]
  | .binary operator left right => by
    rw [blanked, render, render, need_blanked, need_blanked, render_blanked left,
      render_blanked right]
  | .access var receiver => by
    rw [blanked, render, render, need_congr _ _ var.isAbsent_named, jvmName_named,
      render_blanked receiver]
    simp only [qualify_congr receiver.isAbsent_blanked]
  | .call function arguments receiver => by
    rw [blanked, render, render, need_congr _ _ function.isAbsent_named, jvmSpelling_named,
      render_blanked receiver, renderItems_blanked arguments, needItems_blanked, lift_map_bind]
    simp only [qualify_congr receiver.isAbsent_blanked]
  | .absent | .boolean _ | .integer _ | .decimal _ | .double _ | .text _ | .bytes _ | .kind _
  | .sequence _ _ | .typeRef _ _ | .varRef _ _ _ | .funRef _ _ _ _ | .literal _ _
  | .expressionStmt _ | .declaration _ _ | .assignment _ _ | .ifElse _ _ _ | .forEach _ _ _
  | .whileLoop _ _ | .returnStmt _ | .field _ _ | .method _ _ _ | .source _ _ => rfl

theorem renderItems_blanked : ∀ t : Tree, renderItems t.blanked = renderItems t
  | .sequence _ items => by
    rw [blanked, renderItems, renderItems, renderAll_blanked items]
  | .absent | .boolean _ | .integer _ | .decimal _ | .double _ | .text _ | .bytes _ | .kind _
  | .typeRef _ _ | .varRef _ _ _ | .funRef _ _ _ _ | .literal _ _ | .group _ | .binary _ _ _
  | .access _ _ | .call _ _ _ | .expressionStmt _ | .declaration _ _ | .assignment _ _
  | .ifElse _ _ _ | .forEach _ _ _ | .whileLoop _ _ | .returnStmt _ | .field _ _
  | .method _ _ _ | .source _ _ => (renderItems_of_items rfl).trans (renderItems_of_items rfl).symm

theorem renderAll_blanked : ∀ ts : List Tree, renderAll (blankedAll ts) = renderAll ts
  | [] => rfl
  | t :: rest => by
    rw [blankedAll, renderAll, renderAll, render_blanked t, renderAll_blanked rest]

end

end Expression

end JavaRender
