import JavaRender.Proofs.Naming.Blank

/-!
What is written of a tree does not depend on what is never rendered. Every construct of a program is
emitted like the one that is left when all other names are blanked; main statement: two trees of
which the same is left do the same to every emitter.
-/
namespace JavaRender.Emitter

open JavaRender.Tree

section Declarations

variable (t var value function : Tree)

theorem isAbsent_declared : var.declared.isAbsent = var.isAbsent := by cases var <;> rfl

theorem isAbsent_signature : function.signature.isAbsent = function.isAbsent := by
  cases function <;> rfl

theorem isAbsent_outline : t.outline.isAbsent = t.isAbsent := by cases t <;> rfl

/-- The type of a declared variable is asked for its rendering name only. -/
theorem require_type_declared : var.declared.require "type" = (var.require "type").map named :=
  require_map "type" (by cases var <;> rfl) (by cases var <;> rfl) isAbsent_named

theorem jvmSpelling_declared : var.declared.jvmSpelling = var.jvmSpelling := by
  have hname : var.declared.jvmName = var.named.jvmName := by cases var <;> rfl
  rw [jvmSpelling, hname, ← jvmSpelling, jvmSpelling_named]

theorem declarationText_blanked :
    declarationText var.declared value.blanked = declarationText var value := by
  unfold declarationText
  rw [require_type_declared, lift_map_bind, jvmSpelling_declared, isAbsent_blanked,
    Expression.render_blanked]
  simp only [jvmSpelling_named]

/-- A value without a variable is no field. -/
theorem field_of_slot {t : Tree} (h : t.slot? "variable" = none) :
    field t = throw (.malformed t.className (some "variable") .missing) := by
  unfold field Tree.require
  rw [h]
  rfl

theorem field_congr_of_slot {t t' : Tree} (h : t.slot? "variable" = none)
    (h' : t'.slot? "variable" = none) (hclass : t'.className = t.className) :
    field t' = field t := by
  rw [field_of_slot h, field_of_slot h', hclass]

theorem field_map {t t' : Tree}
    (hvar : t'.require "variable" = (t.require "variable").map declared)
    (hvalue : t'.slotOf "value" = (t.slotOf "value").map blanked) : field t' = field t := by
  unfold field
  rw [hvar, hvalue, lift_map_bind]
  simp only [lift_map_bind, declarationText_blanked]

/-- Only fields and declarations have all that is asked of a field; an access has no value. -/
theorem field_blanked : field t.blanked = field t := by
  cases t with
  | field var value => exact field_map (require_map _ rfl rfl isAbsent_declared) rfl
  | declaration var value => exact field_map (require_map _ rfl rfl isAbsent_declared) rfl
  | access var receiver =>
    have hvar : (Tree.access var receiver).blanked.require "variable" =
        ((Tree.access var receiver).require "variable").map named :=
      require_map _ rfl rfl isAbsent_named
    have hvalue : (Tree.access var receiver).slotOf "value" = .error (.noSlot "Access" "value") :=
      rfl
    have hvalue' : (Tree.access var receiver).blanked.slotOf "value" =
        .error (.noSlot "Access" "value") :=
      rfl
    unfold field
    rw [hvar, hvalue, hvalue', lift_map_bind]
    rfl
  | _ => exact field_congr_of_slot rfl rfl rfl

theorem fields_blanked (ts : List Tree) : fields (blankedAll ts) = fields ts := by
  induction ts with
  | nil => rfl
  | cons t rest ih => rw [blankedAll, fields, fields, field_blanked, ih]

theorem namedItems_items (content : Tree) :
    content.namedItems.items? = content.items?.map (List.map named) := by
  cases content <;> rfl

/-- The function of a method is asked for the type of its result. -/
theorem require_returnType_signature (function : Tree) :
    function.signature.require "return_type" = (function.require "return_type").map named :=
  require_map _ (by cases function <;> rfl) (by cases function <;> rfl) isAbsent_named

theorem requireItems_parameterTypes_signature (function : Tree) :
    function.signature.requireItems "parameter_types" =
      (function.requireItems "parameter_types").map (List.map named) :=
  requireItems_map _ (by cases function <;> rfl) (by cases function <;> rfl)
    (fun content => by cases content <;> rfl) namedItems_items

theorem jvmSpelling_signature (function : Tree) :
    function.signature.jvmSpelling = function.jvmSpelling := by
  have hname : function.signature.jvmName = function.named.jvmName := by cases function <;> rfl
  rw [jvmSpelling, hname, ← jvmSpelling, jvmSpelling_named]

theorem parameterTexts_named (types names : List Tree) :
    parameterTexts (types.map named) names = parameterTexts types names := by
  induction types generalizing names with
  | nil => rfl
  | cons type types ih =>
    cases names with
    | nil => rfl
    | cons name names =>
      rw [List.map_cons, parameterTexts, parameterTexts, jvmSpelling_named, ih]

def Header.blanked (h : Header) : Header :=
  ⟨h.returnType.named, h.function.signature, h.parameters⟩

theorem Header.text_blanked (h : Header) : h.blanked.text = h.text := by
  rw [Header.text, Header.blanked, jvmSpelling_named, jvmSpelling_signature, ← Header.text]

theorem header_blanked (function parameters statements : Tree) :
    header (Tree.method function parameters statements).blanked =
      (header (.method function parameters statements)).map Header.blanked := by
  generalize ht : Tree.method function parameters statements = t
  have hfunction : t.blanked.require "function" = (t.require "function").map signature := by
    rw [← ht]
    exact require_map _ rfl rfl isAbsent_signature
  have hparameters : t.blanked.requireItems "parameters" = t.requireItems "parameters" := by
    rw [← ht]
    rfl
  have hstatements : t.blanked.requireItems "statements" =
      (t.requireItems "statements").map blankedAll := by
    rw [← ht]
    exact requireItems_map _ rfl rfl isAbsent_blanked fun content => by cases content <;> rfl
  have hclass : t.blanked.className = t.className := by
    rw [← ht]
    rfl
  unfold header
  rw [hfunction, hparameters, hstatements, hclass]
  simp only [map_bind_check, bind_check_map, require_returnType_signature,
    requireItems_parameterTypes_signature, List.length_map, parameterTexts_named,
    apply_ite (Except.map Header.blanked)]
  rfl

/-- A call among the methods is refused for what its function lacks, or for its own parameters. -/
theorem header_outlined (function arguments receiver : Tree) :
    header (Tree.call function arguments receiver).blankedMember =
      header (.call function arguments receiver) := by
  generalize ht : Tree.call function arguments receiver = t
  have hfunction : t.blankedMember.require "function" = (t.require "function").map outlined := by
    rw [← ht]
    exact require_map _ rfl rfl fun content => by cases content <;> rfl
  have hparameters : t.requireItems "parameters" =
      .error (.malformed "Call" (some "parameters") .missing) := by
    rw [← ht]
    rfl
  have hparameters' : t.blankedMember.requireItems "parameters" =
      .error (.malformed "Call" (some "parameters") .missing) := by
    rw [← ht]
    rfl
  have hreturn (function : Tree) :
      function.outlined.require "return_type" = (function.require "return_type").map outline :=
    require_map _ (by cases function <;> rfl) (by cases function <;> rfl) isAbsent_outline
  have htypes (function : Tree) : function.outlined.requireItems "parameter_types" =
      (function.requireItems "parameter_types").map fun _ => [] :=
    requireItems_map _ (by cases function <;> rfl) (by cases function <;> rfl) isAbsent_outline
      fun content => by cases content <;> rfl
  unfold header
  rw [hfunction, hparameters, hparameters']
  simp only [map_bind_check, hreturn, htypes]
  rfl

/-- A value without a function is no method. -/
theorem header_congr_of_slot {t t' : Tree} (h : t.slot? "function" = none)
    (h' : t'.slot? "function" = none) (hclass : t'.className = t.className) :
    header t' = header t := by
  unfold header Tree.require
  rw [h, h', hclass]
  rfl

theorem methodAround_blanked (function parameters statements : Tree) (body : Render Unit) :
    methodAround (Tree.method function parameters statements).blanked body =
      methodAround (.method function parameters statements) body := by
  unfold methodAround
  rw [header_blanked, lift_map_bind]
  simp only [Header.text_blanked]

theorem method_congr {t t' : Tree} (h : header t' = header t)
    (ht : method t = do
      let _ ← header t
      pure ())
    (ht' : method t' = do
      let _ ← header t'
      pure ()) :
    method t' = method t := by
  rw [ht, ht', h]

end Declarations

section Programs

theorem isEmpty_blankedAll (ts : List Tree) : (blankedAll ts).isEmpty = ts.isEmpty := by
  cases ts <;> rfl

theorem isEmpty_blankedMembersAll (ts : List Tree) :
    (blankedMembersAll ts).isEmpty = ts.isEmpty := by
  cases ts with
  | nil => rfl
  | cons t rest => rw [blankedMembersAll_cons, List.isEmpty_cons, List.isEmpty_cons]

theorem leavesLineOpen_blanked (t : Tree) : leavesLineOpen t.blanked = leavesLineOpen t := by
  cases t <;> rfl

section Others

variable {t t' : Tree}

/-- Without a sequence there are no statements. -/
theorem statementsOf_of_items (h : t.items? = none) : statementsOf t = pure () := by
  cases t with
  | sequence => cases h
  | _ => rfl

theorem bodyOf_of_items (h : t.items? = none) : bodyOf t = pure () := by
  cases t with
  | sequence => cases h
  | _ => rfl

theorem methodsOf_of_items (h : t.items? = none) : methodsOf t = pure () := by
  cases t with
  | sequence => cases h
  | _ => rfl

/-- What is written of a value that is no part of a program but an expression, or nothing at all. -/
def inlined (t : Tree) : Render Unit := do
  let text ← noting (Expression.render t)
  writeValue text

theorem inlined_congr (h : Expression.render t' = Expression.render t) :
    inlined t' = inlined t := by
  rw [inlined, h, ← inlined]

end Others

theorem needItems_blankedMembers (owner slot : String) (t : Tree) :
    needItems owner slot t.blankedMembers = (needItems owner slot t).map blankedMembersAll :=
  needItems_map owner slot (by cases t <;> rfl) (by cases t <;> rfl)

mutual

/-- A value of any class is emitted like the one that is left of it. -/
theorem visit_blanked : ∀ t : Tree, visit t.blanked = visit t
  | .source fieldSlot methodSlot => by
    rw [blanked, visit, visit, needItems_blanked, needItems_blankedMembers, lift_map_bind,
      methodsOf_blanked methodSlot]
    simp only [lift_map_bind, isEmpty_blankedAll, isEmpty_blankedMembersAll, fields_blanked]
  | .field var value => by
    have hfield := field_blanked (.field var value)
    rw [blanked] at hfield
    rw [blanked, visit, visit, hfield]
  | .method function parameters statements => by
    have hmethod := methodAround_blanked function parameters statements (statementsOf statements)
    rw [blanked] at hmethod
    rw [blanked, visit, visit, statementsOf_blanked statements, hmethod]
  | .expressionStmt expression => by
    rw [blanked, visit, visit, need_blanked, Expression.render_blanked]
  | .declaration var value => by
    rw [blanked, visit, visit, need_congr _ _ (isAbsent_declared var), declarationText_blanked]
  | .assignment receiver value => by
    rw [blanked, visit, visit, need_blanked, need_blanked, Expression.render_blanked,
      Expression.render_blanked]
  | .ifElse condition thenStatements elseStatements => by
    rw [blanked, visit, visit, need_blanked, needItems_blanked, needItems_blanked,
      Expression.render_blanked, bodyOf_blanked thenStatements, bodyOf_blanked elseStatements]
    simp only [lift_map_bind, isEmpty_blankedAll]
  | .forEach name value statements => by
    rw [blanked, visit, visit, need_blanked, needItems_blanked, Expression.render_blanked,
      bodyOf_blanked statements]
    simp only [lift_map_bind]
  | .whileLoop condition statements => by
    rw [blanked, visit, visit, need_blanked, needItems_blanked, Expression.render_blanked,
      bodyOf_blanked statements]
    simp only [lift_map_bind]
  | .returnStmt value => by
    rw [blanked, visit, visit, need_blanked, Expression.render_blanked]
  | .absent | .boolean _ | .integer _ | .decimal _ | .double _ | .text _ | .bytes _ | .kind _
  | .sequence _ _ | .typeRef _ _ | .varRef _ _ _ | .funRef _ _ _ _ | .literal _ _ | .group _
  | .binary _ _ _ | .access _ _ | .call _ _ _ => inlined_congr (Expression.render_blanked _)

theorem statementsOf_blanked : ∀ t : Tree, statementsOf t.blanked = statementsOf t
  | .sequence _ items => by
    rw [blanked, statementsOf, statementsOf, statements_blanked items]
  | .absent | .boolean _ | .integer _ | .decimal _ | .double _ | .text _ | .bytes _ | .kind _
  | .typeRef _ _ | .varRef _ _ _ | .funRef _ _ _ _ | .literal _ _ | .group _ | .binary _ _ _
  | .access _ _ | .call _ _ _ | .expressionStmt _ | .declaration _ _ | .assignment _ _
  | .ifElse _ _ _ | .forEach _ _ _ | .whileLoop _ _ | .returnStmt _ | .field _ _
  | .method _ _ _ | .source _ _ =>
    (statementsOf_of_items rfl).trans (statementsOf_of_items rfl).symm

theorem statements_blanked : ∀ ts : List Tree, statements (blankedAll ts) = statements ts
  | [] => rfl
  | t :: rest => by
    rw [blankedAll, statements, statements, visit_blanked t, statements_blanked rest,
      leavesLineOpen_blanked]

theorem bodyOf_blanked : ∀ t : Tree, bodyOf t.blanked = bodyOf t
  | .sequence _ [] => rfl
  | .sequence _ (t :: rest) => by
    have hitems := statements_blanked (t :: rest)
    rw [blankedAll] at hitems
    rw [blanked, blankedAll, bodyOf, bodyOf, hitems]
    · nofun
    · nofun
  | .absent | .boolean _ | .integer _ | .decimal _ | .double _ | .text _ | .bytes _ | .kind _
  | .typeRef _ _ | .varRef _ _ _ | .funRef _ _ _ _ | .literal _ _ | .group _ | .binary _ _ _
  | .access _ _ | .call _ _ _ | .expressionStmt _ | .declaration _ _ | .assignment _ _
  | .ifElse _ _ _ | .forEach _ _ _ | .whileLoop _ _ | .returnStmt _ | .field _ _
  | .method _ _ _ | .source _ _ =>
    (bodyOf_of_items rfl).trans (bodyOf_of_items rfl).symm

theorem methodsOf_blanked : ∀ t : Tree, methodsOf t.blankedMembers = methodsOf t
  | .sequence _ items => by
    rw [blankedMembers, methodsOf, methodsOf, methods_blanked true items]
  | .absent | .boolean _ | .integer _ | .decimal _ | .double _ | .text _ | .bytes _ | .kind _
  | .typeRef _ _ | .varRef _ _ _ | .funRef _ _ _ _ | .literal _ _ | .group _ | .binary _ _ _
  | .access _ _ | .call _ _ _ | .expressionStmt _ | .declaration _ _ | .assignment _ _
  | .ifElse _ _ _ | .forEach _ _ _ | .whileLoop _ _ | .returnStmt _ | .field _ _
  | .method _ _ _ | .source _ _ =>
    (methodsOf_of_items rfl).trans (methodsOf_of_items rfl).symm

theorem methods_blanked (first : Bool) :
    ∀ ts : List Tree, methods first (blankedMembersAll ts) = methods first ts
  | [] => rfl
  | t :: rest => by
    rw [blankedMembersAll_cons, methods, methods, method_blanked t, methods_blanked false rest]

theorem method_blanked : ∀ t : Tree, method t.blankedMember = method t
  | .method function parameters statements => by
    have hmethod := methodAround_blanked function parameters statements (statementsOf statements)
    rw [blanked] at hmethod
    rw [blankedMember, blanked, method, method, statementsOf_blanked statements, hmethod]
    · nofun
  | .call function arguments receiver =>
    method_congr (header_outlined function arguments receiver) rfl rfl
  | .absent | .boolean _ | .integer _ | .decimal _ | .double _ | .text _ | .bytes _ | .kind _
  | .sequence _ _ | .typeRef _ _ | .varRef _ _ _ | .funRef _ _ _ _ | .literal _ _ | .group _
  | .binary _ _ _ | .access _ _ | .expressionStmt _ | .declaration _ _
  | .assignment _ _ | .ifElse _ _ _ | .forEach _ _ _ | .whileLoop _ _ | .returnStmt _
  | .field _ _ | .source _ _ => method_congr (header_congr_of_slot rfl rfl rfl) rfl rfl

end

theorem count_blanked (t : Tree) :
    (t.blanked.items?.getD []).length = (t.items?.getD []).length := by
  cases t with
  | sequence fixed items => exact length_blankedAll items
  | _ => rfl

theorem count_blankedMembers (t : Tree) :
    (t.blankedMembers.items?.getD []).length = (t.items?.getD []).length := by
  cases t with
  | sequence fixed items => exact length_blankedMembersAll items
  | _ => rfl

def closing : Tree → Render Unit
  | .source fieldSlot methodSlot =>
    let count := fun (slot : Tree) => (slot.items?.getD []).length
    modify fun e =>
      { e with notices := e.notices ++ [.rendered (count fieldSlot) (count methodSlot)] }
  | _ => pure ()

theorem closing_blanked (t : Tree) : closing t.blanked = closing t := by
  cases t with
  | source fieldSlot methodSlot =>
    rw [blanked, closing, closing]
    simp only [count_blanked, count_blankedMembers]
  | _ => rfl

theorem emit_blanked (t : Tree) : emit t.blanked = emit t := by
  have hemit (t : Tree) : emit t = (modify fun e => { e with level := 0 }) >>= fun _ =>
      visit t >>= fun _ => closing t :=
    rfl
  rw [hemit, hemit, visit_blanked, closing_blanked]

/-- Two trees of which the same is left do the same to every emitter, whatever its terminator is and
whichever write its sink refuses: they end in the same way, leave the same level and notices, and
the same has been written. -/
theorem emit_of_blanked {t t' : Tree} (h : t.blanked = t'.blanked) (e : Emitter) :
    emit t e = emit t' e := by
  rw [← emit_blanked t, h, emit_blanked]

/-- A program that returns nothing, with what is not rendered of it: a name for everything, the type
behind an access and what a called function gives and takes. -/
def calling (name : String) (type returnType parameterTypes : Tree) : Tree :=
  .source
    (.sequence true [.field
      (.varRef (.text name) (.text "x") (.typeRef (.text name) (.text "int")))
      (.access (.varRef (.text name) (.text "y") type) .absent)])
    (.sequence true [.method
      (.funRef (.text name) (.text "main") (.typeRef (.text name) (.text "int"))
        (.sequence true []))
      (.sequence true [])
      (.sequence true [
        .expressionStmt (.call (.funRef (.text name) (.text "f") returnType parameterTypes)
          (.sequence true []) .absent),
        .returnStmt .absent])])

/-- Two programs that share no name, of which the second lacks what is not rendered, and a sink that
refuses its tenth write. -/
theorem emit_of_calling :
    let t := calling "a" (.typeRef (.text "Any") (.text "Object")) (.text "void")
      (.sequence true [.absent])
    let t' := calling "b" .absent .absent .absent
    let e : Emitter := { terminator := "\r\n", level := 3, sink := { failAt := some 9 } }
    t ≠ t' ∧ t.blanked = t'.blanked ∧ emit t e = emit t' e := by
  refine ⟨?_, rfl, emit_of_blanked rfl _⟩
  simp [calling]

end Programs

end JavaRender.Emitter
