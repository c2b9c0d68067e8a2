import JavaRender.Proofs.Emission.Note
import JavaRender.Proofs.Lexical.StringLiteral
import JavaRender.Proofs.Text.OneLine

/-!
Expressions on one line. The names that a tree chooses freely are written as they are, everything
else is escaped, spelled from a table or shown; main statement: if the names have no line feed, no
expression has one.
-/
namespace JavaRender.Emission

open JavaRender.Tree (Fault)

def Gives {α : Type} (r : Except Fault α) (post : α → Prop) : Prop := ∀ a, r = .ok a → post a

namespace Gives

variable {α β : Type} {post : α → Prop} {post' : β → Prop}

theorem ok {a : α} (h : post a) : Gives (.ok a) post := by
  intro a' ha
  cases ha
  exact h

theorem error (fault : Fault) : Gives (.error fault) post := fun _ ha => nomatch ha

theorem bind {r : Except Fault α} {f : α → Except Fault β} (hr : Gives r post)
    (hf : ∀ a, post a → Gives (f a) post') : Gives (r >>= f) post' := by
  cases r with
  | error fault => exact error fault
  | ok a => exact hf a (hr a rfl)

theorem any (r : Except Fault α) : Gives r fun _ => True := fun _ _ => trivial

theorem mapM {f : α → Except Fault β} {xs : List α} (h : ∀ x ∈ xs, Gives (f x) post') :
    Gives (xs.mapM f) fun ys => ∀ y ∈ ys, post' y := by
  induction xs with
  | nil => exact ok (List.forall_mem_nil _)
  | cons x rest ih =>
    rw [List.mapM_cons]
    refine (h x List.mem_cons_self).bind fun y hy => ?_
    refine (ih fun x hx => h x (List.mem_cons_of_mem _ hx)).bind fun ys hys => ?_
    exact ok (List.forall_mem_cons.mpr ⟨hy, hys⟩)

end Gives

/-- Whatever it notes, a computation that succeeds gives a value as described. -/
def Yields {α : Type} (text : Noting α) (post : α → Prop) : Prop :=
  ∀ before : List Notice, Gives (text before).1 post

namespace Yields

variable {α β : Type} {post : α → Prop} {post' : β → Prop}

theorem pure {a : α} (h : post a) : Yields (pure a : Noting α) post := fun _ => Gives.ok h

theorem lift {r : Except Fault α} (h : Gives r post) : Yields (liftM r : Noting α) post :=
  fun _ => h

theorem throw (fault : Fault) : Yields (throw fault : Noting α) post :=
  fun _ => Gives.error fault

theorem any (text : Noting α) : Yields text fun _ => True := fun _ => Gives.any _

theorem bind {m : Noting α} {f : α → Noting β} (hm : Yields m post)
    (hf : ∀ a, post a → Yields (f a) post') : Yields (m >>= f) post' := by
  intro before
  have hfirst := hm before
  rw [bind_apply]
  rcases hrun : m before with ⟨r, after⟩
  rw [hrun] at hfirst
  cases r with
  | error fault => exact Gives.error fault
  | ok a => exact hf a (hfirst a rfl) after

end Yields

end JavaRender.Emission

namespace JavaRender.Tree

open Emission

/-- The texts that a value itself chooses freely: a name to render, the names of parameters and of a
loop, and an operator that the table does not know. -/
def ownNames : Tree → List String
  | typeRef _ jvmName => jvmName.texts
  | varRef _ jvmName _ => jvmName.texts
  | funRef _ jvmName _ _ => jvmName.texts
  | method _ parameters _ => (parameters.items?.getD []).flatMap texts
  | forEach name _ _ => name.texts
  | binary operator _ _ => operator.texts.filter fun tag => (Operator.spelling? tag).isNone
  | _ => []

def NamesOnOneLine (t : Tree) : Prop := ∀ u ∈ t.preorder, ∀ name ∈ u.ownNames, OneLine name

instance : DecidablePred NamesOnOneLine := fun t =>
  inferInstanceAs (Decidable (∀ u ∈ t.preorder, ∀ name ∈ u.ownNames, OneLine name))

section Parts

variable {t u content : Tree}

theorem mem_of_lookup {α : Type} {entries : List (String × α)} {key : String} {a : α}
    (h : entries.lookup key = some a) : (key, a) ∈ entries := by
  obtain ⟨before, after, rfl, -⟩ := List.lookup_eq_some_iff.mp h
  exact List.mem_append_right _ List.mem_cons_self

theorem self_mem_preorder (t : Tree) : t ∈ t.preorder := by
  cases t <;> simp [preorder]

/-- Behind a value with slots come the contents of the slots. -/
theorem preorder_eq (h : t.slots ≠ []) :
    t.preorder = t :: t.slots.flatMap fun slot => slot.2.preorder := by
  cases t <;> simp_all [slots, preorder]

theorem mem_preorder_slot {slot : String × Tree} (hslot : slot ∈ t.slots)
    (hu : u ∈ slot.2.preorder) : u ∈ t.preorder := by
  rw [preorder_eq (List.ne_nil_of_mem hslot)]
  exact List.mem_cons_of_mem _ (List.mem_flatMap.mpr ⟨slot, hslot, hu⟩)

theorem mem_preorderAll {items : List Tree} {item : Tree} (hitem : item ∈ items)
    (hu : u ∈ item.preorder) : u ∈ preorderAll items := by
  induction items with
  | nil => exact absurd hitem List.not_mem_nil
  | cons first rest ih =>
    rw [preorderAll, List.mem_append]
    rcases List.mem_cons.mp hitem with rfl | hrest
    · exact .inl hu
    · exact .inr (ih hrest)

theorem NamesOnOneLine.own (h : t.NamesOnOneLine) : ∀ name ∈ t.ownNames, OneLine name :=
  h t (self_mem_preorder t)

theorem NamesOnOneLine.slot (h : t.NamesOnOneLine) (slot : String)
    (hslot : t.slot? slot = some content) : content.NamesOnOneLine :=
  fun u hu => h u (mem_preorder_slot (mem_of_lookup hslot) hu)

theorem NamesOnOneLine.items (h : t.NamesOnOneLine) {items : List Tree}
    (hitems : t.items? = some items) : ∀ item ∈ items, item.NamesOnOneLine := by
  intro item hitem
  cases t with
  | sequence fixed _ =>
    cases hitems
    exact fun u hu => h u (List.mem_cons_of_mem _ (mem_preorderAll hitem hu))
  | _ => cases hitems

/-- The name under which a value is rendered is one of its own. -/
theorem NamesOnOneLine.jvmName (h : t.NamesOnOneLine) : Gives t.jvmName OnOneLine := by
  cases t with
  | typeRef | varRef | funRef => exact Gives.ok h.own
  | _ => exact Gives.error _

theorem NamesOnOneLine.jvmSpelling (h : t.NamesOnOneLine) : Gives t.jvmSpelling OneLine :=
  h.jvmName.bind fun _ hname => hname.spelling

theorem namesOnOneLine_absent : absent.NamesOnOneLine := by
  intro u hu name hname
  cases List.mem_singleton.mp hu
  exact absurd hname List.not_mem_nil

theorem NamesOnOneLine.getD (h : t.NamesOnOneLine) (slot : String) :
    ((t.slot? slot).getD .absent).NamesOnOneLine := by
  cases hslot : t.slot? slot with
  | none => exact namesOnOneLine_absent
  | some content => exact h.slot slot hslot

theorem NamesOnOneLine.require (h : t.NamesOnOneLine) (slot : String) :
    Gives (t.require slot) NamesOnOneLine := by
  unfold Tree.require
  exact (Gives.any _).bind fun _ _ => Gives.ok (h.getD slot)

theorem NamesOnOneLine.slotOf (h : t.NamesOnOneLine) (slot : String) :
    Gives (t.slotOf slot) NamesOnOneLine := by
  unfold Tree.slotOf
  split
  · next content hslot => exact Gives.ok (h.slot slot hslot)
  · exact Gives.error _

theorem needItems_gives (owner slot : String) (content : Tree) :
    Gives (needItems owner slot content) fun items => content.items? = some items := by
  unfold needItems
  refine (Gives.any _).bind fun _ _ => ?_
  cases content with
  | sequence fixed items => exact Gives.ok rfl
  | _ => exact Gives.error _

end Parts

end JavaRender.Tree

namespace JavaRender.Literal

open Emission

/-- Between the marks of a literal line feeds are escaped. -/
theorem oneLine_marked {quote : Char} (hquote : quote = '"' ∨ quote = '\'') {text : String}
    {value : List Char} (htext : text.toList = Lexical.literalChars quote value) :
    OneLine text := by
  intro hmem
  rw [htext] at hmem
  exact (Lexical.unbroken_literal hquote value _ hmem).1 rfl

theorem oneLine_valueText {kind : LiteralKind} {value : Tree} {s : String}
    (hs : valueText? kind value = some s) : OneLine s := by
  unfold valueText? at hs
  split at hs
  · cases hs
    exact oneLine_marked (.inl rfl) (Lexical.text_of_string _)
  · next s' =>
    have htext : ("'" ++ escapeCharacter s' ++ "'").toList =
        Lexical.literalChars '\'' s'.toList := by
      simp [escapeCharacter, escape, Lexical.literalChars]
    split at hs
    · cases hs
      exact oneLine_marked (.inr rfl) htext
    · cases hs
  · cases hs
    exact .int _
  · cases hs
    exact .nat _
  · obtain ⟨d, -, rfl⟩ := Option.map_eq_some_iff.mp hs
    exact .decimal d
  · next b =>
    cases hs
    cases b <;> decide
  · cases hs
    decide
  · cases hs

theorem oneLine_render (value tag : Tree) : Gives (render value tag) OneLine := by
  unfold render
  refine (Gives.any _).bind fun kind _ => ?_
  split
  · next hvalue => exact Gives.ok (oneLine_valueText hvalue)
  · exact Gives.error _

end JavaRender.Literal

namespace JavaRender.Expression

open Emission JavaRender.Tree

/-- Texts of the table and operators outside it. -/
theorem oneLine_operator {tag : Tree}
    (h : ∀ name ∈ tag.texts.filter fun tag => (Operator.spelling? tag).isNone, OneLine name) :
    Yields (Operator.render tag) OnOneLine := by
  have htable : ∀ entry ∈ Operator.spellings, OneLine entry.2 := by decide
  have hasis (htag : tag.OnOneLine) : Yields (do
      let shown ← tag.display?
      modify (· ++ [.unmappedOperator shown])
      pure tag) OnOneLine :=
    (Yields.any _).bind fun _ _ => (Yields.any _).bind fun _ _ => Yields.pure htag
  unfold Operator.render
  refine (Yields.any _).bind fun _ _ => ?_
  cases tag with
  | text s =>
    cases hknown : Operator.spelling? s with
    | some spelling =>
      simp only [hknown]
      exact Yields.pure (htable _ (mem_of_lookup hknown)).onOneLine
    | none =>
      simp only [hknown]
      refine hasis fun name hname => h name (List.mem_filter.mpr ⟨hname, ?_⟩)
      rw [List.mem_singleton.mp hname, hknown]
      rfl
  | _ => exact hasis (List.forall_mem_nil _)

theorem oneLine_qualify {receiver name : Tree} {rendered : Noting Tree} (hname : name.OnOneLine)
    (h : Yields rendered OnOneLine) : Yields (qualify receiver name rendered) OnOneLine := by
  unfold qualify
  split
  · exact Yields.pure hname
  · refine h.bind fun front hfront => ?_
    refine (Yields.lift hfront.spelling).bind fun s hs => ?_
    refine (Yields.lift hname.spelling).bind fun s' hs' => ?_
    exact Yields.pure ((hs.append (by decide)).append hs').onOneLine

theorem oneLine_joined {parts : List Tree} (h : ∀ t ∈ parts, t.OnOneLine) :
    Gives (joined parts) OneLine := by
  unfold joined
  refine Gives.bind (Gives.mapM fun part hpart => ?_) fun words hwords =>
    Gives.ok (OneLine.intercalate (by decide) hwords)
  obtain ⟨t, i⟩ := part
  have ht := h t (List.fst_mem_of_mem_zipIdx hpart)
  cases t with
  | text s => exact Gives.ok (ht s List.mem_cons_self)
  | _ => exact Gives.error _

mutual

/-- An expression has no line feed if no name in it has one. -/
theorem oneLine_render : ∀ t : Tree, t.NamesOnOneLine → Yields (render t) OnOneLine
  | .literal value tag, _ => by
    rw [render]
    exact (Yields.lift (Literal.oneLine_render value tag)).bind fun s hs =>
      Yields.pure hs.onOneLine
  | .group expression, h => by
    rw [render]
    refine (Yields.any _).bind fun _ _ => ?_
    refine (oneLine_render expression (h.slot "expression" rfl)).bind fun t ht => ?_
    refine (Yields.lift ht.spelling).bind fun s hs => ?_
    exact Yields.pure ((OneLine.append (by decide) hs).append (by decide)).onOneLine
  | .binary operator left right, h => by
    rw [render]
    refine (Yields.any _).bind fun _ _ => (oneLine_operator h.own).bind fun op hop => ?_
    refine (Yields.any _).bind fun _ _ => ?_
    refine (oneLine_render left (h.slot "left" rfl)).bind fun l hl => ?_
    refine (Yields.any _).bind fun _ _ => ?_
    refine (oneLine_render right (h.slot "right" rfl)).bind fun r hr => ?_
    refine (Yields.lift hl.spelling).bind fun s hs => ?_
    refine (Yields.lift hop.spelling).bind fun s' hs' => ?_
    refine (Yields.lift hr.spelling).bind fun s'' hs'' => ?_
    exact Yields.pure ((((hs.append (by decide)).append hs').append (by decide)).append
      hs'').onOneLine
  | .access var receiver, h => by
    rw [render]
    have hvar : var.NamesOnOneLine := h.slot "variable" rfl
    refine (Yields.any _).bind fun _ _ => (Yields.lift hvar.jvmName).bind fun name hname => ?_
    exact oneLine_qualify hname (oneLine_render receiver (h.slot "receiver" rfl))
  | .call function arguments receiver, h => by
    rw [render]
    have hfunction : function.NamesOnOneLine := h.slot "function" rfl
    refine (Yields.any _).bind fun _ _ => (Yields.any _).bind fun _ _ => ?_
    refine (oneLine_renderItems arguments (h.slot "arguments" rfl)).bind fun parts hparts => ?_
    refine (Yields.lift (oneLine_joined hparts)).bind fun args hargs => ?_
    refine (Yields.lift hfunction.jvmSpelling).bind fun name hname => ?_
    refine oneLine_qualify ?_ (oneLine_render receiver (h.slot "receiver" rfl))
    exact (((hname.append (by decide)).append hargs).append (by decide)).onOneLine
  | .absent, _ | .boolean _, _ | .integer _, _ | .decimal _, _ | .double _, _ | .text _, _
  | .bytes _, _ | .kind _, _ | .sequence _ _, _ | .typeRef _ _, _ | .varRef _ _ _, _
  | .funRef _ _ _ _, _ | .expressionStmt _, _ | .declaration _ _, _ | .assignment _ _, _
  | .ifElse _ _ _, _ | .forEach _ _ _, _ | .whileLoop _ _, _ | .returnStmt _, _ | .field _ _, _
  | .method _ _ _, _ | .source _ _, _ => Yields.throw _

theorem oneLine_renderItems : ∀ t : Tree, t.NamesOnOneLine →
    Yields (renderItems t) fun parts => ∀ part ∈ parts, part.OnOneLine
  | .sequence _ items, h => oneLine_renderAll items (h.items rfl)
  | .absent, _ | .boolean _, _ | .integer _, _ | .decimal _, _ | .double _, _ | .text _, _
  | .bytes _, _ | .kind _, _ | .typeRef _ _, _ | .varRef _ _ _, _ | .funRef _ _ _ _, _
  | .literal _ _, _ | .group _, _ | .binary _ _ _, _ | .access _ _, _ | .call _ _ _, _
  | .expressionStmt _, _ | .declaration _ _, _ | .assignment _ _, _ | .ifElse _ _ _, _
  | .forEach _ _ _, _ | .whileLoop _ _, _ | .returnStmt _, _ | .field _ _, _
  | .method _ _ _, _ | .source _ _, _ => Yields.pure (List.forall_mem_nil _)

theorem oneLine_renderAll : ∀ ts : List Tree, (∀ t ∈ ts, t.NamesOnOneLine) →
    Yields (renderAll ts) fun parts => ∀ part ∈ parts, part.OnOneLine
  | [], _ => Yields.pure (List.forall_mem_nil _)
  | t :: rest, h => by
    rw [renderAll]
    refine (oneLine_render t (h t List.mem_cons_self)).bind fun first hfirst => ?_
    refine (oneLine_renderAll rest fun t ht => h t (List.mem_cons_of_mem _ ht)).bind
      fun others hothers => ?_
    exact Yields.pure (List.forall_mem_cons.mpr ⟨hfirst, hothers⟩)

end

end JavaRender.Expression
