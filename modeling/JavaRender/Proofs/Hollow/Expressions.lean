import JavaRender.Proofs.Hollow.Gaps

/-!
Rendering expressions with pieces missing. An expression comes to a text exactly when its gaps are
names only; otherwise it ends in a fault that one of its gaps leads to, or is malformed.
-/
namespace JavaRender.Hollow

open JavaRender.Tree (Fault)
open Emission Typed

def Named (gs : List Gap) : Prop := ∀ g ∈ gs, g = .name

/-- The faults that `bad` allows: malformed trees and those that one of the gaps leads to. -/
structure Excuses (bad : Fault → Prop) (gs : List Gap) : Prop where
  malformed : ∀ fault, IsMalformed fault → bad fault
  caused : ∀ g ∈ gs, ∀ fault, g.Causes fault → bad fault

def Shown (t shown : Tree) : Prop :=
  if isNameless t then shown = .absent else IsText shown

section Gaps

variable {bad : Fault → Prop} {gs gs' : List Gap} {t : Tree}

theorem named_append : Named (gs ++ gs') ↔ Named gs ∧ Named gs' := List.forall_mem_append

theorem named_nil : Named [] ↔ True := iff_true_intro fun _ h => absurd h List.not_mem_nil

theorem not_named {g : Gap} (h : g ≠ .name) : ¬ Named [g] := fun hg => h (hg g List.mem_cons_self)

theorem not_named_checked : ¬ Named [.checked] := not_named (by decide)

theorem named_neededGaps : Named (neededGaps t) ↔ t.isAbsent = false := by
  unfold neededGaps
  cases t.isAbsent with
  | true => exact iff_of_false not_named_checked Bool.noConfusion
  | false => exact named_nil.trans (iff_true_intro rfl).symm

theorem named_nameGaps (t : Tree) : Named (nameGaps t) := by
  unfold nameGaps
  split
  · exact fun _ h => List.mem_singleton.mp h
  · exact named_nil.mpr trivial

theorem named_typeGaps (h : IsType t) : Named (typeGaps t) ↔ t.isAbsent = false := by
  rcases h with ⟨name, jvmName, -, rfl⟩ | rfl
  · exact iff_of_true (named_nameGaps jvmName) rfl
  · exact iff_of_false not_named_checked Bool.noConfusion

theorem exprGaps_nameless (h : isNameless t = true) : exprGaps t = [.name] := by
  unfold isNameless at h
  split at h
  · next name jvmName type receiver =>
    obtain ⟨hname, hreceiver⟩ := Bool.and_eq_true_iff.mp h
    rw [exprGaps, if_pos hreceiver, accessedGaps, nameGaps, if_pos hname, List.append_nil]
  · cases h

namespace Excuses

theorem of_subset (h : Excuses bad gs') (hsub : ∀ g ∈ gs, g ∈ gs') : Excuses bad gs :=
  ⟨h.malformed, fun g hg => h.caused g (hsub g hg)⟩

theorem left (h : Excuses bad (gs ++ gs')) : Excuses bad gs :=
  h.of_subset fun _ => List.mem_append_left _

theorem right (h : Excuses bad (gs ++ gs')) : Excuses bad gs' :=
  h.of_subset fun _ => List.mem_append_right _

/-- A name leads to no fault. -/
theorem of_named (h : Excuses bad gs) (hnamed : Named gs') : Excuses bad gs' :=
  ⟨h.malformed, fun g hg _ hcauses => (hnamed g hg ▸ hcauses).elim⟩

end Excuses

end Gaps

section Shown

variable {t shown : Tree}

theorem Shown.isName (h : Shown t shown) : IsName shown := by
  unfold Shown at h
  split at h
  · exact .inr h
  · exact .inl h

theorem Shown.isText_iff (h : Shown t shown) : IsText shown ↔ isNameless t = false := by
  unfold Shown at h
  split at h
  · next hnameless =>
    have hnotText : ¬ IsText .absent := by
      rintro ⟨s, hs⟩
      cases hs
    subst h
    exact iff_of_false hnotText (hnameless ▸ Bool.noConfusion)
  · next hnamed => exact iff_of_true h (Bool.eq_false_iff.mpr hnamed)

end Shown

namespace Hollowed

variable {t : Tree}

theorem of_absent (h : Hollowed .absent t) : t = .absent := by
  cases h with
  | hole => rfl
  | leaf => rfl

theorem of_text {s : String} (h : Hollowed (.text s) t) : IsName t := by
  cases h with
  | hole => exact .inr rfl
  | leaf => exact .inl ⟨s, rfl⟩

theorem of_type {type : TypeRef} (h : Hollowed type.toTree t) : IsType t := by
  cases h with
  | hole => exact .inr rfl
  | leaf hslots => cases hslots
  | typeRef hname hjvmName => exact .inl ⟨_, _, of_text hjvmName, rfl⟩

theorem of_sequence {fixed : Bool} {ts : List Tree} (h : Hollowed (.sequence fixed ts) t) :
    t = .absent ∨ ∃ ts', t = .sequence fixed ts' ∧ List.Forall₂ Hollowed ts ts' := by
  cases h with
  | hole => exact .inl rfl
  | leaf _ hitems => cases hitems
  | sequence _ hts => exact .inr ⟨_, rfl, hts⟩

/-- The value of a literal has no parts: it is there as it was, or not at all. -/
theorem of_value {k : LiteralKind} {value : Tree} {s : String} (hk : k ≠ .nil)
    (hfits : Literal.valueText? k value = some s) (h : Hollowed value t) :
    t = .absent ∨ t = value := by
  have hvalue : value.slots = [] ∧ value.items? = none := by
    unfold Literal.valueText? at hfits
    split at hfits
    · exact ⟨rfl, rfl⟩
    · exact ⟨rfl, rfl⟩
    · exact ⟨rfl, rfl⟩
    · exact ⟨rfl, rfl⟩
    · cases value <;> first | exact ⟨rfl, rfl⟩ | cases hfits
    · exact ⟨rfl, rfl⟩
    · exact absurd rfl hk
    · cases hfits
  cases h with
  | hole => exact .inl rfl
  | leaf => exact .inr rfl
  | sequence => cases hvalue.2
  | _ => cases hvalue.1

end Hollowed

section Rendering

variable {bad : Fault → Prop}

/-- A piece that is asked for and found missing is malformed before anything else is done. -/
theorem refused_of_hole {σ α : Type} {inv : σ → Prop} {m : ExceptT Fault (StateM σ) α}
    {post : α → Prop} {gs : List Gap} {owner : String} {slot : Option String}
    {problem : Tree.Problem} (hbad : ∀ fault, IsMalformed fault → bad fault)
    (hrun : ∀ s, m s = (.error (.malformed owner slot problem), s)) (hgaps : .checked ∈ gs) :
    Decides inv m (Named gs) bad post :=
  Decides.refused hrun (hbad _ ⟨owner, slot, problem, rfl⟩) fun h =>
    absurd (h _ hgaps) (by decide)

theorem decides_missing (hex : Excuses bad (exprGaps .absent)) :
    Decides anything (Expression.render .absent) (Named (exprGaps .absent)) bad (Shown .absent) :=
  refused_of_hole hex.malformed (fun _ => rfl) List.mem_cons_self

theorem hollow_literal_verdict {k : LiteralKind} {value value' tag' : Tree} {s : String}
    (hbad : ∀ fault, IsMalformed fault → bad fault)
    (hfits : Literal.valueText? k value = some s) (hvalue : Hollowed value value')
    (htag : Hollowed (.kind k) tag') :
    Verdict (Named (literalGaps value' tag')) bad anything (Literal.render value' tag') := by
  have htagged : tag' = .absent ∨ tag' = .kind k := by
    cases htag with
    | hole => exact .inl rfl
    | leaf => exact .inr rfl
  rcases htagged with rfl | rfl
  · exact ⟨not_named_checked, hbad _ ⟨_, _, _, rfl⟩⟩
  · by_cases hk : k = .nil
    · subst hk
      exact ⟨named_nil.mpr trivial, trivial⟩
    · rw [literalGaps_kind hk, named_neededGaps]
      rcases Hollowed.of_value hk hfits hvalue with rfl | rfl
      · simp only [Literal.render, Literal.kindOf, bind, Except.bind, valueText_absent hk]
        exact ⟨Bool.noConfusion, hbad _ ⟨_, _, _, rfl⟩⟩
      · simp only [Literal.render, Literal.kindOf, bind, Except.bind, hfits]
        exact ⟨value_present hk hfits, trivial⟩

/-- What is asked of an expression: whatever is missing, it shows what is left, or ends in a fault
that its gaps lead to. -/
def Renders (bad : Fault → Prop) (s : Tree) : Prop :=
  ∀ t, Hollowed s t → Excuses bad (exprGaps t) →
    Decides anything (Expression.render t) (Named (exprGaps t)) bad (Shown t)

theorem Renders.operand {s t : Tree} (h : Renders bad s) (ht : Hollowed s t)
    (hex : Excuses bad (exprGaps t)) : Operand bad t (Named (exprGaps t)) :=
  (h t ht hex).weaken fun _ => Shown.isName

theorem optional_absent : OptionalOperand bad .absent (Named (optionalGaps .absent)) :=
  ⟨fun _ => named_nil.mpr trivial, Bool.noConfusion⟩

theorem Renders.optional {s t : Tree} (h : Renders bad s) (ht : Hollowed s t)
    (hex : Excuses bad (optionalGaps t)) : OptionalOperand bad t (Named (optionalGaps t)) := by
  cases habsent : t.isAbsent with
  | true =>
    have hgaps : optionalGaps t = [] := by rw [optionalGaps, if_pos habsent]
    exact ⟨fun _ => hgaps ▸ named_nil.mpr trivial, fun h => Bool.noConfusion (habsent.symm.trans h)⟩
  | false =>
    have hgaps : optionalGaps t = exprGaps t := by
      rw [optionalGaps, habsent, if_neg Bool.false_ne_true]
    rw [hgaps] at hex ⊢
    exact ⟨fun h => Bool.noConfusion (habsent.symm.trans h), fun _ => h.operand ht hex⟩

theorem hollow_access {var : VarRef} {var' receiver : Tree} (hvar : Hollowed var.toTree var')
    (hbad : ∀ fault, IsMalformed fault → bad fault)
    (hreceiver : OptionalOperand bad receiver (Named (optionalGaps receiver))) :
    Decides anything (Expression.render (.access var' receiver))
      (Named (exprGaps (.access var' receiver))) bad (Shown (.access var' receiver)) := by
  change Decides anything _ (Named (accessedGaps var' ++ optionalGaps receiver)) bad _
  cases hvar with
  | hole => exact refused_of_hole hbad (fun _ => rfl) List.mem_cons_self
  | leaf hslots => cases hslots
  | @varRef _ _ _ name jvmName type _ hjvmName _ =>
    have hname := hjvmName.of_text
    rw [named_append]
    refine ((decides_access hname hreceiver).congr
      (and_iff_right (named_nameGaps jvmName)).symm).weaken fun shown hshown => ?_
    unfold Shown
    split
    · next hnameless =>
      obtain ⟨hjvmAbsent, hreceiverAbsent⟩ := Bool.and_eq_true_iff.mp hnameless
      rw [if_pos hreceiverAbsent] at hshown
      rcases hname with ⟨s, rfl⟩ | rfl
      · cases hjvmAbsent
      · exact hshown
    · next hnamed =>
      split at hshown
      · next hreceiverAbsent =>
        rcases hname with ⟨s, rfl⟩ | rfl
        · exact ⟨s, hshown⟩
        · exact absurd hreceiverAbsent hnamed
      · exact hshown

section Arguments

variable {ss ts : List Tree}

theorem named_itemGaps :
    Named (itemGaps ts) ↔ (∀ t ∈ ts, Named (exprGaps t)) ∧ ∀ t ∈ ts, isNameless t = false := by
  induction ts with
  | nil =>
    exact iff_of_true (named_nil.mpr trivial)
      ⟨fun _ h => absurd h List.not_mem_nil, fun _ h => absurd h List.not_mem_nil⟩
  | cons t rest ih =>
    rw [itemGaps, named_append, ih, List.forall_mem_cons, List.forall_mem_cons]
    cases hnameless : isNameless t with
    | true =>
      have hargument : ¬ Named [.argument] := not_named (by decide)
      exact iff_of_false (fun h => hargument h.1) fun h => Bool.noConfusion h.2.1
    | false =>
      rw [if_neg Bool.false_ne_true]
      exact ⟨fun h => ⟨⟨h.1, h.2.1⟩, rfl, h.2.2⟩, fun h => ⟨h.1.1, h.1.2, h.2.2⟩⟩

theorem Excuses.of_item {t : Tree} (h : Excuses bad (itemGaps ts)) (ht : t ∈ ts) :
    Excuses bad (exprGaps t) := by
  induction ts with
  | nil => cases ht
  | cons first rest ih =>
    rw [itemGaps] at h
    rcases List.mem_cons.mp ht with rfl | ht
    · cases hnameless : isNameless t with
      | true =>
        refine h.of_named ?_
        rw [exprGaps_nameless hnameless]
        exact fun _ hg => List.mem_singleton.mp hg
      | false =>
        rw [hnameless, if_neg Bool.false_ne_true] at h
        exact h.left
    · exact ih h.right ht

theorem argument_mem_itemGaps {t : Tree} (ht : t ∈ ts) (hnameless : isNameless t = true) :
    .argument ∈ itemGaps ts := by
  induction ts with
  | nil => cases ht
  | cons first rest ih =>
    rw [itemGaps]
    rcases List.mem_cons.mp ht with rfl | ht
    · rw [if_pos hnameless]
      exact List.mem_cons_self
    · exact List.mem_append_right _ (ih ht)

/-- Each argument is rendered on its own, and shows itself. -/
theorem hollow_items (hss : ∀ s ∈ ss, Renders bad s) (hts : List.Forall₂ Hollowed ss ts)
    (hex : ∀ t ∈ ts, Excuses bad (exprGaps t)) :
    Decides anything (Expression.renderAll ts) (∀ t ∈ ts, Named (exprGaps t)) bad
      (List.Forall₂ Shown ts) := by
  induction hts with
  | nil => exact (Decides.pure .nil).congr (iff_of_true trivial nofun)
  | @cons s t _ rest ht _ ih =>
    rw [List.forall_mem_cons]
    have hfirst := hss s List.mem_cons_self t ht (hex t List.mem_cons_self)
    have hrest := ih (fun s hs => hss s (List.mem_cons_of_mem _ hs))
      fun t ht => hex t (List.mem_cons_of_mem _ ht)
    refine hfirst.bind fun shown hshown => ?_
    refine (hrest.bind fun others hothers => ?_).congr (and_iff_left trivial)
    exact Decides.pure (.cons hshown hothers)

theorem names_of_shown {shown : List Tree} (h : List.Forall₂ Shown ts shown) :
    ∀ r ∈ shown, IsName r := by
  induction h with
  | nil => exact nofun
  | cons hfirst _ ih => exact List.forall_mem_cons.mpr ⟨hfirst.isName, ih⟩

theorem texts_of_shown {shown : List Tree} (h : List.Forall₂ Shown ts shown) :
    (∀ r ∈ shown, IsText r) ↔ ∀ t ∈ ts, isNameless t = false := by
  induction h with
  | nil => exact iff_of_true nofun nofun
  | cons hfirst _ ih =>
    rw [List.forall_mem_cons, List.forall_mem_cons, hfirst.isText_iff, ih]

/-- The arguments are joined unless one of them is a name that is not there. -/
theorem hollow_joined {shown : List Tree} (hshown : List.Forall₂ Shown ts shown)
    (hex : Excuses bad (itemGaps ts)) :
    Verdict (∀ t ∈ ts, isNameless t = false) bad anything (Expression.joined shown) := by
  refine (joined_verdict (names_of_shown hshown) fun habsent i => ?_).congr
    (texts_of_shown hshown) fun _ h => h
  have hnotText : ¬ ∀ r ∈ shown, IsText r := fun h => nomatch h _ habsent
  rw [texts_of_shown hshown] at hnotText
  obtain ⟨t, ht, hnameless⟩ : ∃ t ∈ ts, isNameless t = true := by
    by_contra hnone
    refine hnotText fun t ht => Bool.eq_false_iff.mpr fun hnameless => ?_
    exact hnone ⟨t, ht, hnameless⟩
  exact hex.caused _ (argument_mem_itemGaps ht hnameless) _ ⟨i, rfl⟩

theorem hollow_arguments {fixed : Bool} {arguments : Tree} (hss : ∀ s ∈ ss, Renders bad s)
    (harguments : Hollowed (.sequence fixed ss) arguments)
    (hex : Excuses bad (argumentGaps arguments)) :
    Arguments bad arguments (Named (argumentGaps arguments)) := by
  rcases harguments.of_sequence with rfl | ⟨ts, rfl, hts⟩
  · exact ⟨fun h => absurd h not_named_checked, Bool.noConfusion⟩
  · refine ⟨fun _ => rfl, fun _ => ?_⟩
    change Decides anything _ (Named (itemGaps ts)) bad anything
    rw [named_itemGaps]
    refine (hollow_items hss hts fun t ht => hex.of_item ht).bind fun shown hshown => ?_
    exact Decides.lift (hollow_joined hshown hex)

end Arguments

theorem hollow_call {function : FunRef} {function' arguments receiver : Tree}
    (hfunction : Hollowed function.toTree function')
    (hbad : ∀ fault, IsMalformed fault → bad fault)
    (harguments : Arguments bad arguments (Named (argumentGaps arguments)))
    (hreceiver : OptionalOperand bad receiver (Named (optionalGaps receiver))) :
    Decides anything (Expression.render (.call function' arguments receiver))
      (Named (exprGaps (.call function' arguments receiver))) bad IsText := by
  change Decides anything _
    (Named (calledGaps function' ++ (argumentGaps arguments ++ optionalGaps receiver))) bad _
  cases hfunction with
  | hole => exact refused_of_hole hbad (fun _ => rfl) List.mem_cons_self
  | leaf hslots => cases hslots
  | funRef _ hjvmName _ _ =>
    rw [named_append, named_append]
    exact (decides_call hbad hjvmName.of_text harguments hreceiver).congr
      (and_iff_right (named_nameGaps _)).symm

/-- Well-sorted expressions are rendered with whatever is missing. -/
theorem renders_expression {s : Tree} (hs : IsExpression s) : Renders bad s := by
  induction hs with
  | literal fits =>
    intro t ht hex
    cases ht with
    | hole => exact decides_missing hex
    | leaf hslots => cases hslots
    | literal hvalue htag =>
      exact decides_literal (hollow_literal_verdict hex.malformed fits hvalue htag)
  | group _ ih =>
    intro t ht hex
    cases ht with
    | hole => exact decides_missing hex
    | leaf hslots => cases hslots
    | group he => exact decides_group hex.malformed (ih.operand he hex)
  | binary op _ _ ihleft ihright =>
    intro t ht hex
    cases ht with
    | hole => exact decides_missing hex
    | leaf hslots => cases hslots
    | @binary _ _ _ op' left right hop hleft hright =>
      rw [exprGaps] at hex ⊢
      rw [named_append, named_append, named_neededGaps]
      exact decides_binary hex.malformed hop.of_text (ihleft.operand hleft hex.right.left)
        (ihright.operand hright hex.right.right)
  | access var =>
    intro t ht hex
    cases ht with
    | hole => exact decides_missing hex
    | leaf hslots => cases hslots
    | access hvar hreceiver =>
      cases hreceiver.of_absent
      exact hollow_access hvar hex.malformed optional_absent
  | member var _ ih =>
    intro t ht hex
    cases ht with
    | hole => exact decides_missing hex
    | leaf hslots => cases hslots
    | access hvar hreceiver =>
      exact hollow_access hvar hex.malformed (ih.optional hreceiver hex.right)
  | call function _ ih =>
    intro t ht hex
    cases ht with
    | hole => exact decides_missing hex
    | leaf hslots => cases hslots
    | call hfunction harguments hreceiver =>
      cases hreceiver.of_absent
      exact hollow_call hfunction hex.malformed
        (hollow_arguments ih harguments hex.right.left) optional_absent
  | invocation function _ _ iharguments ihreceiver =>
    intro t ht hex
    cases ht with
    | hole => exact decides_missing hex
    | leaf hslots => cases hslots
    | call hfunction harguments hreceiver =>
      exact hollow_call hfunction hex.malformed
        (hollow_arguments iharguments harguments hex.right.left)
        (ihreceiver.optional hreceiver hex.right.right)

end Rendering

end JavaRender.Hollow
