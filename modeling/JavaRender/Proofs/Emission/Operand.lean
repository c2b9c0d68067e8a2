import JavaRender.Proofs.Emission.Decision

/-!
What the texts of expressions and declarations decide, in terms of what their parts decide. The
parts may be any values; a part that is needed but absent decides something false, for it is refused
as malformed.
-/
namespace JavaRender.Emission

open JavaRender.Tree (Fault)

def IsText (t : Tree) : Prop := ∃ s, t = .text s

def IsName (t : Tree) : Prop := IsText t ∨ t = .absent

def IsMalformed (fault : Fault) : Prop :=
  ∃ owner slot problem, fault = .malformed owner slot problem

def Operand (bad : Fault → Prop) (t : Tree) (good : Prop) : Prop :=
  Decides anything (Expression.render t) good bad IsName

structure OptionalOperand (bad : Fault → Prop) (t : Tree) (good : Prop) : Prop where
  absent : t.isAbsent = true → good
  present : t.isAbsent = false → Operand bad t good

structure Arguments (bad : Fault → Prop) (t : Tree) (good : Prop) : Prop where
  given : good → t.items?.isSome = true
  joined : t.items?.isSome = true →
    Decides anything (Expression.renderItems t >>= fun ts => liftM (Expression.joined ts)) good bad
      anything

def IsType (t : Tree) : Prop :=
  (∃ name jvmName, IsName jvmName ∧ t = .typeRef name jvmName) ∨ t = .absent

theorem ok_verdict {α : Type} {bad : Fault → Prop} (a : α) :
    Verdict True bad anything (.ok a : Except Fault α) :=
  ⟨trivial, trivial⟩

theorem IsName.verdict {bad : Fault → Prop} {t : Tree} (h : IsName t) :
    Verdict True bad anything t.spelling? := by
  rcases h with ⟨s, rfl⟩ | rfl
  · exact ⟨trivial, trivial⟩
  · exact ⟨trivial, trivial⟩

/-- A value that is spelled makes a line, whatever stands around it. -/
theorem IsName.line {bad : Fault → Prop} {t : Tree} (h : IsName t) (around : String → String) :
    Verdict True bad anything (t.spelling? >>= fun s => .ok (around s)) :=
  (h.verdict.bind fun _ _ => ok_verdict _).congr (and_self_iff) fun _ h => h

section Lists

variable {bad : Fault → Prop}

/-- A check of names, each with its index, that takes the texts only. -/
theorem mapM_names {check : Tree × Nat → Except Fault String}
    (htext : ∀ s i, check (.text s, i) = .ok s)
    (habsent : ∀ i, check (.absent, i) = .error (.notJoinable i "NoneType")) {ts : List Tree}
    (hnames : ∀ t ∈ ts, IsName t) (hbad : Tree.absent ∈ ts → ∀ i, bad (.notJoinable i "NoneType"))
    (start : Nat) : Verdict (∀ t ∈ ts, IsText t) bad anything ((ts.zipIdx start).mapM check) := by
  induction ts generalizing start with
  | nil => exact ⟨fun _ h => absurd h List.not_mem_nil, trivial⟩
  | cons t rest ih =>
    have hrest := ih (fun t ht => hnames t (List.mem_cons_of_mem _ ht))
      (fun h => hbad (List.mem_cons_of_mem _ h)) (start + 1)
    have hcons : (IsText t ∧ ∀ t ∈ rest, IsText t) ↔ ∀ t' ∈ t :: rest, IsText t' := by
      rw [List.forall_mem_cons]
    have hfirst : Verdict (IsText t) bad anything (check (t, start)) := by
      rcases hnames t List.mem_cons_self with ⟨s, rfl⟩ | rfl
      · rw [htext]
        exact ⟨⟨s, rfl⟩, trivial⟩
      · rw [habsent]
        have hnot : ¬ IsText .absent := fun ⟨_, hs⟩ => nomatch hs
        exact ⟨hnot, hbad List.mem_cons_self _⟩
    rw [List.zipIdx_cons, List.mapM_cons]
    refine (hfirst.bind fun s _ => ?_).congr hcons fun _ h => h
    exact (hrest.bind fun ss _ => ok_verdict _).congr (and_iff_left trivial) fun _ h => h

/-- Texts are joined; a name that is absent cannot be. -/
theorem joined_verdict {ts : List Tree} (hnames : ∀ t ∈ ts, IsName t)
    (hbad : Tree.absent ∈ ts → ∀ i, bad (.notJoinable i "NoneType")) :
    Verdict (∀ t ∈ ts, IsText t) bad anything (Expression.joined ts) :=
  ((mapM_names (fun _ _ => rfl) (fun _ => rfl) hnames hbad 0).bind fun _ _ =>
    ok_verdict _).congr (and_iff_left trivial) fun _ h => h

/-- The parameters of a header: each has a type, whose name is spelled. -/
theorem parameterTexts_verdict {types names : List Tree} (hlength : types.length = names.length)
    (htypes : ∀ t ∈ types, IsType t) (hnames : ∀ t ∈ names, IsName t)
    (hbad : Tree.absent ∈ types → bad (.noSlot "NoneType" "jvm_name")) :
    Verdict (∀ t ∈ types, t.isAbsent = false) bad anything
      (Emitter.parameterTexts types names) := by
  induction types generalizing names with
  | nil => exact ⟨fun _ h => absurd h List.not_mem_nil, trivial⟩
  | cons type types ih =>
    obtain ⟨name, names, rfl⟩ := List.exists_cons_of_length_eq_add_one hlength.symm
    have hrest := ih (Nat.succ.inj hlength) (fun t ht => htypes t (List.mem_cons_of_mem _ ht))
      (fun t ht => hnames t (List.mem_cons_of_mem _ ht))
      fun habsent => hbad (List.mem_cons_of_mem _ habsent)
    have hfirst : Verdict (type.isAbsent = false) bad anything type.jvmSpelling := by
      rcases htypes type List.mem_cons_self with ⟨n, j, hj, rfl⟩ | rfl
      · exact hj.verdict.congr (iff_of_true trivial rfl) fun _ h => h
      · exact ⟨Bool.noConfusion, hbad List.mem_cons_self⟩
    have hcons : (type.isAbsent = false ∧ ∀ t ∈ types, t.isAbsent = false) ↔
        ∀ t ∈ type :: types, t.isAbsent = false := by
      rw [List.forall_mem_cons]
    rw [Emitter.parameterTexts]
    refine (hfirst.bind fun typeName _ => ?_).congr hcons fun _ h => h
    refine ((hnames name List.mem_cons_self).verdict.bind fun shown _ => ?_).congr
      (and_iff_right trivial) fun _ h => h
    exact (hrest.bind fun others _ => ok_verdict _).congr (and_iff_left trivial) fun _ h => h

end Lists

section Checks

variable {bad : Fault → Prop} (hbad : ∀ fault, IsMalformed fault → bad fault)
include hbad

theorem need_verdict (owner slot : String) (t : Tree) :
    Verdict (t.isAbsent = false) bad anything (Tree.need owner slot t) := by
  rw [Tree.need]
  cases t.isAbsent with
  | true => exact ⟨Bool.noConfusion, hbad _ ⟨_, _, _, rfl⟩⟩
  | false => exact ⟨rfl, trivial⟩

theorem needItems_verdict (owner slot : String) (t : Tree) :
    Verdict (t.items?.isSome = true) bad (fun items => t.items? = some items)
      (Tree.needItems owner slot t) := by
  cases t with
  | sequence fixed items => exact ⟨rfl, rfl⟩
  | _ => exact ⟨Bool.noConfusion, hbad _ ⟨_, _, _, rfl⟩⟩

theorem require_verdict (t : Tree) (slot : String) :
    Verdict (((t.slot? slot).getD .absent).isAbsent = false) bad
      (fun content => (t.slot? slot).getD .absent = content ∧ content.isAbsent = false)
      (t.require slot) := by
  have hneed := need_verdict hbad t.className slot ((t.slot? slot).getD .absent)
  change Verdict _ bad _ (Tree.need t.className slot ((t.slot? slot).getD .absent) >>= fun _ =>
    .ok ((t.slot? slot).getD .absent))
  cases hr : Tree.need t.className slot ((t.slot? slot).getD .absent) with
  | error fault =>
    rw [hr] at hneed
    exact hneed
  | ok _ =>
    rw [hr] at hneed
    exact ⟨hneed.1, rfl, hneed.1⟩

end Checks

section Expressions

variable {bad : Fault → Prop} {good goodLeft goodRight : Prop}

theorem Operand.present {t : Tree} (h : Operand bad t good) (hgood : good) :
    t.isAbsent = false := by
  cases t with
  | absent => exact absurd hgood (h [] trivial).2.1
  | _ => rfl

theorem decides_literal {value tag : Tree}
    (h : Verdict good bad anything (Literal.render value tag)) :
    Decides anything (Expression.render (.literal value tag)) good bad IsText := by
  rw [Expression.render]
  exact ((Decides.lift h).bind fun s _ => Decides.pure ⟨s, rfl⟩).congr (and_iff_left trivial)

/-- Without a receiver a name stands as it is, also one that is absent. -/
theorem decides_qualify {receiver name : Tree} (hname : IsName name)
    (hreceiver : OptionalOperand bad receiver good) :
    Decides anything (Expression.qualify receiver name (Expression.render receiver)) good bad
      (fun t => if receiver.isAbsent then t = name else IsText t) := by
  rw [Expression.qualify]
  cases hr : receiver.isAbsent with
  | true =>
    have hplain : Decides anything (pure name : Noting Tree) True bad (· = name) := Decides.pure rfl
    exact hplain.congr (iff_of_true trivial (hreceiver.absent hr))
  | false =>
    refine ((hreceiver.present hr).bind fun front hfront => ?_).congr (and_iff_left trivial)
    refine (Decides.lift hfront.verdict).skip fun s _ => ?_
    exact (Decides.lift hname.verdict).skip fun s' _ => Decides.pure ⟨_, rfl⟩

theorem decides_access {name jvmName type receiver : Tree} (hname : IsName jvmName)
    (hreceiver : OptionalOperand bad receiver good) :
    Decides anything (Expression.render (.access (.varRef name jvmName type) receiver)) good bad
      (fun t => if receiver.isAbsent then t = jvmName else IsText t) := by
  rw [Expression.render]
  exact decides_qualify hname hreceiver

/-- An operator that is a text is spelled. -/
theorem decides_operator (s : String) :
    Decides anything (Operator.render (.text s)) True bad IsText := by
  have hkey : (Tree.text s).checkKey = .ok () := rfl
  have hshown : (Tree.text s).display? = .ok (Quoted.text s) := rfl
  unfold Operator.render
  refine Decides.lift_bind hkey ?_
  cases hknown : Operator.spelling? s with
  | some spelling =>
    simp only [hknown]
    exact Decides.pure ⟨_, rfl⟩
  | none =>
    simp only [hknown]
    refine Decides.lift_bind hshown ?_
    have hnote : Decides anything
        (modify (· ++ [.unmappedOperator (Quoted.text s)]) : Noting Unit) True bad anything :=
      fun _ _ => ⟨trivial, trivial, trivial⟩
    exact hnote.skip fun _ _ => Decides.pure ⟨_, rfl⟩

variable (hbad : ∀ fault, IsMalformed fault → bad fault)
include hbad

theorem decides_group {e : Tree} (h : Operand bad e good) :
    Decides anything (Expression.render (.group e)) good bad IsText := by
  rw [Expression.render]
  refine Decides.check (need_verdict hbad _ _ e) h.present fun _ => ?_
  refine (Decides.bind h fun t ht => ?_).congr (and_iff_left trivial)
  exact (Decides.lift ht.verdict).skip fun s _ => Decides.pure ⟨_, rfl⟩

theorem decides_binary {op left right : Tree} (hop : IsName op) (hleft : Operand bad left goodLeft)
    (hright : Operand bad right goodRight) :
    Decides anything (Expression.render (.binary op left right))
      (op.isAbsent = false ∧ goodLeft ∧ goodRight) bad IsText := by
  rw [Expression.render]
  refine Decides.check (need_verdict hbad _ _ op) And.left fun hpresent => ?_
  obtain ⟨s, rfl⟩ : IsText op := hop.resolve_right fun habsent => by
    subst habsent
    cases hpresent
  refine ((decides_operator s).bind fun spelled hspelled => ?_).congr
    (and_congr_left fun _ => iff_of_true trivial rfl)
  refine Decides.check (need_verdict hbad _ _ left) (fun h => hleft.present h.1) fun _ => ?_
  refine Decides.bind hleft fun l hl => ?_
  refine Decides.check (need_verdict hbad _ _ right) hright.present fun _ => ?_
  refine (Decides.bind hright fun r hr => ?_).congr (and_iff_left trivial)
  refine (Decides.lift hl.verdict).skip fun _ _ => ?_
  refine (Decides.lift (IsName.verdict (.inl hspelled))).skip fun _ _ => ?_
  exact (Decides.lift hr.verdict).skip fun _ _ => Decides.pure ⟨_, rfl⟩

theorem decides_call {name jvmName returnType parameterTypes arguments receiver : Tree}
    (hname : IsName jvmName) (harguments : Arguments bad arguments goodLeft)
    (hreceiver : OptionalOperand bad receiver goodRight) :
    Decides anything
      (Expression.render
        (.call (.funRef name jvmName returnType parameterTypes) arguments receiver))
      (goodLeft ∧ goodRight) bad IsText := by
  rw [Expression.render]
  refine Decides.check (need_verdict hbad _ _ _) (fun _ => rfl) fun _ => ?_
  refine Decides.check (needItems_verdict hbad _ _ arguments) (fun h => harguments.given h.1)
    fun hitems => ?_
  rw [← bind_assoc]
  refine (harguments.joined hitems).bind fun args _ => ?_
  refine (Decides.lift (r := Tree.jvmSpelling _) hname.verdict).skip fun spelled _ => ?_
  refine (decides_qualify (.inl ⟨_, rfl⟩) hreceiver).weaken fun t ht => ?_
  split at ht
  · exact ⟨_, ht⟩
  · exact ht

end Expressions

section Declarations

variable {bad : Fault → Prop} {good goodBody : Prop}

theorem IsType.verdict {t : Tree} (h : IsType t) (hpresent : t.isAbsent = false) :
    Verdict True bad anything t.jvmSpelling := by
  rcases h with ⟨name, jvmName, hname, rfl⟩ | rfl
  · exact hname.verdict
  · cases hpresent

/-- Without a variable there is no declaration. -/
theorem variable_present {var value : Tree}
    (h : Decides anything (Emitter.declarationText var value) good bad anything) (hgood : good) :
    var.isAbsent = false := by
  cases var with
  | absent => exact absurd hgood (h [] trivial).2.1
  | _ => rfl

variable (hbad : ∀ fault, IsMalformed fault → bad fault)
include hbad

/-- A declaration has a type; a name that is absent is spelled out. -/
theorem decides_declarationText {name jvmName type value : Tree} (hname : IsName jvmName)
    (htype : IsType type) (hvalue : OptionalOperand bad value good) :
    Decides anything (Emitter.declarationText (.varRef name jvmName type) value)
      (type.isAbsent = false ∧ good) bad anything := by
  unfold Emitter.declarationText
  refine (Decides.lift (require_verdict hbad (.varRef name jvmName type) "type")).bind
    fun content hcontent => ?_
  obtain ⟨rfl, hpresent⟩ := hcontent
  refine (Decides.lift (htype.verdict hpresent)).skip fun typeName _ => ?_
  refine (Decides.lift (r := (Tree.varRef name jvmName type).jvmSpelling) hname.verdict).skip
    fun shown _ => ?_
  cases hvalueAbsent : value.isAbsent with
  | true =>
    have hgood : good := hvalue.absent hvalueAbsent
    exact (Decides.pure trivial).congr (iff_of_true trivial hgood)
  | false =>
    refine (Decides.bind (hvalue.present hvalueAbsent) fun t ht => ?_).congr
      (and_iff_left trivial)
    exact (Decides.lift ht.verdict).skip fun start _ => Decides.pure trivial

end Declarations

end JavaRender.Emission
