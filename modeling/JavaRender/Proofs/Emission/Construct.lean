import JavaRender.Proofs.Emission.Operand

/-!
What each construct of the renderer decides, in terms of what its parts decide: statements and their
bodies, fields and methods, classes, and the emission of a whole tree.
-/
namespace JavaRender.Emission

open JavaRender.Tree (Fault)

structure Listing (bad : Fault → Prop) (writes : List Tree → Render Unit) (t : Tree)
    (good : Prop) : Prop where
  given : good → t.items?.isSome = true
  written : ∀ items, t.items? = some items → Decides Reliable (writes items) good bad anything

section Declarations

variable {bad : Fault → Prop} {good : Prop} (hbad : ∀ fault, IsMalformed fault → bad fault)
include hbad

theorem decides_field {t var value : Tree} (hvar : t.slot? "variable" = some var)
    (hvalue : t.slot? "value" = some value)
    (h : Decides anything (Emitter.declarationText var value) good bad anything) :
    Decides Reliable (Emitter.field t) good bad anything := by
  have hrequire := require_verdict hbad t "variable"
  rw [hvar, Option.getD_some] at hrequire
  have hslot : t.slotOf "value" = .ok value := by rw [Tree.slotOf, hvalue]
  unfold Emitter.field
  refine ((Decides.lift hrequire).bind fun content hcontent => ?_).congr
    (and_iff_right_of_imp (variable_present h))
  obtain ⟨rfl, -⟩ := hcontent
  refine Decides.lift_bind hslot ?_
  refine ((Decides.noting h).bind fun text _ => ?_).congr (and_iff_left trivial)
  exact Decides.fullLine (ok_verdict text)

/-- The header of a method has all its parts, and a name for each type of a parameter. -/
theorem header_verdict {name jvmName returnType parameterTypes parameters statements : Tree}
    (hname : IsName jvmName) (hreturn : IsType returnType)
    (hparameters : ∀ types names, parameterTypes.items? = some types →
      parameters.items? = some names → types.length = names.length →
        Verdict good bad anything (Emitter.parameterTexts types names)) :
    Verdict (returnType.isAbsent = false ∧ parameterTypes.items?.isSome = true ∧
        parameters.items?.isSome = true ∧ statements.items?.isSome = true ∧
        (parameterTypes.items?.getD []).length = (parameters.items?.getD []).length ∧ good)
      bad (fun h => Verdict True bad anything h.text)
      (Emitter.header (.method (.funRef name jvmName returnType parameterTypes) parameters
        statements)) := by
  unfold Emitter.header
  refine ((require_verdict hbad (.method (.funRef name jvmName returnType parameterTypes) parameters
    statements) "function").bind fun function hfunction => ?_).congr (and_iff_right rfl)
      fun _ h => h
  obtain ⟨rfl, -⟩ := hfunction
  refine (require_verdict hbad (.funRef name jvmName returnType parameterTypes)
    "return_type").bind fun _ hcontent => ?_
  obtain ⟨rfl, hpresent⟩ := hcontent
  refine (needItems_verdict hbad _ _ parameterTypes).bind fun types htypes => ?_
  refine (needItems_verdict hbad _ _ parameters).bind fun names hnames => ?_
  refine (needItems_verdict hbad _ _ statements).bind fun _ _ => ?_
  rw [htypes, hnames]
  by_cases hlength : types.length = names.length
  · rw [if_neg (not_not_intro hlength)]
    have hgood : good ∧ True ↔ types.length = names.length ∧ good :=
      and_comm.trans (and_congr_left fun _ => iff_of_true trivial hlength)
    refine ((hparameters types names htypes hnames hlength).bind fun texts _ => ?_).congr hgood
      fun _ h => h
    -- what the header is made of is spelled when its line is written
    exact ⟨trivial, ((hreturn.verdict hpresent).bind fun _ _ => hname.verdict.bind fun _ _ =>
      ok_verdict _).congr (iff_of_true ⟨trivial, trivial, trivial⟩ trivial) fun _ h => h⟩
  · rw [if_pos hlength]
    exact ⟨fun h => hlength h.1, hbad _ ⟨_, _, _, rfl⟩⟩

end Declarations

section Statements

variable {bad : Fault → Prop} {good goodLeft goodRight : Prop}

theorem decides_entryPoint : Decides Reliable Emitter.entryPoint True bad anything := by
  unfold Emitter.entryPoint Emitter.closeLine
  refine (Decides.line (ok_verdict _)).skip fun _ _ => Decides.newline.skip fun _ _ => ?_
  refine (Decides.block (Decides.fullLine (ok_verdict _))).skip fun _ _ => ?_
  exact Decides.fullLine (ok_verdict _)

theorem decides_statements_nil : Decides Reliable (Emitter.statements []) True bad anything :=
  Decides.pure trivial

theorem decides_statements_cons {t : Tree} {rest : List Tree}
    (ht : Decides Reliable (Emitter.visit t) goodLeft bad anything)
    (hrest : Decides Reliable (Emitter.statements rest) goodRight bad anything) :
    Decides Reliable (Emitter.statements (t :: rest)) (goodLeft ∧ goodRight) bad anything := by
  rw [Emitter.statements]
  refine ht.bind fun _ _ => ?_
  dsimp only
  split
  · exact Decides.newline.skip fun _ _ => hrest
  · exact hrest

theorem decides_bodyOf {t : Tree} (h : Listing bad Emitter.statements t good)
    (hitems : t.items?.isSome = true) : Decides Reliable (Emitter.bodyOf t) good bad anything := by
  cases t with
  | sequence fixed items =>
    have hwritten := h.written items rfl
    cases items with
    | nil =>
      have hstart : Reliable { terminator := "" } := rfl
      have hgood : good := hwritten.holds hstart rfl
      exact (Decides.write _).congr (iff_of_true trivial hgood)
    | cons t rest =>
      refine (Decides.write _).skip fun _ _ => Decides.newline.skip fun _ _ => ?_
      refine ((Decides.block hwritten).bind fun _ _ => ?_).congr (and_iff_left trivial)
      exact Decides.line (ok_verdict _)
  | _ => cases hitems

/-- Without a sequence there are no statements to write. -/
theorem decides_statementsOf {t : Tree} (h : Listing bad Emitter.statements t good) :
    Decides Reliable (Emitter.statementsOf t) (t.items?.isSome = true → good) bad anything := by
  cases t with
  | sequence fixed items =>
    exact (h.written items rfl).congr ⟨fun hgood _ => hgood, fun hgood => hgood rfl⟩
  | _ => exact (Decides.pure trivial).congr (iff_of_true trivial Bool.noConfusion)

variable (hbad : ∀ fault, IsMalformed fault → bad fault)
include hbad

theorem decides_expressionStmt {e : Tree} (h : Operand bad e good) :
    Decides Reliable (Emitter.visit (.expressionStmt e)) good bad anything := by
  rw [Emitter.visit]
  refine Decides.check (need_verdict hbad _ _ e) h.present fun _ => ?_
  refine (Decides.bind (Decides.noting h) fun t ht => ?_).congr (and_iff_left trivial)
  exact Decides.fullLine (ht.line fun s => s ++ ";")

theorem decides_declaration {var value : Tree}
    (h : Decides anything (Emitter.declarationText var value) good bad anything) :
    Decides Reliable (Emitter.visit (.declaration var value)) good bad anything := by
  rw [Emitter.visit]
  refine Decides.check (need_verdict hbad _ _ var) (variable_present h) fun _ => ?_
  refine ((Decides.noting h).bind fun text _ => ?_).congr (and_iff_left trivial)
  exact Decides.line (ok_verdict text)

theorem decides_assignment {receiver value : Tree} (hreceiver : Operand bad receiver goodLeft)
    (hvalue : Operand bad value goodRight) :
    Decides Reliable (Emitter.visit (.assignment receiver value)) (goodLeft ∧ goodRight) bad
      anything := by
  rw [Emitter.visit]
  refine Decides.check (need_verdict hbad _ _ receiver) (fun h => hreceiver.present h.1)
    fun _ => ?_
  refine Decides.bind (Decides.noting hreceiver) fun target htarget => ?_
  refine Decides.check (need_verdict hbad _ _ value) hvalue.present fun _ => ?_
  refine (Decides.bind (Decides.noting hvalue) fun text htext => ?_).congr (and_iff_left trivial)
  refine Decides.fullLine (Verdict.congr (htarget.verdict.bind fun front _ =>
    htext.line fun s => front ++ " = " ++ s ++ ";") and_self_iff fun _ h => h)

theorem decides_ifElse {condition thenStatements elseStatements : Tree} {goodThen goodElse : Prop}
    (hcondition : Operand bad condition good)
    (hthen : Listing bad Emitter.statements thenStatements goodThen)
    (helse : Listing bad Emitter.statements elseStatements goodElse) :
    Decides Reliable (Emitter.visit (.ifElse condition thenStatements elseStatements))
      (good ∧ goodThen ∧ goodElse) bad anything := by
  rw [Emitter.visit]
  refine Decides.check (need_verdict hbad _ _ condition) (fun h => hcondition.present h.1)
    fun _ => ?_
  refine Decides.bind (Decides.noting hcondition) fun text htext => ?_
  refine Decides.check (needItems_verdict hbad _ _ thenStatements) (fun h => hthen.given h.1)
    fun hthenItems => ?_
  refine ((Decides.lift (needItems_verdict hbad _ _ elseStatements)).bind fun others hothers =>
    (?_ : Decides Reliable _ (goodThen ∧ goodElse) bad anything)).congr
      (and_iff_right_of_imp fun h => helse.given h.2)
  have helseItems : elseStatements.items?.isSome = true := by rw [hothers]; rfl
  refine (Decides.line (htext.line fun s => "if (" ++ s ++ ")")).skip fun _ _ => ?_
  refine (decides_bodyOf hthen hthenItems).bind fun _ _ => ?_
  cases others with
  | nil =>
    have hstart : Reliable { terminator := "" } := rfl
    have hgood : goodElse := (helse.written [] hothers).holds hstart rfl
    exact (Decides.pure trivial).congr (iff_of_true trivial hgood)
  | cons t rest => exact (Decides.write _).skip fun _ _ => decides_bodyOf helse helseItems

theorem decides_forEach {name value statements : Tree} (hname : IsName name)
    (hvalue : Operand bad value goodLeft)
    (hbody : Listing bad Emitter.statements statements goodRight) :
    Decides Reliable (Emitter.visit (.forEach name value statements))
      (name.isAbsent = false ∧ goodLeft ∧ goodRight) bad anything := by
  rw [Emitter.visit]
  refine (Decides.lift (need_verdict hbad _ _ name)).bind fun _ _ => ?_
  refine Decides.check (need_verdict hbad _ _ value) (fun h => hvalue.present h.1) fun _ => ?_
  refine Decides.bind (Decides.noting hvalue) fun text htext => ?_
  refine Decides.check (needItems_verdict hbad _ _ statements) hbody.given fun hitems => ?_
  refine (Decides.line (Verdict.congr (hname.verdict.bind fun shown _ =>
    htext.line fun s => "for (var " ++ shown ++ " : " ++ s ++ ")") and_self_iff
      fun _ h => h)).skip fun _ _ => ?_
  exact ((decides_bodyOf hbody hitems).bind fun _ _ => Decides.newline).congr (and_iff_left trivial)

theorem decides_whileLoop {condition statements : Tree}
    (hcondition : Operand bad condition goodLeft)
    (hbody : Listing bad Emitter.statements statements goodRight) :
    Decides Reliable (Emitter.visit (.whileLoop condition statements)) (goodLeft ∧ goodRight) bad
      anything := by
  rw [Emitter.visit]
  refine Decides.check (need_verdict hbad _ _ condition) (fun h => hcondition.present h.1)
    fun _ => ?_
  refine Decides.bind (Decides.noting hcondition) fun text htext => ?_
  refine Decides.check (needItems_verdict hbad _ _ statements) hbody.given fun hitems => ?_
  refine (Decides.line (htext.line fun s => "while (" ++ s ++ ")")).skip fun _ _ => ?_
  exact ((decides_bodyOf hbody hitems).bind fun _ _ => Decides.newline).congr (and_iff_left trivial)

theorem decides_returnStmt {value : Tree} (h : Operand bad value good) :
    Decides Reliable (Emitter.visit (.returnStmt value)) good bad anything := by
  rw [Emitter.visit]
  refine Decides.check (need_verdict hbad _ _ value) h.present fun _ => ?_
  refine (Decides.bind (Decides.noting h) fun t ht => ?_).congr (and_iff_left trivial)
  exact Decides.fullLine (ht.line fun s => "return " ++ s ++ ";")

end Statements

section Classes

variable {bad : Fault → Prop} {good goodRest : Prop}

theorem decides_fields_cons {t : Tree} {rest : List Tree}
    (ht : Decides Reliable (Emitter.field t) good bad anything)
    (hrest : Decides Reliable (Emitter.fields rest) goodRest bad anything) :
    Decides Reliable (Emitter.fields (t :: rest)) (good ∧ goodRest) bad anything :=
  ht.bind fun _ _ => hrest

theorem decides_methods_cons {first : Bool} {t : Tree} {rest : List Tree}
    (ht : Decides Reliable (Emitter.method t) good bad anything)
    (hrest : Decides Reliable (Emitter.methods false rest) goodRest bad anything) :
    Decides Reliable (Emitter.methods first (t :: rest)) (good ∧ goodRest) bad anything := by
  rw [Emitter.methods]
  cases first with
  | true => exact ht.bind fun _ _ => hrest
  | false => exact Decides.newline.skip fun _ _ => ht.bind fun _ _ => hrest

/-- A method is written when its header can be made and its body be written. -/
theorem decides_methodAround {t : Tree} {body : Render Unit}
    (hheader : Verdict good bad (fun h => Verdict True bad anything h.text) (Emitter.header t))
    (hbody : Decides Reliable body goodRest bad anything) :
    Decides Reliable (Emitter.methodAround t body) (good ∧ goodRest) bad anything := by
  unfold Emitter.methodAround Emitter.closeLine
  refine (Decides.lift hheader).bind fun h hh => ?_
  refine (Decides.line hh).skip fun _ _ => Decides.newline.skip fun _ _ => ?_
  refine ((Decides.block hbody).bind fun _ _ => ?_).congr (and_iff_left trivial)
  exact Decides.fullLine (ok_verdict _)

/-- An emission decides what the visit decides; the notice behind it decides nothing. -/
theorem decides_emit {t : Tree} (h : Decides Reliable (Emitter.visit t) good bad anything) :
    Decides Reliable (Emitter.emit t) good bad anything := by
  obtain ⟨ending, hending, hemit⟩ : ∃ ending : Render Unit,
      Decides Reliable ending True bad anything ∧ ∀ e : Emitter,
        Emitter.emit t e = (Emitter.visit t >>= fun _ => ending) { e with level := 0 } := by
    cases t with
    | source fieldSlot methodSlot =>
      have hnote : ∀ notice : Notice, Decides Reliable
          (modify fun e : Emitter => { e with notices := e.notices ++ [notice] } : Render Unit)
            True bad anything :=
        fun _ _ he => ⟨he, trivial, trivial⟩
      exact ⟨_, hnote _, fun _ => rfl⟩
    | _ => exact ⟨pure (), Decides.pure trivial, fun _ => rfl⟩
  intro e he
  rw [hemit]
  exact ((h.bind fun _ _ => hending).congr (and_iff_left trivial)) { e with level := 0 } he

/-- A text is generated exactly when the tree can be visited. -/
theorem generate_verdict {t : Tree} (h : Decides Reliable (Emitter.visit t) good bad anything)
    (terminator : String) : Verdict good bad anything (Emitter.generate t terminator).1 := by
  have hverdict := (decides_emit h { terminator } rfl).2
  change Verdict good bad anything ((Emitter.emit t { terminator }).1.map fun _ => _)
  cases hrun : (Emitter.emit t { terminator }).1 with
  | error fault =>
    rw [hrun] at hverdict
    exact hverdict
  | ok _ =>
    rw [hrun] at hverdict
    exact ⟨hverdict.1, trivial⟩

/-- A class is written when its fields and its methods are. -/
theorem decides_class {fixed fixed' : Bool} {fieldItems methodItems : List Tree}
    {goodFields goodMethods : Prop}
    (hfields : Decides Reliable (Emitter.fields fieldItems) goodFields bad anything)
    (hmethods : Decides Reliable (Emitter.methods true methodItems) goodMethods bad anything) :
    Decides Reliable (Emitter.visit (.source (.sequence fixed fieldItems)
      (.sequence fixed' methodItems))) (goodFields ∧ goodMethods) bad anything := by
  have hstart : Reliable { terminator := "" } := rfl
  have hmethodPart : Decides Reliable (Emitter.entryPoint >>= fun _ =>
      if methodItems.isEmpty then pure () else Emitter.newline >>= fun _ =>
        Emitter.methodsOf (.sequence fixed' methodItems)) goodMethods bad anything := by
    refine decides_entryPoint.skip fun _ _ => ?_
    cases methodItems with
    | nil =>
      have hgood : goodMethods := hmethods.holds hstart rfl
      exact (Decides.pure trivial).congr (iff_of_true trivial hgood)
    | cons t rest => exact Decides.newline.skip fun _ _ => hmethods
  simp only [Emitter.visit]
  refine Decides.lift_bind rfl (Decides.lift_bind rfl ?_)
  refine (Decides.write _).skip fun _ _ => Decides.newline.skip fun _ _ => ?_
  refine ((Decides.block ?_).bind fun _ _ => Decides.line (ok_verdict _)).congr
    (and_iff_left trivial)
  cases fieldItems with
  | nil =>
    have hgood : goodFields := hfields.holds hstart rfl
    exact hmethodPart.congr (and_iff_right hgood).symm
  | cons t rest =>
    refine Decides.newline.skip fun _ _ => hfields.bind fun _ _ => ?_
    exact Decides.newline.skip fun _ _ => hmethodPart

/-- Without its two sequences a source is refused. -/
theorem decides_source (hbad : ∀ fault, IsMalformed fault → bad fault) {fieldSlot methodSlot : Tree}
    {goodFields goodMethods : Prop} (hfields : Listing bad Emitter.fields fieldSlot goodFields)
    (hmethods : Listing bad (Emitter.methods true) methodSlot goodMethods) :
    Decides Reliable (Emitter.visit (.source fieldSlot methodSlot)) (goodFields ∧ goodMethods) bad
      anything := by
  cases fieldSlot with
  | sequence fixed fieldItems =>
    cases methodSlot with
    | sequence fixed' methodItems =>
      exact decides_class (hfields.written _ rfl) (hmethods.written _ rfl)
    | _ =>
      exact Decides.refused (fun _ => rfl) (hbad _ ⟨_, _, _, rfl⟩)
        fun h => nomatch hmethods.given h.2
  | _ =>
    exact Decides.refused (fun _ => rfl) (hbad _ ⟨_, _, _, rfl⟩) fun h => nomatch hfields.given h.1

end Classes

end JavaRender.Emission
