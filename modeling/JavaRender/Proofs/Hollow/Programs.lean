import JavaRender.Proofs.Hollow.Expressions

/-!
Programs with pieces missing; main statement: a program is written exactly when its gaps are names
only, and what it ends in otherwise is a malformed tree or a fault that one of its gaps leads to.
-/
namespace JavaRender.Hollow

open JavaRender.Tree (Fault)
open Emission Typed

section Statements

variable {bad : Fault → Prop}

theorem hollow_optional {s t : Tree} (hs : IsOptional s) (ht : Hollowed s t)
    (hex : Excuses bad (optionalGaps t)) : OptionalOperand bad t (Named (optionalGaps t)) := by
  rcases hs with rfl | hs
  · cases ht.of_absent
    exact optional_absent
  · exact (renders_expression hs).optional ht hex

theorem hollow_declared {var : VarRef} {var' value value' : Tree} (hvar : Hollowed var.toTree var')
    (hoptional : IsOptional value) (hvalue : Hollowed value value')
    (hex : Excuses bad (declaredGaps var' value')) :
    Decides anything (Emitter.declarationText var' value') (Named (declaredGaps var' value')) bad
      anything := by
  cases hvar with
  | hole => exact refused_of_hole hex.malformed (fun _ => rfl) List.mem_cons_self
  | leaf hslots => cases hslots
  | @varRef _ _ _ name jvmName type _ hjvmName htype =>
    rw [declaredGaps] at hex ⊢
    rw [named_append, named_append, named_typeGaps htype.of_type]
    refine (decides_declarationText hex.malformed hjvmName.of_text htype.of_type
      (hollow_optional hoptional hvalue hex.right.right)).congr ?_
    exact and_congr_right fun _ => (and_iff_right (named_nameGaps jvmName)).symm

/-- What is asked of a statement: it is written with whatever is missing, or ends in a fault that
its gaps lead to. -/
def Writes (bad : Fault → Prop) (s : Tree) : Prop :=
  ∀ t, Hollowed s t → Excuses bad (stmtGaps t) →
    Decides Reliable (Emitter.visit t) (Named (stmtGaps t)) bad anything

theorem writes_missing (hex : Excuses bad (stmtGaps .absent)) :
    Decides Reliable (Emitter.visit .absent) (Named (stmtGaps .absent)) bad anything :=
  refused_of_hole hex.malformed (fun _ => rfl) List.mem_cons_self

/-- The elements of a sequence are written unless the sequence itself is missing. -/
theorem hollow_listing {gaps : Tree → List Gap} {writes : List Tree → Render Unit} {fixed : Bool}
    {ss : List Tree} {t : Tree}
    (hwrites : ∀ ts, List.Forall₂ Hollowed ss ts → Excuses bad (ts.flatMap gaps) →
      Decides Reliable (writes ts) (Named (ts.flatMap gaps)) bad anything)
    (ht : Hollowed (.sequence fixed ss) t) (hex : Excuses bad (eachGaps gaps t)) :
    Listing bad writes t (Named (eachGaps gaps t)) := by
  rcases ht.of_sequence with rfl | ⟨ts, rfl, hts⟩
  · exact ⟨fun h => absurd h not_named_checked, nofun⟩
  · refine ⟨fun _ => rfl, fun items hitems => ?_⟩
    cases hitems
    exact hwrites ts hts hex

theorem hollow_statements {ss : List Tree} (hss : ∀ s ∈ ss, Writes bad s) (ts : List Tree)
    (hts : List.Forall₂ Hollowed ss ts) (hex : Excuses bad (ts.flatMap stmtGaps)) :
    Decides Reliable (Emitter.statements ts) (Named (ts.flatMap stmtGaps)) bad anything := by
  induction hts with
  | nil => exact decides_statements_nil.congr named_nil.symm
  | @cons s t _ rest ht _ ih =>
    rw [List.flatMap_cons] at hex ⊢
    rw [named_append]
    exact decides_statements_cons (hss s List.mem_cons_self t ht hex.left)
      (ih (fun s hs => hss s (List.mem_cons_of_mem _ hs)) hex.right)

theorem hollow_body {fixed : Bool} {ss : List Tree} {t : Tree} (hss : ∀ s ∈ ss, Writes bad s)
    (ht : Hollowed (.sequence fixed ss) t) (hex : Excuses bad (bodyGaps t)) :
    Listing bad Emitter.statements t (Named (bodyGaps t)) := by
  rw [bodyGaps_eq] at hex ⊢
  exact hollow_listing (hollow_statements hss) ht hex

/-- Well-sorted statements are written with whatever is missing. -/
theorem writes_statement {s : Tree} (hs : IsStatement s) : Writes bad s := by
  induction hs with
  | expression inner =>
    intro t ht hex
    cases ht with
    | hole => exact writes_missing hex
    | leaf hslots => cases hslots
    | expressionStmt he =>
      exact decides_expressionStmt hex.malformed ((renders_expression inner).operand he hex)
  | declaration var hvalue =>
    intro t ht hex
    cases ht with
    | hole => exact writes_missing hex
    | leaf hslots => cases hslots
    | declaration hvar hvalue' =>
      exact decides_declaration hex.malformed (hollow_declared hvar hvalue hvalue' hex)
  | assignment hreceiver hvalue =>
    intro t ht hex
    cases ht with
    | hole => exact writes_missing hex
    | leaf hslots => cases hslots
    | assignment hreceiver' hvalue' =>
      rw [stmtGaps] at hex ⊢
      rw [named_append]
      exact decides_assignment hex.malformed
        ((renders_expression hreceiver).operand hreceiver' hex.left)
        ((renders_expression hvalue).operand hvalue' hex.right)
  | ifElse hcondition _ _ ihthen ihelse =>
    intro t ht hex
    cases ht with
    | hole => exact writes_missing hex
    | leaf hslots => cases hslots
    | ifElse hcondition' hthen helse =>
      rw [stmtGaps] at hex ⊢
      rw [named_append, named_append]
      exact decides_ifElse hex.malformed
        ((renders_expression hcondition).operand hcondition' hex.left)
        (hollow_body ihthen hthen hex.right.left) (hollow_body ihelse helse hex.right.right)
  | forEach name hvalue _ ih =>
    intro t ht hex
    cases ht with
    | hole => exact writes_missing hex
    | leaf hslots => cases hslots
    | forEach hname hvalue' hstatements =>
      rw [stmtGaps] at hex ⊢
      rw [named_append, named_append, named_neededGaps]
      exact decides_forEach hex.malformed hname.of_text
        ((renders_expression hvalue).operand hvalue' hex.right.left)
        (hollow_body ih hstatements hex.right.right)
  | whileLoop hcondition _ ih =>
    intro t ht hex
    cases ht with
    | hole => exact writes_missing hex
    | leaf hslots => cases hslots
    | whileLoop hcondition' hstatements =>
      rw [stmtGaps] at hex ⊢
      rw [named_append]
      exact decides_whileLoop hex.malformed
        ((renders_expression hcondition).operand hcondition' hex.left)
        (hollow_body ih hstatements hex.right)
  | returnStmt hvalue =>
    intro t ht hex
    cases ht with
    | hole => exact writes_missing hex
    | leaf hslots => cases hslots
    | returnStmt hvalue' =>
      exact decides_returnStmt hex.malformed ((renders_expression hvalue).operand hvalue' hex)

end Statements

section Classes

variable {bad : Fault → Prop}

theorem hollow_field {s t : Tree} (hs : IsField s) (ht : Hollowed s t)
    (hex : Excuses bad (fieldGaps t)) :
    Decides Reliable (Emitter.field t) (Named (fieldGaps t)) bad anything := by
  obtain ⟨var, hvalue⟩ := hs
  cases ht with
  | hole => exact refused_of_hole hex.malformed (fun _ => rfl) List.mem_cons_self
  | leaf hslots => cases hslots
  | field hvar hvalue' =>
    exact decides_field hex.malformed rfl rfl (hollow_declared hvar hvalue hvalue' hex)

theorem hollow_fields {ss : List Tree} (hss : ∀ s ∈ ss, IsField s) (ts : List Tree)
    (hts : List.Forall₂ Hollowed ss ts) (hex : Excuses bad (ts.flatMap fieldGaps)) :
    Decides Reliable (Emitter.fields ts) (Named (ts.flatMap fieldGaps)) bad anything := by
  induction hts with
  | nil => exact (Decides.pure trivial).congr named_nil.symm
  | @cons s t _ rest ht _ ih =>
    rw [List.flatMap_cons] at hex ⊢
    rw [named_append]
    exact decides_fields_cons (hollow_field (hss s List.mem_cons_self) ht hex.left)
      (ih (fun s hs => hss s (List.mem_cons_of_mem _ hs)) hex.right)

/-- What the pieces of a sequence were made from tells what is left of each. -/
theorem forall_of_hollowed {α : Type} {toTree : α → Tree} {left : Tree → Prop}
    (hleft : ∀ a t, Hollowed (toTree a) t → left t) {as : List α} {ts : List Tree}
    (hts : List.Forall₂ Hollowed (as.map toTree) ts) : ∀ t ∈ ts, left t := by
  rw [List.forall₂_map_left_iff] at hts
  induction hts with
  | nil => exact nofun
  | cons ht _ ih => exact List.forall_mem_cons.mpr ⟨hleft _ _ ht, ih⟩

theorem named_parameterTypeGaps {t : Tree} (h : IsType t) :
    Named (parameterTypeGaps t) ↔ t.isAbsent = false := by
  have hmissing : ¬ Named [.parameterType] := not_named (by decide)
  rcases h with ⟨name, jvmName, -, rfl⟩ | rfl
  · exact iff_of_true (named_nameGaps jvmName) rfl
  · exact iff_of_false hmissing Bool.noConfusion

theorem named_flatMap {gaps : Tree → List Gap} {ts : List Tree} :
    Named (ts.flatMap gaps) ↔ ∀ t ∈ ts, Named (gaps t) := by
  unfold Named
  simp only [List.mem_flatMap, forall_exists_index, and_imp]
  exact ⟨fun h t ht g hg => h g t ht hg, fun h g t ht hg => h t ht g hg⟩

/-- The parameters of a method: a type that is missing has no name to render. -/
theorem hollow_parameters {types : List TypeRef} {parameters : List String} {ts names : List Tree}
    (hts : List.Forall₂ Hollowed (types.map TypeRef.toTree) ts)
    (hnames : List.Forall₂ Hollowed (parameters.map .text) names)
    (hlength : ts.length = names.length) (hex : Excuses bad (ts.flatMap parameterTypeGaps)) :
    Verdict (Named (ts.flatMap parameterTypeGaps)) bad anything
      (Emitter.parameterTexts ts names) := by
  have htypes := forall_of_hollowed (fun _ _ => Hollowed.of_type) hts
  have hgaps : (∀ t ∈ ts, t.isAbsent = false) ↔ Named (ts.flatMap parameterTypeGaps) := by
    rw [named_flatMap]
    exact forall₂_congr fun t ht => (named_parameterTypeGaps (htypes t ht)).symm
  refine (parameterTexts_verdict hlength htypes (forall_of_hollowed (fun _ _ => Hollowed.of_text)
    hnames) fun habsent => ?_).congr hgaps fun _ h => h
  exact hex.caused _ (List.mem_flatMap.mpr ⟨_, habsent, List.mem_cons_self⟩) _ rfl

theorem given_of_named {gaps : Tree → List Gap} {t : Tree} (h : Named (eachGaps gaps t)) :
    t.items?.isSome = true := by
  cases t with
  | sequence _ _ => rfl
  | _ => exact absurd h not_named_checked

theorem named_names {t : Tree} : Named (eachGaps nameGaps t) ↔ t.items?.isSome = true := by
  cases t with
  | sequence _ items => exact iff_of_true (named_flatMap.mpr fun t _ => named_nameGaps t) rfl
  | _ => exact iff_of_false not_named_checked Bool.noConfusion

/-- A header is made unless one of its checked parts or a parameter type is missing. -/
theorem hollow_header {function : FunRef} {parameters : List String}
    {name jvmName returnType types names statements : Tree}
    (matched : function.parameterTypes.length = parameters.length)
    (hjvmName : Hollowed (.text function.jvmName) jvmName)
    (hreturn : Hollowed function.returnType.toTree returnType)
    (htypes : Hollowed (.sequence true (function.parameterTypes.map TypeRef.toTree)) types)
    (hnames : Hollowed (.sequence true (parameters.map .text)) names)
    (hex : Excuses bad (eachGaps parameterTypeGaps types)) :
    Verdict
      (Named (definedGaps (.funRef name jvmName returnType types)) ∧
        Named (eachGaps nameGaps names) ∧ statements.items?.isSome = true)
      bad (fun h => Verdict True bad anything h.text)
      (Emitter.header (.method (.funRef name jvmName returnType types) names statements)) := by
  have hlength : types.items?.isSome = true → names.items?.isSome = true →
      (types.items?.getD []).length = (names.items?.getD []).length := by
    rcases htypes.of_sequence with rfl | ⟨ts, rfl, hts⟩
    · exact nofun
    rcases hnames.of_sequence with rfl | ⟨ns, rfl, hns⟩
    · exact nofun
    intro _ _
    have h := hts.length_eq.symm
    rw [List.length_map, matched, ← List.length_map (f := Tree.text), hns.length_eq] at h
    exact h
  have hparameters : ∀ ts ns, types.items? = some ts → names.items? = some ns →
      ts.length = ns.length → Verdict (Named (eachGaps parameterTypeGaps types)) bad anything
        (Emitter.parameterTexts ts ns) := by
    intro ts ns htsItems hnsItems hlengths
    rcases htypes.of_sequence with rfl | ⟨ts', rfl, hts⟩
    · cases htsItems
    rcases hnames.of_sequence with rfl | ⟨ns', rfl, hns⟩
    · cases hnsItems
    cases htsItems
    cases hnsItems
    exact hollow_parameters hts hns hlengths hex
  refine (header_verdict hex.malformed hjvmName.of_text hreturn.of_type hparameters).congr ?_
    fun _ h => h
  rw [definedGaps, named_append, named_append, named_typeGaps hreturn.of_type, named_names]
  constructor
  · rintro ⟨hpresent, -, hnamesGiven, hstatements, -, hnamed⟩
    exact ⟨⟨hpresent, named_nameGaps jvmName, hnamed⟩, hnamesGiven, hstatements⟩
  · rintro ⟨⟨hpresent, -, hnamed⟩, hnamesGiven, hstatements⟩
    have hgiven := given_of_named hnamed
    exact ⟨hpresent, hgiven, hnamesGiven, hstatements, hlength hgiven hnamesGiven, hnamed⟩

theorem hollow_method {s t : Tree} (hs : IsMethod s) (ht : Hollowed s t)
    (hex : Excuses bad (methodGaps t)) :
    Decides Reliable (Emitter.method t) (Named (methodGaps t)) bad anything := by
  obtain ⟨function, parameters, matched, hstatements⟩ := hs
  cases ht with
  | hole => exact refused_of_hole hex.malformed (fun _ => rfl) List.mem_cons_self
  | leaf hslots => cases hslots
  | method hfunction hnames hstatements' =>
    rw [methodGaps] at hex ⊢
    cases hfunction with
    | hole => exact refused_of_hole hex.malformed (fun _ => rfl) List.mem_cons_self
    | leaf hslots => cases hslots
    | funRef _ hjvmName hreturn htypes =>
      rw [named_append, named_append]
      have hbody := hollow_body (fun s hs => writes_statement (hstatements s hs)) hstatements'
        hex.right.right
      refine (decides_methodAround (hollow_header matched hjvmName hreturn htypes hnames
        hex.left.right.right) (decides_statementsOf hbody)).congr ?_
      constructor
      · rintro ⟨⟨hdefined, hnamed, hgiven⟩, hwritten⟩
        exact ⟨hdefined, hnamed, hwritten hgiven⟩
      · rintro ⟨hdefined, hnamed, hwritten⟩
        exact ⟨⟨hdefined, hnamed, hbody.given hwritten⟩, fun _ => hwritten⟩

theorem hollow_methods {ss : List Tree} (hss : ∀ s ∈ ss, IsMethod s) (first : Bool) (ts : List Tree)
    (hts : List.Forall₂ Hollowed ss ts) (hex : Excuses bad (ts.flatMap methodGaps)) :
    Decides Reliable (Emitter.methods first ts) (Named (ts.flatMap methodGaps)) bad anything := by
  induction hts generalizing first with
  | nil => exact (Decides.pure trivial).congr named_nil.symm
  | @cons s t _ rest ht _ ih =>
    rw [List.flatMap_cons] at hex ⊢
    rw [named_append]
    exact decides_methods_cons (hollow_method (hss s List.mem_cons_self) ht hex.left)
      (ih (fun s hs => hss s (List.mem_cons_of_mem _ hs)) false hex.right)

theorem hollow_source {s t : Tree} (hs : IsSource s) (ht : Hollowed s t)
    (hex : Excuses bad (gaps t)) :
    Decides Reliable (Emitter.visit t) (Named (gaps t)) bad anything := by
  obtain ⟨hfields, hmethods⟩ := hs
  cases ht with
  | hole => exact refused_of_hole hex.malformed (fun _ => rfl) List.mem_cons_self
  | leaf hslots => cases hslots
  | source hfieldSlot hmethodSlot =>
    rw [gaps] at hex ⊢
    rw [named_append]
    exact decides_source hex.malformed
      (hollow_listing (hollow_fields hfields) hfieldSlot hex.left)
      (hollow_listing (hollow_methods hmethods true) hmethodSlot hex.right)

end Classes

/-- A well-sorted program with pieces missing is emitted exactly when its gaps are names only. Any
other gap makes it end in a fault: the tree is malformed, or a parameter type or an argument is not
what its reader expects. -/
theorem emission_of_hollowed {s t : Tree} (hs : IsSource s) (ht : Hollowed s t) (e : Emitter)
    (he : e.sink.failAt = none) :
    ((Emitter.emit t e).1 = .ok () ↔ ∀ gap ∈ gaps t, gap = .name) ∧
      ∀ fault, (Emitter.emit t e).1 = .error fault →
        IsMalformed fault ∨ ∃ gap ∈ gaps t, gap.Causes fault := by
  have hex : Excuses (fun fault => IsMalformed fault ∨ ∃ gap ∈ gaps t, gap.Causes fault) (gaps t) :=
    ⟨fun _ => .inl, fun gap hgap _ hcauses => .inr ⟨gap, hgap, hcauses⟩⟩
  have hverdict := (decides_emit (hollow_source hs ht hex) e he).2
  cases hrun : (Emitter.emit t e).1 with
  | ok _ =>
    rw [hrun] at hverdict
    exact ⟨iff_of_true rfl hverdict.1, nofun⟩
  | error fault =>
    rw [hrun] at hverdict
    refine ⟨iff_of_false nofun hverdict.1, fun fault' h => ?_⟩
    cases h
    exact hverdict.2

section Sample

def intType : TypeRef := ⟨"Integer", "int"⟩

/-- A field, and a method with one parameter that calls a function; four of its pieces are open. -/
def sample (fieldType fieldName parameterType argument : Tree) : Tree :=
  .source (.sequence true [.field (.varRef (.text "x") fieldName fieldType) .absent])
    (.sequence true [.method
      (.funRef (.text "f") (.text "f") intType.toTree (.sequence true [parameterType]))
      (.sequence true [.text "a"])
      (.sequence true [.returnStmt (.call (FunRef.toTree ⟨"g", "g", intType, [intType]⟩)
        (.sequence true [.access (.varRef (.text "a") argument intType.toTree) .absent])
        .absent)])])

def wholeSample : Tree := sample intType.toTree (.text "x") intType.toTree (.text "a")

theorem isSource_wholeSample : IsSource wholeSample := by
  refine .source ?_ ?_
  · exact List.forall_mem_singleton.mpr (.field ⟨"x", "x", intType⟩ (.inl rfl))
  · refine List.forall_mem_singleton.mpr (.method ⟨"f", "f", intType, [intType]⟩ ["a"] rfl ?_)
    refine List.forall_mem_singleton.mpr (.returnStmt (.call ⟨"g", "g", intType, [intType]⟩ ?_))
    exact List.forall_mem_singleton.mpr (.access ⟨"a", "a", intType⟩)

theorem hollowed_sample {fieldType fieldName parameterType argument : Tree}
    (hfieldType : Hollowed intType.toTree fieldType) (hfieldName : Hollowed (.text "x") fieldName)
    (hparameterType : Hollowed intType.toTree parameterType)
    (hargument : Hollowed (.text "a") argument) :
    Hollowed wholeSample (sample fieldType fieldName parameterType argument) := by
  refine .source (.sequence _ (.cons (.field (.varRef (.refl _) hfieldName hfieldType) (.refl _))
    .nil)) (.sequence _ (.cons (.method ?_ (.refl _) ?_) .nil))
  · exact .funRef (.refl _) (.refl _) (.refl _) (.sequence _ (.cons hparameterType .nil))
  · refine .sequence _ (.cons (.returnStmt (.call (.refl _) (.sequence _ (.cons ?_ .nil))
      (.refl _))) .nil)
    exact .access (.varRef (.refl _) hargument (.refl _)) (.refl _)

def untypedField : Tree := sample .absent (.text "x") intType.toTree (.text "a")

theorem untypedField_malformed :
    IsSource wholeSample ∧ Hollowed wholeSample untypedField ∧
      ∃ fault, (Emitter.emit untypedField { terminator := "\n" }).1 = .error fault ∧
        IsMalformed fault := by
  have hhollowed : Hollowed wholeSample untypedField :=
    hollowed_sample (.hole _) (.refl _) (.refl _) (.refl _)
  obtain ⟨hok, hfault⟩ :=
    emission_of_hollowed isSource_wholeSample hhollowed { terminator := "\n" } rfl
  have hgaps : gaps untypedField = [.checked] := by decide
  rw [hgaps] at hok hfault
  refine ⟨isSource_wholeSample, hhollowed, ?_⟩
  cases hrun : (Emitter.emit untypedField { terminator := "\n" }).1 with
  | ok _ => exact absurd (hok.mp hrun) not_named_checked
  | error fault =>
    refine ⟨fault, rfl, (hfault fault hrun).elim id ?_⟩
    rintro ⟨gap, hgap, hcauses⟩
    cases List.mem_singleton.mp hgap
    exact hcauses

def namelessFieldText : String :=
  "public class Main \x7b\n\n    int None;\n\n" ++
    "    public static void main(String[] args) \x7b\n" ++
    "        System.exit(new Main().main());\n    \x7d\n\n" ++
    "    int f(int a) \x7b\n        return g(a);\n    \x7d\n\x7d"

/-- A name that is missing is written as a word; a missing parameter type and an argument without
its name end in other faults. -/
theorem sample_not_malformed :
    IsSource wholeSample ∧
    (∃ t, Hollowed wholeSample t ∧ (Emitter.generate t "\n").1 = .ok namelessFieldText) ∧
    (∃ t, Hollowed wholeSample t ∧
      (Emitter.generate t "\n").1 = .error (.noSlot "NoneType" "jvm_name")) ∧
    (∃ t, Hollowed wholeSample t ∧
      (Emitter.generate t "\n").1 = .error (.notJoinable 0 "NoneType")) := by
  refine ⟨isSource_wholeSample, ⟨sample intType.toTree .absent intType.toTree (.text "a"), ?_, ?_⟩,
    ⟨sample intType.toTree (.text "x") .absent (.text "a"), ?_, ?_⟩,
    ⟨sample intType.toTree (.text "x") intType.toTree .absent, ?_, ?_⟩⟩
  · exact hollowed_sample (.refl _) (.hole _) (.refl _) (.refl _)
  · decide +kernel
  · exact hollowed_sample (.refl _) (.refl _) (.hole _) (.refl _)
  · decide +kernel
  · exact hollowed_sample (.refl _) (.refl _) (.refl _) (.hole _)
  · decide +kernel

end Sample

end JavaRender.Hollow
