import JavaRender.Proofs.Lacking.Statements
import JavaRender.Proofs.Layout.Refinement

/-!
Programs with one empty spot. Main statement: emission ends in a malformed tree with the class and
the slot of the spot, and what it has written is what every program that fills the spot writes in
front of the innermost statement, field, method or class that holds it.
-/
namespace JavaRender.Lacking

open Typed Layout Emission
open JavaRender.Tree (Fault)

section Members

variable {t : Tree} {spot : Spot} {terminator : String} {level : Nat}

/-- A field evaluates all its parts before it writes. -/
theorem halts_field {f : Field} (h : InField f t spot) :
    Halts (Emitter.field t) terminator level spot.fault "" := by
  cases h with
  | here h =>
    rw [List.mem_singleton.mp h]
    exact Halts.lift_bind rfl
  | type =>
    unfold Emitter.field
    refine Halts.of_check (a := emptied "type" f.var.toTree) rfl ?_
    refine Halts.of_check (a := optionTree f.value) rfl ?_
    exact Halts.noting_bind (fails_declarationText_type f.var _)
  | @initial value hvalue t spot h =>
    unfold Emitter.field
    refine Halts.of_check (a := f.var.toTree) rfl ?_
    refine Halts.of_check (a := t) rfl ?_
    exact Halts.noting_bind (fails_declarationText_value f.var h)

theorem halts_fields (front : List Field) {f : Field} (back : List Tree) (h : InField f t spot) :
    Halts (Emitter.fields (front.map Field.toTree ++ t :: back)) terminator level spot.fault
      (placed terminator level (front.map fieldLine)) := by
  induction front with
  | nil => exact (halts_field h).bind
  | cons first rest ih =>
    have hfirst := prints_field terminator level first
    rw [placed_singleton] at hfirst
    rw [List.map_cons, List.cons_append, List.map_cons, placed_cons]
    exact Halts.of_prints hfirst ih

/-- A method checks its header and asks for its statements before it writes. -/
theorem header_here (m : Method) {slot : String} (h : slot ∈ mandatory m.toTree) :
    Emitter.header (emptied slot m.toTree) = .error (Spot.fault ⟨"Method", slot⟩) := by
  simp only [Method.toTree, mandatory, List.mem_cons, List.not_mem_nil, or_false] at h
  rcases h with rfl | rfl | rfl <;> rfl

theorem header_function (m : Method) {slot : String}
    (h : slot ∈ ["return_type", "parameter_types"]) :
    Emitter.header (.method (emptied slot m.function.toTree)
        (.sequence true (m.parameters.map .text)) (.sequence true (stmtTrees m.statements))) =
      .error (Spot.fault ⟨"Function", slot⟩) := by
  simp only [List.mem_cons, List.not_mem_nil, or_false] at h
  rcases h with rfl | rfl <;> rfl

theorem halts_method {m : Method} {lead own : List String} (h : InMethod m t spot lead own) :
    Halts (Emitter.method t) terminator level spot.fault (placed terminator level lead) := by
  cases h with
  | here h => exact Halts.lift_bind (header_here m h)
  | function h => exact Halts.lift_bind (header_function m h)
  | @body front s back hstatements t spot lead own h =>
    have hbody := halts_statements front (stmtTrees back) (halts_statement h terminator (level + 1))
    rw [placed_cons, placed_deeper]
    refine Halts.of_check (header_with m _) ?_
    refine (Halts.of_prints (Prints.line (s := methodHeader m) rfl)
      (Halts.of_prints Prints.newline hbody.block.bind)).congr ?_
    simp only [String.append_assoc]

theorem lines_method {m : Method} {lead own : List String} (h : InMethod m t spot lead own) :
    ∃ rest, methodLines m = lead ++ (own ++ rest) := by
  cases h with
  | here => exact ⟨[], (List.append_nil _).symm⟩
  | function => exact ⟨[], (List.append_nil _).symm⟩
  | @body front s back hstatements t spot lead own h =>
    obtain ⟨rest, hlines⟩ := lines_statement h
    obtain ⟨rest', hbody⟩ := deeper_body front back hlines
    refine ⟨rest' ++ ["\x7d"], ?_⟩
    rw [methodLines, hstatements, hbody]
    simp only [List.cons_append, List.append_assoc]

/-- Behind the methods in front, and behind an empty line. -/
theorem halts_methods (front : List Method) {m : Method} (back : List Tree)
    {lead own : List String} (h : InMethod m t spot lead own) :
    Halts (Emitter.methods false (front.map Method.toTree ++ t :: back)) terminator 1 spot.fault
      (placed terminator 0 ((front.flatMap fun m => "" :: deeper (methodLines m)) ++
        "" :: deeper lead)) := by
  induction front with
  | nil =>
    rw [List.flatMap_nil, List.nil_append, placed_emptyLine, placed_deeper]
    exact Halts.of_prints Prints.newline (halts_method h).bind
  | cons first rest ih =>
    have hfirst := prints_method terminator 1 first
    rw [← placed_deeper] at hfirst
    rw [List.map_cons, List.cons_append, List.flatMap_cons, List.append_assoc, List.cons_append,
      placed_emptyLine, placed_append]
    exact Halts.of_prints Prints.newline (Halts.of_prints hfirst ih)

end Members

section Programs

variable {fieldItems methodItems : List Tree} {terminator : String} {fault : Fault}

/-- The class has opened its brace. -/
theorem halts_class {lead : List String}
    (h : Halts (memberPart fieldItems methodItems) terminator 1 fault
      (placed terminator 0 lead)) :
    Halts (Emitter.visit (.source (.sequence true fieldItems) (.sequence true methodItems)))
      terminator 0 fault (placed terminator 0 ("public class Main \x7b" :: lead)) := by
  have hhead : "public class " ++ mainClass ++ " \x7b" = "public class Main \x7b" := by decide
  have hindent : indent 0 = "" := rfl
  rw [placed_cons, hindent, String.empty_append, Emitter.visit]
  refine Halts.of_check rfl (Halts.of_check rfl ?_)
  rw [hhead]
  have hmembers : Halts (Emitter.block (memberPart fieldItems methodItems) >>= fun _ =>
      Emitter.line (.ok "\x7d")) terminator 0 fault (placed terminator 0 lead) := h.block.bind
  refine (Halts.of_prints (Prints.write _) (Halts.of_prints Prints.newline hmembers)).congr ?_
  simp only [String.append_assoc]

theorem halts_fieldPart (front : List Field) {f : Field} {t : Tree} {spot : Spot}
    (back methodItems : List Tree) (h : InField f t spot) :
    Halts (memberPart (front.map Field.toTree ++ t :: back) methodItems) terminator 1 spot.fault
      (placed terminator 0 ("" :: deeper (front.map fieldLine))) := by
  have hne : ¬ (front.map Field.toTree ++ t :: back).isEmpty = true := by
    cases front <;> exact Bool.false_ne_true
  rw [memberPart, if_neg hne, placed_emptyLine, placed_deeper]
  exact Halts.of_prints Prints.newline (halts_fields front back h).bind

theorem halts_methodPart (front : List Method) {m : Method} {t : Tree} {spot : Spot}
    (back : List Tree) {lead own : List String} (h : InMethod m t spot lead own) :
    Halts (methodPart (front.map Method.toTree ++ t :: back)) terminator 1 spot.fault
      (placed terminator 0 ((front.flatMap fun m => "" :: deeper (methodLines m)) ++
        "" :: deeper lead)) := by
  have hmethods : Halts (Emitter.methods false (front.map Method.toTree ++ t :: back)) terminator 1
      spot.fault (placed terminator 0 ((front.flatMap fun m => "" :: deeper (methodLines m)) ++
        "" :: deeper lead)) := halts_methods front back h
  cases front <;> exact hmethods

/-- All fields and the entry point come before the methods. -/
theorem halts_memberPart (fields : List Field) {lead : List String}
    (h : Halts (methodPart methodItems) terminator 1 fault (placed terminator 0 lead)) :
    Halts (memberPart (fields.map Field.toTree) methodItems) terminator 1 fault
      (placed terminator 0 (fieldSection fields ++ deeper entryPointLines ++ lead)) := by
  have hlater : Halts (Emitter.entryPoint >>= fun _ => methodPart methodItems) terminator 1 fault
      (placed terminator 0 (deeper entryPointLines) ++ placed terminator 0 lead) :=
    Halts.of_prints (prints_entryPoint terminator) h
  rw [placed_append, placed_append, String.append_assoc]
  cases fields with
  | nil => exact hlater.congr (by rw [fieldSection, placed_nil, String.empty_append])
  | cons f rest =>
    have hfields := prints_fields terminator 1 (f :: rest)
    rw [← placed_deeper] at hfields
    rw [fieldSection, List.cons_append, placed_emptyLine, placed_append, placed_emptyLine,
      placed_nil, String.append_empty]
    refine (Halts.of_prints Prints.newline (Halts.of_prints hfields
      (Halts.of_prints Prints.newline hlater))).congr ?_
    simp only [String.append_assoc]

/-- Emission of a program with an empty spot halts behind the lines in front of the holder. -/
theorem halts_source {s : Source} {t : Tree} {spot : Spot} {lead own : List String}
    (h : InSource s t spot lead own) :
    Halts (Emitter.visit t) terminator 0 spot.fault (placed terminator 0 lead) := by
  cases h with
  | here s h =>
    simp only [Source.toTree, mandatory, List.mem_cons, List.not_mem_nil, or_false] at h
    rcases h with rfl | rfl
    · exact Halts.lift_bind rfl
    · exact Halts.of_check rfl (Halts.lift_bind rfl)
  | field front h back methods => exact halts_class (halts_fieldPart front _ _ h)
  | method fields front h back =>
    rw [List.append_assoc]
    exact halts_class (halts_memberPart fields (halts_methodPart front _ h))

theorem fieldSection_of_ne_nil {fields : List Field} (h : fields ≠ []) :
    fieldSection fields = "" :: (deeper (fields.map fieldLine) ++ [""]) := by
  cases fields with
  | nil => exact absurd rfl h
  | cons f rest => rfl

theorem methodSection_eq (methods : List Method) :
    methodSection methods = methods.flatMap fun m => "" :: deeper (methodLines m) := by
  cases methods with
  | nil => rfl
  | cons m rest => rw [methodSection_cons, List.flatMap_cons, List.cons_append]

/-- The lines of a program begin with those in front of the holder and those of the holder. -/
theorem lines_source {s : Source} {t : Tree} {spot : Spot} {lead own : List String}
    (h : InSource s t spot lead own) : ∃ rest, lines s = lead ++ (own ++ rest) := by
  cases h with
  | here => exact ⟨[], (List.append_nil _).symm⟩
  | @field front f _ _ h back methods =>
    have hne : front ++ f :: back ≠ [] :=
      List.append_ne_nil_of_right_ne_nil _ (List.cons_ne_nil _ _)
    refine ⟨deeper (back.map fieldLine) ++
      ([""] ++ (deeper entryPointLines ++ (methodSection methods ++ ["\x7d"]))), ?_⟩
    rw [lines, fieldSection_of_ne_nil hne, List.map_append, List.map_cons, deeper_append]
    simp only [deeper, List.map_cons, List.map_nil, List.cons_append, List.append_assoc,
      List.nil_append]
  | @method fields front m _ _ lead own h back =>
    obtain ⟨rest, hlines⟩ := lines_method h
    refine ⟨deeper rest ++ ((back.flatMap fun m => "" :: deeper (methodLines m)) ++ ["\x7d"]), ?_⟩
    rw [lines, methodSection_eq, List.flatMap_append, List.flatMap_cons, hlines]
    simp only [deeper_append, List.cons_append, List.append_assoc]

theorem deeper_ne_nil {ls : List String} (h : ls ≠ []) : deeper ls ≠ [] :=
  fun hnil => h (List.map_eq_nil_iff.mp hnil)

/-- A holder has a line. -/
theorem own_ne_nil {s : Source} {t : Tree} {spot : Spot} {lead own : List String}
    (h : InSource s t spot lead own) : own ≠ [] := by
  have hstatement : ∀ {s : Stmt} {t : Tree} {spot : Spot} {lead own : List String},
      InStmt s t spot lead own → own ≠ [] := by
    intro s t spot lead own h
    induction h with
    | holder => exact lines_ne_nil _
    | thenPart _ _ _ _ _ ih | elsePart _ _ _ _ _ ih | forPart _ _ _ _ _ ih | whilePart _ _ _ _ ih =>
      exact deeper_ne_nil ih
  cases h with
  | here => exact List.cons_ne_nil _ _
  | field => exact List.cons_ne_nil _ _
  | method _ _ h =>
    refine deeper_ne_nil ?_
    cases h with
    | here => exact List.cons_ne_nil _ _
    | function => exact List.cons_ne_nil _ _
    | body _ h => exact deeper_ne_nil (hstatement h)

/-- A fault ends the emission, which begins at level zero. -/
theorem emit_of_halts {t : Tree} {text : String}
    (h : Halts (Emitter.visit t) terminator 0 fault text) :
    ∃ after : Emitter, Emitter.emit t { terminator } = (.error fault, after) ∧
      after.sink.text = text := by
  obtain ⟨after, hrun, htext⟩ := h.fresh
  have hstart : (modify fun e => { e with level := 0 } : Render Unit) { terminator } =
      (.ok (), { terminator, level := 0 }) := rfl
  have hvisit : Emitter.visit t { terminator, level := 0 } = (.error fault, after) := hrun
  refine ⟨after, ?_, htext⟩
  unfold Emitter.emit
  rw [bind_apply, hstart]
  simp only [bind_apply, hvisit]

/-- Emission of a whole program writes its lines. -/
theorem emit_whole (s : Source) (terminator : String) :
    (Emitter.emit s.toTree { terminator }).1 = .ok () ∧
      (Emitter.emit s.toTree { terminator }).2.sink.text = terminator.intercalate (lines s) := by
  have hgenerate := congrArg Prod.fst (generate_eq s terminator)
  change (Emitter.emit s.toTree { terminator }).1.map
    (fun _ => (Emitter.emit s.toTree { terminator }).2.sink.text) = _ at hgenerate
  cases hemit : (Emitter.emit s.toTree { terminator }).1 with
  | error fault =>
    rw [hemit] at hgenerate
    cases hgenerate
  | ok _ =>
    rw [hemit] at hgenerate
    exact ⟨rfl, Except.ok.inj hgenerate⟩

theorem intercalate_lead (terminator : String) (lead : List String) {others : List String}
    (h : others ≠ []) :
    terminator.intercalate (lead ++ others) =
      placed terminator 0 lead ++ terminator.intercalate others := by
  rw [← List.dropLast_concat_getLast h, ← List.append_assoc, intercalate_concat,
    intercalate_concat, placed_append, String.append_assoc]

/-- When one slot of a program is empty that must not be, emission ends in a malformed tree with the
class of the object that lost the slot and with the slot. The text written is what emission of the
program, with the slot filled, writes in front of the lines of the innermost statement, field,
method or class that holds the object. -/
theorem emission_of_lacking {s : Source} {t : Tree} {spot : Spot} {lead own : List String}
    (h : InSource s t spot lead own) (terminator : String) :
    (Emitter.emit t { terminator }).1 =
        .error (.malformed spot.owner (some spot.slot) .missing) ∧
      (Emitter.emit t { terminator }).2.sink.text = placed terminator 0 lead ∧
      (Emitter.emit s.toTree { terminator }).1 = .ok () ∧
      ∃ rest, lines s = lead ++ (own ++ rest) ∧
        (Emitter.emit s.toTree { terminator }).2.sink.text =
          placed terminator 0 lead ++ terminator.intercalate (own ++ rest) := by
  have hhalts : Halts (Emitter.visit t) terminator 0 spot.fault (placed terminator 0 lead) :=
    halts_source h
  obtain ⟨after, hemit, htext⟩ := emit_of_halts hhalts
  obtain ⟨hok, hwhole⟩ := emit_whole s terminator
  obtain ⟨rest, hlines⟩ := lines_source h
  have hown : own ++ rest ≠ [] := List.append_ne_nil_of_left_ne_nil (own_ne_nil h) rest
  refine ⟨by rw [hemit]; rfl, by rw [hemit, htext], hok, rest, hlines, ?_⟩
  rw [hwhole, hlines, intercalate_lead terminator lead hown]

end Programs

section Sample

def count : Expr := .access ⟨"count", "count", ⟨"Integer", "int"⟩⟩ none

def one : Expr := .literal (.integer 1)

def looping (left : Expr) : List Stmt :=
  [.ifElse (.literal (.boolean true)) []
      [.assignment count one,
        .forEach "i" count
          [.returnStmt (.call ⟨"g", "g", ⟨"Integer", "int"⟩, []⟩
            [one, .group (.binary "ADD" left one)] none)]],
    .returnStmt one]

def loopingTrees : List Tree :=
  [.ifElse (.literal (.boolean true) (.kind .boolean)) (.sequence true [])
      (.sequence true
        [.assignment count.toTree one.toTree,
          .forEach (.text "i") count.toTree
            (.sequence true
              [.returnStmt (.call (FunRef.toTree ⟨"g", "g", ⟨"Integer", "int"⟩, []⟩)
                (.sequence true [one.toTree, .group (.binary (.text "ADD") .absent one.toTree)])
                .absent)])]),
    .returnStmt one.toTree]

def idle : Method := ⟨⟨"idle", "idle", ⟨"Nil", "void"⟩, []⟩, [], [], rfl⟩

def mainFunction : FunRef := ⟨"main", "main", ⟨"Integer", "int"⟩, []⟩

def limit : Field := ⟨⟨"limit", "limit", ⟨"Integer", "int"⟩⟩, some one⟩

def loopingSource (left : Expr) : Source :=
  ⟨[limit], [idle, ⟨mainFunction, [], looping left, rfl⟩]⟩

def loopingTree : Tree :=
  .source (.sequence true [limit.toTree])
    (.sequence true
      [idle.toTree, .method mainFunction.toTree (.sequence true []) (.sequence true loopingTrees)])

/-- The operand is missing four bodies deep: in a method, the second body of a conditional, a loop
and a returned call. -/
theorem inSource_looping :
    InSource (loopingSource one) loopingTree ⟨"Binary", "left"⟩
      ["public class Main \x7b", "", "    int limit = 1;", "",
        "    public static void main(String[] args) \x7b",
        "        System.exit(new Main().main());", "    \x7d", "",
        "    void idle() \x7b", "    \x7d", "",
        "    int main() \x7b", "        if (true) \x7b\x7d else \x7b",
        "            count = 1;", "            for (var i : count) \x7b"]
      ["                return g(1, (1 + 1));"] := by
  have hoperand : InExpr (.binary "ADD" one one) (.binary (.text "ADD") .absent one.toTree)
      ⟨"Binary", "left"⟩ := @InExpr.here (.binary "ADD" one one) "left" (by decide)
  have hreturn : InHolder (.returnStmt (.call ⟨"g", "g", ⟨"Integer", "int"⟩, []⟩
      [one, .group (.binary "ADD" one one)] none)) _ ⟨"Binary", "left"⟩ :=
    .returned (.argument _ [one] (.group hoperand) [] none)
  have hloop := InStmt.forPart "i" count [] (.holder hreturn) []
  have hbranch := InStmt.elsePart (.literal (.boolean true)) [] [.assignment count one] hloop []
  have hmethod := @InMethod.body ⟨mainFunction, [], looping one, rfl⟩ [] _ [.returnStmt one] rfl
    _ _ _ _ hbranch
  exact InSource.method [limit] [idle] hmethod []

/-- All that comes before the `return` is written, and nothing of it. -/
theorem emission_of_looping :
    (Emitter.emit loopingTree { terminator := "\n" }).1 =
        .error (.malformed "Binary" (some "left") .missing) ∧
      (Emitter.emit loopingTree { terminator := "\n" }).2.sink.text =
        "public class Main \x7b\n\n    int limit = 1;\n\n" ++
          "    public static void main(String[] args) \x7b\n" ++
          "        System.exit(new Main().main());\n    \x7d\n\n" ++
          "    void idle() \x7b\n    \x7d\n\n    int main() \x7b\n" ++
          "        if (true) \x7b\x7d else \x7b\n            count = 1;\n" ++
          "            for (var i : count) \x7b\n" := by
  obtain ⟨hfault, htext, -⟩ := emission_of_lacking inSource_looping "\n"
  refine ⟨hfault, htext.trans ?_⟩
  decide +kernel

end Sample

end JavaRender.Lacking
