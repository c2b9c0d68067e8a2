import JavaRender.Proofs.Layout.Statements

/-!
The renderer writes the layout of a whole program. Fields, entry point and methods print their lines
one level deep, empty lines come without blanks; main statement: the generated text is the lines of
the program with the terminator between them.
-/
namespace JavaRender.Layout

open Typed Emission
open JavaRender.Tree (Fault)

section Members

variable (terminator : String) (level : Nat)

theorem prints_field (f : Field) :
    Prints (Emitter.field f.toTree) terminator level () (placed terminator level [fieldLine f])
      (optionNotices f.value) := by
  unfold Emitter.field
  have hvar : f.toTree.require "variable" = .ok f.var.toTree := rfl
  have hvalue : f.toTree.slotOf "value" = .ok (optionTree f.value) := rfl
  refine Prints.lift_bind hvar (Prints.lift_bind hvalue ?_)
  exact (Prints.noting_bind (notes_declarationText f.var f.value) (prints_fullLine rfl)).congr rfl
    (List.append_nil _)

theorem prints_fields (fs : List Field) :
    Prints (Emitter.fields (fs.map Field.toTree)) terminator level ()
      (placed terminator level (fs.map fieldLine)) (fs.flatMap fun f => optionNotices f.value) := by
  induction fs with
  | nil => exact Prints.pure ()
  | cons f rest ih =>
    have hfirst := prints_field terminator level f
    rw [placed_singleton] at hfirst
    rw [List.map_cons, List.map_cons, List.flatMap_cons, placed_cons]
    exact hfirst.bind ih

theorem parameterTexts_eq (types : List TypeRef) (names : List String) :
    Emitter.parameterTexts (types.map TypeRef.toTree) (names.map .text) =
      .ok (List.zipWith (fun type name => type.jvmName ++ " " ++ name) types names) := by
  induction types generalizing names with
  | nil => rfl
  | cons type types ih =>
    cases names with
    | nil => rfl
    | cons name names =>
      rw [List.map_cons, List.map_cons, Emitter.parameterTexts, ih names]
      rfl

/-- The header of a method does not depend on its statements, as long as they are a sequence. -/
theorem header_with (m : Method) (items : List Tree) :
    Emitter.header (.method m.function.toTree (.sequence true (m.parameters.map .text))
        (.sequence true items)) =
      .ok ⟨m.function.returnType.toTree, m.function.toTree, parameterList m⟩ := by
  generalize ht : Tree.method m.function.toTree (.sequence true (m.parameters.map .text))
    (.sequence true items) = t
  have hfunction : t.require "function" = .ok m.function.toTree := by rw [← ht]; rfl
  have hreturn : m.function.toTree.require "return_type" = .ok m.function.returnType.toTree := rfl
  have htypes : m.function.toTree.requireItems "parameter_types" =
      .ok (m.function.parameterTypes.map TypeRef.toTree) := rfl
  have hnames : t.requireItems "parameters" = .ok (m.parameters.map .text) := by rw [← ht]; rfl
  have hstatements : t.requireItems "statements" = .ok items := by rw [← ht]; rfl
  have hlength : ¬ (m.function.parameterTypes.map TypeRef.toTree).length ≠
      (m.parameters.map Tree.text).length := by
    simp only [List.length_map, m.matched, ne_eq, not_true, not_false_eq_true]
  unfold Emitter.header
  rw [hfunction]
  simp only [bind, Except.bind]
  rw [hreturn, hnames, hstatements]
  simp only [htypes, if_neg hlength, parameterTexts_eq]
  rfl

theorem header_eq (m : Method) :
    Emitter.header m.toTree =
      .ok ⟨m.function.returnType.toTree, m.function.toTree, parameterList m⟩ :=
  header_with m (stmtTrees m.statements)

theorem prints_method (m : Method) :
    Prints (Emitter.method m.toTree) terminator level () (placed terminator level (methodLines m))
      (stmtNotices m.statements) := by
  have hbody := (prints_statements m.statements terminator (level + 1)).block
  have hclose : Prints Emitter.closeLine terminator level ()
      (placed terminator level ["\x7d"]) [] := prints_fullLine rfl
  have hlast := hbody.bind (f := fun _ => Emitter.closeLine) hclose
  change Prints (Emitter.methodAround m.toTree (Emitter.statements (stmtTrees m.statements)))
    _ _ _ _ _
  unfold Emitter.methodAround
  rw [methodLines, ← List.singleton_append, placed_append, placed_append, placed_deeper,
    placed_singleton]
  refine Prints.lift_bind (header_eq m) ?_
  refine ((Prints.line (s := methodHeader m) rfl).bind (Prints.newline.bind hlast)).congr ?_ ?_
  · simp only [String.append_assoc]
  · simp only [List.nil_append, List.append_nil]

end Members

/-- An empty line has no blanks at any depth. -/
theorem placed_emptyLine (terminator : String) (rest : List String) :
    placed terminator 0 ("" :: rest) = terminator ++ placed terminator 0 rest := by
  have hindent : indent 0 = "" := rfl
  rw [placed_cons, hindent, String.empty_append, String.empty_append]

theorem prints_entryPoint (terminator : String) :
    Prints Emitter.entryPoint terminator 1 ()
      (placed terminator 0 (deeper entryPointLines)) [] := by
  have hcall : "System.exit(new " ++ mainClass ++ "().main());" =
      "System.exit(new Main().main());" := by
    decide
  have hlines : entryPointLines = "public static void main(String[] args) \x7b" ::
      deeper ["System.exit(new Main().main());"] ++ ["\x7d"] := by
    decide
  have hbody : Prints (Emitter.line (.ok ("System.exit(new " ++ mainClass ++ "().main());")) >>=
      fun _ => Emitter.newline) terminator 2 ()
      (placed terminator 2 ["System.exit(new Main().main());"]) [] :=
    prints_fullLine (congrArg Except.ok hcall)
  have hclose : Prints Emitter.closeLine terminator 1 () (placed terminator 1 ["\x7d"]) [] :=
    prints_fullLine rfl
  rw [placed_deeper, hlines, placed_append, placed_cons, placed_deeper]
  unfold Emitter.entryPoint
  refine ((Prints.line rfl).bind (Prints.newline.bind (hbody.block.bind hclose))).congr ?_ rfl
  simp only [String.append_assoc]

/-- Every method but the first stands behind an empty line. -/
theorem prints_laterMethods (ms : List Method) (terminator : String) :
    Prints (Emitter.methods false (ms.map Method.toTree)) terminator 1 ()
      (placed terminator 0 (ms.flatMap fun m => "" :: deeper (methodLines m)))
      (ms.flatMap fun m => stmtNotices m.statements) := by
  induction ms with
  | nil => exact Prints.pure ()
  | cons m rest ih =>
    have hmethod := prints_method terminator 1 m
    rw [← placed_deeper] at hmethod
    rw [List.map_cons, List.flatMap_cons, List.flatMap_cons, placed_append, placed_emptyLine,
      String.append_assoc]
    exact Prints.newline.bind (hmethod.bind ih)

def methodPart (methods : List Tree) : Render Unit :=
  if methods.isEmpty then pure ()
  else do
    Emitter.newline
    Emitter.methods true methods

theorem prints_methodPart (terminator : String) (ms : List Method) :
    Prints (methodPart (ms.map Method.toTree)) terminator 1 ()
      (placed terminator 0 (methodSection ms)) (ms.flatMap fun m => stmtNotices m.statements) := by
  cases ms with
  | nil => exact Prints.pure ()
  | cons m rest =>
    have hfirst := prints_method terminator 1 m
    rw [← placed_deeper] at hfirst
    rw [methodSection_cons, placed_emptyLine, placed_append]
    exact Prints.newline.bind (hfirst.bind (prints_laterMethods rest terminator))

def memberPart (fields methods : List Tree) : Render Unit :=
  if fields.isEmpty then do
    Emitter.entryPoint
    methodPart methods
  else do
    Emitter.newline
    Emitter.fields fields
    Emitter.newline
    Emitter.entryPoint
    methodPart methods

theorem prints_memberPart (terminator : String) (fs : List Field) (ms : List Method) :
    Prints (memberPart (fs.map Field.toTree) (ms.map Method.toTree)) terminator 1 ()
      (placed terminator 0 (fieldSection fs ++ deeper entryPointLines ++ methodSection ms))
      (Source.notices ⟨fs, ms⟩) := by
  have hlater : Prints (Emitter.entryPoint >>= fun _ => methodPart (ms.map Method.toTree))
      terminator 1 ()
      (placed terminator 0 (deeper entryPointLines) ++ placed terminator 0 (methodSection ms))
      (ms.flatMap fun m => stmtNotices m.statements) :=
    (prints_entryPoint terminator).bind (prints_methodPart terminator ms)
  rw [placed_append, placed_append, String.append_assoc]
  cases fs with
  | nil => exact hlater.congr (by rw [fieldSection, placed_nil, String.empty_append]) rfl
  | cons f rest =>
    have hfields := prints_fields terminator 1 (f :: rest)
    rw [← placed_deeper] at hfields
    rw [fieldSection, List.cons_append, placed_emptyLine, placed_append, placed_emptyLine,
      placed_nil, String.append_empty]
    refine (Prints.newline.bind (hfields.bind (Prints.newline.bind hlater))).congr ?_ rfl
    simp only [String.append_assoc]

/-- A terminator between lines is one behind each but the last. -/
theorem intercalate_concat (terminator : String) (ls : List String) (last : String) :
    terminator.intercalate (ls ++ [last]) = placed terminator 0 ls ++ last := by
  have hindent : indent 0 = "" := rfl
  induction ls with
  | nil => rw [List.nil_append, String.intercalate_singleton, placed_nil, String.empty_append]
  | cons line rest ih =>
    obtain ⟨next, others, hnext⟩ : ∃ next others, rest ++ [last] = next :: others := by
      cases rest <;> exact ⟨_, _, rfl⟩
    rw [List.cons_append, hnext, String.intercalate_cons_cons, ← hnext, ih, placed_cons, hindent,
      String.empty_append]
    simp only [String.append_assoc]

/-- The class of a program prints its lines; behind the last one there is no terminator. -/
theorem prints_source (s : Source) (terminator : String) :
    Prints (Emitter.visit s.toTree) terminator 0 () (terminator.intercalate (lines s))
      s.notices := by
  obtain ⟨fields, methods⟩ := s
  have hhead : "public class " ++ mainClass ++ " \x7b" = "public class Main \x7b" := by decide
  have hindent : indent 0 = "" := rfl
  have hlast : Prints (Emitter.line (.ok "\x7d")) terminator 0 () (indent 0 ++ "\x7d") [] :=
    Prints.line rfl
  have hlines : lines ⟨fields, methods⟩ = ("public class Main \x7b" ::
      (fieldSection fields ++ deeper entryPointLines ++ methodSection methods)) ++ ["\x7d"] := rfl
  rw [hlines, intercalate_concat, placed_cons, Source.toTree, Emitter.visit]
  refine Prints.lift_bind rfl (Prints.lift_bind rfl ?_)
  rw [hhead]
  have hmembers := (prints_memberPart terminator fields methods).block
  have hclosed := hmembers.bind (f := fun _ => Emitter.line (.ok "\x7d")) hlast
  refine ((Prints.write _).bind (Prints.newline.bind hclosed)).congr ?_ ?_
  · rw [hindent, String.empty_append, String.empty_append]
    simp only [String.append_assoc]
  · simp only [List.nil_append, List.append_nil]

/-- The generated text of a program is its lines with the terminator between them, and its notices
end with the size of the class. -/
theorem generate_eq (s : Source) (terminator : String) :
    Emitter.generate s.toTree terminator =
      (.ok (terminator.intercalate (lines s)),
        s.notices ++ [.rendered s.fields.length s.methods.length]) := by
  have hwhole : Prints (Emitter.visit s.toTree >>= fun _ => modify fun e => { e with
      notices := e.notices ++ [.rendered (s.fields.map Field.toTree).length
        (s.methods.map Method.toTree).length] }) terminator 0 () _ _ :=
    (prints_source s terminator).bind (Prints.note _)
  obtain ⟨after, hrun, htext, hnotices⟩ := hwhole.fresh
  rw [String.append_empty] at htext
  rw [List.length_map, List.length_map] at hnotices
  have hemit : Emitter.emit s.toTree { terminator } = (.ok (), after) := hrun
  change ((Emitter.emit s.toTree { terminator }).1.map fun _ =>
    (Emitter.emit s.toTree { terminator }).2.sink.text,
    (Emitter.emit s.toTree { terminator }).2.notices) = _
  rw [hemit]
  simp only [Except.map, htext, hnotices]

/-- The generated text of a program is its lines with the terminator between them: nothing behind
the last line, and no trace of levels. -/
theorem generated_text (s : Source) (terminator : String) :
    (Emitter.generate s.toTree terminator).1 = .ok (terminator.intercalate (lines s)) := by
  rw [generate_eq]

end JavaRender.Layout
