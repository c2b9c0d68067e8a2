import JavaRender.Proofs.Layout.Refinement
import JavaRender.Proofs.Tokens.Reader
import JavaRender.Proofs.Typed.Rules

/-!
The quoted literals of a whole program. Expressions, statements and members hold their strings and
characters in the order of a walk; main statement: a reader finds in the text of a program exactly
the strings and characters among its nodes, in this order and with their values.
-/
namespace JavaRender.Tokens

open Typed Layout Emission

/-- No freely chosen text that is written has a quotation mark. -/
def quoteRules : Rules where
  name := Unquoted
  type := Unquoted
  operator op := Operator.spelling? op = none → Unquoted op

section Unquoted

theorem Unquoted.append {s t : String} (hs : Unquoted s) (ht : Unquoted t) :
    Unquoted (s ++ t) := by
  intro c hc
  rw [String.toList_append, List.mem_append] at hc
  rcases hc with hc | hc
  · exact hs c hc
  · exact ht c hc

theorem Unquoted.intercalate {separator : String} (hseparator : Unquoted separator)
    {parts : List String} (h : ∀ s ∈ parts, Unquoted s) :
    Unquoted (separator.intercalate parts) := by
  induction parts with
  | nil =>
    intro c hc
    simp at hc
  | cons s rest ih =>
    have hs := h s List.mem_cons_self
    have hrest := ih fun t ht => h t (List.mem_cons_of_mem _ ht)
    cases rest with
    | nil => simpa using hs
    | cons t others =>
      rw [String.intercalate_cons_cons]
      exact (hs.append hseparator).append hrest

theorem unquoted_indent (level : Nat) : Unquoted (indent level) := by
  have hblanks : Unquoted "    " := by decide
  induction level with
  | zero =>
    intro c hc
    simp [indent] at hc
  | succ level ih =>
    rw [indent_succ]
    exact ih.append hblanks

theorem unquoted_spelling {op : String} (h : quoteRules.operator op) : Unquoted (spelling op) := by
  unfold spelling
  cases hknown : Operator.spelling? op with
  | none => exact h hknown
  | some s =>
    intro c hc
    have hmark := Scan.spelling_notMem_marks hknown hc
    constructor
    · rintro rfl
      exact hmark (by decide)
    · rintro rfl
      exact hmark (by decide)

end Unquoted

section Expressions

theorem reads_call {name : String} {texts : List String} {found : List Quotation}
    (hname : Unquoted name) (h : Reads (", ".intercalate texts) found) :
    Reads (name ++ "(" ++ ", ".intercalate texts ++ ")") found := by
  have hopen : Unquoted "(" := by decide
  have hclose : Unquoted ")" := by decide
  exact (h.behind (hname.append hopen)).then hclose

mutual

/-- The text of an expression holds its strings and characters in the order of a walk. -/
theorem reads_text : ∀ e : Expr, e.Obeys quoteRules → Reads e.text (quoted e.walked)
  | .literal l, _ => by
    rw [Expr.text, Expr.walked]
    exact reads_literal l
  | .group inner, h => by
    have hopen : Unquoted "(" := by decide
    have hclose : Unquoted ")" := by decide
    have hinner := reads_text inner h
    rw [Expr.text, Expr.walked, quoted_cons_none rfl]
    exact (hinner.behind hopen).then hclose
  | .binary op left right, h => by
    obtain ⟨hoperator, hleft, hright⟩ := h
    have hblank : Unquoted " " := by decide
    have hfront := (reads_text left hleft).then hblank
    have hmiddle := (hfront.then (unquoted_spelling hoperator)).then hblank
    rw [Expr.text, Expr.walked, quoted_cons_none rfl, quoted_append]
    exact hmiddle.append (reads_text right hright)
  | .access var none, h => by
    rw [Expr.text, Expr.walked, quoted_cons_none rfl]
    exact Reads.plain h
  | .access var (some receiver), h => by
    have hpoint : Unquoted "." := by decide
    have hreceiver := reads_text receiver h.2
    rw [Expr.text, Expr.walked, quoted_cons_none rfl]
    exact (hreceiver.then hpoint).then h.1
  | .call function arguments none, h => by
    rw [Expr.text, Expr.walked, quoted_cons_none rfl]
    exact reads_call h.1 (reads_texts arguments h.2)
  | .call function arguments (some receiver), h => by
    obtain ⟨hname, harguments, hreceiver⟩ := h
    have hpoint : Unquoted "." := by decide
    have hfront := (reads_text receiver hreceiver).then hpoint
    rw [Expr.text, Expr.walked, quoted_cons_none rfl, quoted_append]
    exact hfront.append (reads_call hname (reads_texts arguments harguments))

theorem reads_texts : ∀ es : List Expr, exprsObey quoteRules es →
    Reads (", ".intercalate (exprTexts es)) (quoted (walkedAll es))
  | [], _ => by
    have hempty : Unquoted "" := by decide
    exact Reads.plain hempty
  | [e], h => by
    have he := reads_text e h.1
    simpa [exprTexts, walkedAll] using he
  | e :: next :: rest, h => by
    have hcomma : Unquoted ", " := by decide
    have hfirst := (reads_text e h.1).then hcomma
    have hothers := reads_texts (next :: rest) h.2
    rw [walkedAll, quoted_append, exprTexts, exprTexts, String.intercalate_cons_cons]
    exact hfirst.append hothers

end

end Expressions

def LinesRead (lines : List String) (found : List Quotation) : Prop :=
  ∀ level, Reads (placed "\n" level lines) found

namespace LinesRead

variable {lines front back body : List String} {header : String}
  {found others more : List Quotation}

theorem nil : LinesRead [] [] := by
  intro level
  have hempty : Unquoted "" := by decide
  rw [placed_nil]
  exact Reads.plain hempty

theorem single {line : String} (h : Reads line found) : LinesRead [line] found := by
  intro level
  have hbreak : Unquoted "\n" := by decide
  rw [placed_singleton]
  exact (h.behind (unquoted_indent level)).then hbreak

theorem append (hfront : LinesRead front found) (hback : LinesRead back others) :
    LinesRead (front ++ back) (found ++ others) := by
  intro level
  rw [placed_append]
  exact (hfront level).append (hback level)

theorem deeper (h : LinesRead lines found) : LinesRead (deeper lines) found := by
  intro level
  rw [placed_deeper]
  exact h (level + 1)

/-- A line without quotation marks. -/
theorem plain {line : String} (h : Unquoted line) : LinesRead [line] [] := single (Reads.plain h)

/-- A line without quotation marks in front of others. -/
theorem cons {line : String} (hline : Unquoted line) (h : LinesRead lines found) :
    LinesRead (line :: lines) found :=
  (plain hline).append h

theorem found_nil (h : LinesRead [] found) : found = [] := by
  have hempty := (h 0).quotations_eq
  rw [placed_nil] at hempty
  have hnone : quotations? "" = some [] := rfl
  rw [hnone, Option.some.injEq] at hempty
  exact hempty.symm

theorem closing : LinesRead ["\x7d"] [] := by
  have hclose : Unquoted "\x7d" := by decide
  exact plain hclose

/-- A header with its body in braces. -/
theorem braced (hheader : Reads header found) (hbody : LinesRead body others) :
    LinesRead (braced header body) (found ++ others) := by
  cases body with
  | nil =>
    have hempty : Unquoted " \x7b\x7d" := by decide
    rw [hbody.found_nil, List.append_nil]
    exact single (hheader.then hempty)
  | cons line rest =>
    have hopen : Unquoted " \x7b" := by decide
    have hlines := ((single (hheader.then hopen)).append hbody.deeper).append closing
    rw [List.append_nil] at hlines
    exact hlines

/-- A header with two bodies. -/
theorem branched (hheader : Reads header found) (hfront : LinesRead front others)
    (hback : LinesRead back more) :
    LinesRead (branched header front back) (found ++ (others ++ more)) := by
  cases back with
  | nil =>
    have hone := braced hheader hfront
    rw [hback.found_nil, List.append_nil]
    exact hone
  | cons line rest =>
    cases front with
    | nil =>
      have hboth : Unquoted " \x7b\x7d else \x7b" := by decide
      have hlines := ((single (hheader.then hboth)).append hback.deeper).append closing
      rw [hfront.found_nil, List.nil_append]
      rw [List.append_nil] at hlines
      exact hlines
    | cons first later =>
      have hopen : Unquoted " \x7b" := by decide
      have helse : Unquoted "\x7d else \x7b" := by decide
      have hthen := (single (hheader.then hopen)).append hfront.deeper
      have hlines := hthen.append ((cons helse hback.deeper).append closing)
      rw [List.append_nil, List.append_assoc] at hlines
      simpa only [Layout.branched, List.append_assoc, List.cons_append, List.nil_append] using
        hlines

end LinesRead

section Statements

theorem reads_declaration {var : VarRef} {value : Option Expr} (hvar : declaredObeys quoteRules var)
    (hvalue : optionObeys quoteRules value) :
    Reads (declarationLine var.type.jvmName var.jvmName (value.map Expr.text))
      (quoted (optionWalked value)) := by
  have hblank : Unquoted " " := by decide
  have hend : Unquoted ";" := by decide
  have hname := (hvar.1.append hblank).append hvar.2
  cases value with
  | none => exact Reads.plain (hname.append hend)
  | some e =>
    have hequals : Unquoted " = " := by decide
    have hstart := (reads_text e hvalue).behind (hname.append hequals)
    exact hstart.then hend

/-- A header that is a text in brackets. -/
theorem reads_between {front back text : String} {found : List Quotation} (hfront : Unquoted front)
    (h : Reads text found) (hback : Unquoted back) : Reads (front ++ text ++ back) found :=
  (h.behind hfront).then hback

mutual

/-- The lines of a statement hold its strings and characters in the order of a walk. -/
theorem linesRead_statement : ∀ s : Stmt, s.Obeys quoteRules →
    LinesRead (outline s).lines (quoted s.walked)
  | .expression e, h => by
    have hend : Unquoted ";" := by decide
    rw [outline, Outline.lines, Stmt.walked, quoted_cons_none rfl]
    exact LinesRead.single ((reads_text e h).then hend)
  | .declaration var value, h => by
    rw [outline, Outline.lines, Stmt.walked, quoted_cons_none rfl]
    exact LinesRead.single (reads_declaration h.1 h.2)
  | .assignment receiver value, h => by
    have hequals : Unquoted " = " := by decide
    have hend : Unquoted ";" := by decide
    have htarget := (reads_text receiver h.1).then hequals
    rw [outline, Outline.lines, Stmt.walked, quoted_cons_none rfl, quoted_append]
    exact LinesRead.single ((htarget.append (reads_text value h.2)).then hend)
  | .ifElse condition thenStatements elseStatements, h => by
    obtain ⟨hcondition, hthen, helse⟩ := h
    have hopen : Unquoted "if (" := by decide
    have hclose : Unquoted ")" := by decide
    have hheader := reads_between hopen (reads_text condition hcondition) hclose
    rw [outline, Outline.lines, Stmt.walked, quoted_cons_none rfl, quoted_append, quoted_append]
    exact LinesRead.branched hheader (linesRead_statements thenStatements hthen)
      (linesRead_statements elseStatements helse)
  | .forEach name value statements, h => by
    obtain ⟨hname, hvalue, hstatements⟩ := h
    have hopen : Unquoted "for (var " := by decide
    have hcolon : Unquoted " : " := by decide
    have hclose : Unquoted ")" := by decide
    have hheader := reads_between ((hopen.append hname).append hcolon) (reads_text value hvalue)
      hclose
    rw [outline, Outline.lines, Stmt.walked, quoted_cons_none rfl, quoted_append]
    exact LinesRead.braced hheader (linesRead_statements statements hstatements)
  | .whileLoop condition statements, h => by
    have hopen : Unquoted "while (" := by decide
    have hclose : Unquoted ")" := by decide
    have hheader := reads_between hopen (reads_text condition h.1) hclose
    rw [outline, Outline.lines, Stmt.walked, quoted_cons_none rfl, quoted_append]
    exact LinesRead.braced hheader (linesRead_statements statements h.2)
  | .returnStmt value, h => by
    have hopen : Unquoted "return " := by decide
    have hend : Unquoted ";" := by decide
    rw [outline, Outline.lines, Stmt.walked, quoted_cons_none rfl]
    exact LinesRead.single (reads_between hopen (reads_text value h) hend)

theorem linesRead_statements : ∀ xs : List Stmt, stmtsObey quoteRules xs →
    LinesRead (linesOf (outlines xs)) (quoted (stmtsWalked xs))
  | [], _ => LinesRead.nil
  | s :: rest, h => by
    rw [outlines, linesOf, stmtsWalked, quoted_append]
    exact (linesRead_statement s h.1).append (linesRead_statements rest h.2)

end

end Statements

section Program

theorem linesRead_fields (fs : List Field) (h : ∀ f ∈ fs, f.Obeys quoteRules) :
    LinesRead (fs.map fieldLine) (quoted (fs.flatMap Field.walked)) := by
  induction fs with
  | nil => exact LinesRead.nil
  | cons f rest ih =>
    obtain ⟨hvar, hvalue⟩ := h f List.mem_cons_self
    have hfirst : LinesRead [fieldLine f] (quoted (optionWalked f.value)) :=
      LinesRead.single (reads_declaration hvar hvalue)
    rw [List.map_cons, List.flatMap_cons, quoted_append, Field.walked, quoted_cons_none rfl]
    exact hfirst.append (ih fun f hf => h f (List.mem_cons_of_mem _ hf))

theorem unquoted_parameterList {m : Method} (h : m.Obeys quoteRules) :
    Unquoted (parameterList m) := by
  obtain ⟨-, -, htypes, hnames, -⟩ := h
  have hcomma : Unquoted ", " := by decide
  have hblank : Unquoted " " := by decide
  apply hcomma.intercalate
  intro s hs
  rw [← List.map_uncurry_zip_eq_zipWith] at hs
  obtain ⟨⟨type, name⟩, hpair, rfl⟩ := List.mem_map.mp hs
  obtain ⟨htype, hname⟩ := List.of_mem_zip hpair
  exact ((htypes type htype).append hblank).append (hnames name hname)

theorem linesRead_method {m : Method} (h : m.Obeys quoteRules) :
    LinesRead (methodLines m) (quoted m.walked) := by
  have hblank : Unquoted " " := by decide
  have hopen : Unquoted "(" := by decide
  have hclose : Unquoted ") \x7b" := by decide
  have hsignature := ((h.1.append hblank).append h.2.1).append hopen
  have hheader := (hsignature.append (unquoted_parameterList h)).append hclose
  have hbody := (linesRead_statements m.statements h.2.2.2.2).deeper
  have hlines := LinesRead.cons hheader (hbody.append LinesRead.closing)
  rw [List.append_nil] at hlines
  rw [Method.walked, quoted_cons_none rfl]
  exact hlines

theorem linesRead_entryPoint : LinesRead entryPointLines [] := by
  have hhead : Unquoted "public static void main(String[] args) \x7b" := by decide
  have hcall : Unquoted "    System.exit(new Main().main());" := by decide
  exact LinesRead.cons hhead (LinesRead.cons hcall LinesRead.closing)

theorem linesRead_fieldSection (fs : List Field) (h : ∀ f ∈ fs, f.Obeys quoteRules) :
    LinesRead (fieldSection fs) (quoted (fs.flatMap Field.walked)) := by
  cases fs with
  | nil => exact LinesRead.nil
  | cons f rest =>
    have hempty : Unquoted "" := by decide
    have hlines := (linesRead_fields (f :: rest) h).deeper.append (LinesRead.plain hempty)
    rw [List.append_nil] at hlines
    exact LinesRead.cons hempty hlines

theorem linesRead_methodSection (ms : List Method) (h : ∀ m ∈ ms, m.Obeys quoteRules) :
    LinesRead (methodSection ms) (quoted (ms.flatMap Method.walked)) := by
  have hempty : Unquoted "" := by decide
  have hlater : LinesRead (ms.flatMap fun m => "" :: deeper (methodLines m))
      (quoted (ms.flatMap Method.walked)) := by
    induction ms with
    | nil => exact LinesRead.nil
    | cons m rest ih =>
      have hfirst := LinesRead.cons hempty (linesRead_method (h m List.mem_cons_self)).deeper
      have hothers := ih fun m hm => h m (List.mem_cons_of_mem _ hm)
      rw [List.flatMap_cons, List.flatMap_cons, quoted_append]
      exact hfirst.append hothers
  cases ms with
  | nil => exact hlater
  | cons m rest =>
    rw [methodSection_cons]
    exact hlater

/-- The text of a program holds its strings and characters in the order of a walk. -/
theorem reads_program (s : Source) (h : s.Obeys quoteRules) :
    Reads ("\n".intercalate (lines s)) (quoted s.walked) := by
  have hhead : Unquoted "public class Main \x7b" := by decide
  have hclose : Unquoted "\x7d" := by decide
  have hfields := linesRead_fieldSection s.fields h.1
  have hmembers := (hfields.append linesRead_entryPoint.deeper).append
    (linesRead_methodSection s.methods h.2)
  have hlines := LinesRead.cons hhead hmembers 0
  rw [List.append_nil] at hlines
  have htext : lines s = ("public class Main \x7b" ::
      (fieldSection s.fields ++ deeper entryPointLines ++ methodSection s.methods)) ++
      ["\x7d"] := rfl
  rw [htext, intercalate_concat, Source.walked, quoted_cons_none rfl, quoted_append]
  exact hlines.then hclose

/-- A reader of the generated text of a program finds exactly the strings and characters among the
nodes of a walk, in the order of this walk. -/
theorem quotations_of_generated (s : Source) (h : s.Obeys quoteRules) :
    ∃ text nodes, (Emitter.generate s.toTree "\n").1 = .ok text ∧ s.toTree.walk = .ok nodes ∧
      quotations? text = some (quoted nodes) := by
  have htext : (Emitter.generate s.toTree "\n").1 = .ok ("\n".intercalate (lines s)) := by
    rw [generate_eq]
  exact ⟨_, _, htext, walk_source s, (reads_program s h).quotations_eq⟩

def quotesInLiterals : Source where
  fields := [⟨⟨"s", "s", ⟨"String", "String"⟩⟩, some (.literal (.string "\\\" // '"))⟩]
  methods := [{
    function := ⟨"main", "main", ⟨"Integer", "int"⟩, []⟩
    parameters := []
    statements := [
      .ifElse (.call ⟨"put", "put", ⟨"Boolean", "boolean"⟩, []⟩
          [.literal (.character '\''), .literal (.string "")]
          (some (.group (.binary "ADD" (.literal (.string "\n")) (.literal (.character '"'))))))
        [] [.returnStmt (.literal (.string "\\"))],
      .returnStmt (.literal (.integer 0))]
    matched := rfl }]

theorem quotations_of_quotesInLiterals :
    quotesInLiterals.Obeys quoteRules ∧
      ∃ text, (Emitter.generate quotesInLiterals.toTree "\n").1 = .ok text ∧
        quotations? text = some [⟨.string, "\\\" // '"⟩, ⟨.string, "\n"⟩, ⟨.character, "\""⟩,
          ⟨.character, "'"⟩, ⟨.string, ""⟩, ⟨.string, "\\"⟩] := by
  have hobeys : quotesInLiterals.Obeys quoteRules := by
    simp only [quotesInLiterals, Source.Obeys, Field.Obeys, Method.Obeys, declaredObeys,
      optionObeys, stmtsObey, Stmt.Obeys, Expr.Obeys, exprsObey, quoteRules,
      List.forall_mem_singleton]
    decide
  obtain ⟨text, nodes, htext, hwalk, hread⟩ := quotations_of_generated quotesInLiterals hobeys
  have hnodes : nodes = quotesInLiterals.walked := by
    rw [walk_source, Except.ok.injEq] at hwalk
    exact hwalk.symm
  rw [hnodes] at hread
  exact ⟨hobeys, text, htext, hread⟩

end Program

end JavaRender.Tokens
