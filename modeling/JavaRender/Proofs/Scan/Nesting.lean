import JavaRender.Proofs.Layout.Outline
import JavaRender.Proofs.Scan.Expression

/-!
Lines that are indented by their open braces. A line fits at a depth when four blanks stand in front
of it for each open brace, one brace less if it starts by closing one. The lines of a statement are
nested at depth zero, and lines one depth deeper are nested under one more brace.
-/
namespace JavaRender.Scan

open Typed Layout

def Indented (depth : Int) (line : List Char) : Prop :=
  ∃ (blanks : Nat) (c : Char) (rest : List Char),
    line = List.replicate (4 * blanks) ' ' ++ c :: rest ∧ Blank.isBlank c = false ∧
      (blanks : Int) = depth - if c = '\x7d' then 1 else 0

/-- A line that is indented by the braces open before it; `after` are open behind it. -/
def Fits (before : Int) (line : String) (after : Int) : Prop :=
  Indented before line.toList ∧
    Passes braces ⟨.code, before⟩ line.toList ⟨.code, after⟩

/-- Lines in a row of which each fits. Between them lines may be empty where gaps are allowed. -/
inductive Nested (gaps : Bool) : Int → List String → Int → Prop
  | nil (depth : Int) : Nested gaps depth [] depth
  | gap {before after : Int} {rest : List String} (allowed : gaps = true)
      (others : Nested gaps before rest after) : Nested gaps before ("" :: rest) after
  | line {before between after : Int} {line : String} {rest : List String}
      (first : Fits before line between) (others : Nested gaps between rest after) :
      Nested gaps before (line :: rest) after

section Lines

variable {gaps : Bool} {before between after : Int} {line header : String}
  {first second body : List String}

/-- One depth deeper a line fits under one more brace. -/
theorem Fits.deeper (h : Fits before line after) :
    Fits (before + 1) ("    " ++ line) (after + 1) := by
  obtain ⟨⟨blanks, c, rest, hline, hvisible, hcount⟩, hpasses⟩ := h
  have hblanks : Steady braces (before + 1) "    ".toList := Steady.plain (notMem_of_all rfl)
  have hfour : List.replicate (4 * (blanks + 1)) ' ' =
      "    ".toList ++ List.replicate (4 * blanks) ' ' := by
    rw [Nat.mul_succ, Nat.add_comm, ← List.replicate_append_replicate]
    rfl
  refine ⟨⟨blanks + 1, c, rest, ?_, hvisible, by omega⟩, ?_⟩
  · rw [String.toList_append, hline, hfour, List.append_assoc]
  · rw [String.toList_append]
    exact (hblanks _ (Int.le_refl _)).append hpasses.raise

theorem Nested.append (hfirst : Nested gaps before first between)
    (hsecond : Nested gaps between second after) : Nested gaps before (first ++ second) after := by
  induction hfirst with
  | nil => exact hsecond
  | gap allowed _ ih => exact .gap allowed (ih hsecond)
  | line hline _ ih => exact .line hline (ih hsecond)

theorem Nested.deeper (h : Nested false before first after) :
    Nested gaps (before + 1) (deeper first) (after + 1) := by
  generalize hstrict : false = strict at h
  induction h with
  | nil => exact .nil _
  | gap allowed => exact absurd (hstrict.trans allowed) (by decide)
  | line hline _ ih => exact .line hline.deeper ih

theorem fits_of_begins (h : Begins line)
    (hpasses : Passes braces ⟨.code, 0⟩ line.toList ⟨.code, after⟩) : Fits 0 line after := by
  obtain ⟨c, hhead, hvisible, hclosing⟩ := h
  obtain ⟨rest, hline⟩ := List.head?_eq_some_iff.mp hhead
  refine ⟨⟨0, c, rest, hline, hvisible, ?_⟩, hpasses⟩
  rw [if_neg hclosing]
  rfl

/-- A line of a statement without a body. -/
theorem nested_single (h : Leads line) : Nested gaps 0 [line] 0 :=
  .line (fits_of_begins h.begins (h.level 0 (Int.le_refl 0))) (.nil 0)

theorem passes_opened (h : Level header) :
    Passes braces ⟨.code, 0⟩ (header ++ " \x7b").toList ⟨.code, 1⟩ := by
  have hopen : (header ++ " \x7b").toList = (header ++ " ").toList ++ [braces.opening] := by
    rw [String.toList_append, String.toList_append, List.append_assoc]
    rfl
  rw [hopen]
  exact ((h.append level_blank) 0 (Int.le_refl 0)).append (Passes.opening 0)

theorem level_empty_body (h : Level header) : Level (header ++ " \x7b\x7d") := by
  have hbraces : Level "\x7b\x7d" := Steady.between Steady.nil (Int.le_refl 0)
  have hsplit : " \x7b\x7d" = " " ++ "\x7b\x7d" := by decide
  rw [hsplit]
  exact h.append (level_blank.append hbraces)

theorem fits_closing : Fits 1 "\x7d" 0 := by
  refine ⟨⟨0, '\x7d', [], rfl, rfl, rfl⟩, ?_⟩
  exact Passes.closing (Int.le_refl 0)

theorem fits_between : Fits 1 "\x7d else \x7b" 1 := by
  have helse : Level " else" := level_of_all rfl
  have hsplit : "\x7d else \x7b".toList = [braces.closing] ++ (" else" ++ " \x7b").toList := by
    decide
  refine ⟨⟨0, '\x7d', " else \x7b".toList, by decide, rfl, rfl⟩, ?_⟩
  rw [hsplit]
  exact (Passes.closing (Int.le_refl 0)).append (passes_opened helse)

theorem fits_opened (h : Leads header) : Fits 0 (header ++ " \x7b") 1 :=
  fits_of_begins (h.begins.append _) (passes_opened h.level)

/-- A header with its body opens as many braces as it closes. -/
theorem nested_braced (h : Leads header) (hbody : Nested false 0 body 0) :
    Nested false 0 (braced header body) 0 := by
  cases body with
  | nil => exact nested_single ⟨h.begins.append _, level_empty_body h.level⟩
  | cons line rest =>
    rw [braced, List.cons_append]
    exact .line (fits_opened h) (hbody.deeper.append (.line fits_closing (.nil 0)))

theorem nested_branched (h : Leads header) (hfirst : Nested false 0 first 0)
    (hsecond : Nested false 0 second 0) : Nested false 0 (branched header first second) 0 := by
  have hclosing : Nested false 1 ["\x7d"] 0 := .line fits_closing (.nil 0)
  cases second with
  | nil =>
    have hbraced := nested_braced h hfirst
    cases first <;> exact hbraced
  | cons line rest =>
    cases first with
    | nil =>
      have hempty : Leads (header ++ " \x7b\x7d") := ⟨h.begins.append _, level_empty_body h.level⟩
      have helse : Level " else" := level_of_all rfl
      have hopen := fits_opened (hempty.append helse)
      rw [String.append_assoc, String.append_assoc] at hopen
      rw [branched, List.cons_append]
      exact .line hopen (hsecond.deeper.append hclosing)
    | cons start others =>
      simp only [branched, List.cons_append, List.append_assoc]
      refine .line (fits_opened h) (hfirst.deeper.append ?_)
      exact .line fits_between (hsecond.deeper.append hclosing)

end Lines

/-- A declaration begins with its type. -/
theorem nested_declaration {gaps : Bool} {var : VarRef} {value : Option Expr}
    (hvar : declaredObeys braceRules var) (hvalue : optionObeys braceRules value) :
    Nested gaps 0 [declarationLine var.type.jvmName var.jvmName (value.map Expr.text)] 0 := by
  have hstart := ((leads_of_unbraced hvar.1).append level_blank).append hvar.2.2.level
  cases value with
  | none => exact nested_single (hstart.append level_semicolon)
  | some e =>
    have htext := (hstart.append level_equals).append (level_text e hvalue)
    exact nested_single (htext.append level_semicolon)

mutual

/-- The lines of a statement are indented by the braces that it opens. -/
theorem nested_statement : ∀ s : Stmt, s.Obeys braceRules → Nested false 0 (outline s).lines 0
  | .expression e, h => nested_single ((leads_text e h).append level_semicolon)
  | .declaration _ _, h => nested_declaration h.1 h.2
  | .assignment receiver value, h => by
    have hsides := ((leads_text receiver h.1).append level_equals).append (level_text value h.2)
    exact nested_single (hsides.append level_semicolon)
  | .ifElse condition thenStatements elseStatements, h => by
    have hif : Leads "if (" := ⟨by decide, level_of_all rfl⟩
    have hheader := (hif.append (level_text condition h.1)).append level_parentheses.2
    exact nested_branched hheader (nested_statements thenStatements h.2.1)
      (nested_statements elseStatements h.2.2)
  | .forEach name value statements, h => by
    have hfor : Leads "for (var " := ⟨by decide, level_of_all rfl⟩
    have hcolon : Level " : " := level_of_all rfl
    have hpair := ((hfor.append h.1.2.level).append hcolon).append (level_text value h.2.1)
    exact nested_braced (hpair.append level_parentheses.2) (nested_statements statements h.2.2)
  | .whileLoop condition statements, h => by
    have hwhile : Leads "while (" := ⟨by decide, level_of_all rfl⟩
    have hheader := (hwhile.append (level_text condition h.1)).append level_parentheses.2
    exact nested_braced hheader (nested_statements statements h.2)
  | .returnStmt value, h => by
    have hreturn : Leads "return " := ⟨by decide, level_of_all rfl⟩
    exact nested_single ((hreturn.append (level_text value h)).append level_semicolon)

theorem nested_statements : ∀ xs : List Stmt, stmtsObey braceRules xs →
    Nested false 0 (linesOf (outlines xs)) 0
  | [], _ => .nil 0
  | s :: rest, h => (nested_statement s h.1).append (nested_statements rest h.2)

end

theorem nested_fields (fs : List Field) (h : ∀ f ∈ fs, f.Obeys braceRules) :
    Nested false 0 (fs.map fieldLine) 0 := by
  induction fs with
  | nil => exact .nil 0
  | cons f rest ih =>
    obtain ⟨hvar, hvalue⟩ := h f List.mem_cons_self
    have hfirst : Nested false 0 [fieldLine f] 0 := nested_declaration hvar hvalue
    exact hfirst.append (ih fun f hf => h f (List.mem_cons_of_mem _ hf))

theorem level_parameters (types : List TypeRef) (names : List String)
    (htypes : ∀ type ∈ types, braceRules.type type.jvmName)
    (hnames : ∀ name ∈ names, braceRules.name name) :
    ∀ s ∈ List.zipWith (fun type name => type.jvmName ++ " " ++ name) types names, Level s := by
  induction types generalizing names with
  | nil => intro s hs; exact absurd hs List.not_mem_nil
  | cons type types ih =>
    cases names with
    | nil => intro s hs; exact absurd hs List.not_mem_nil
    | cons name names =>
      intro s hs
      rcases List.mem_cons.mp hs with rfl | hs
      · have htype := htypes type List.mem_cons_self
        have hname := hnames name List.mem_cons_self
        exact (htype.2.level.append level_blank).append hname.2.level
      · exact ih names (fun t ht => htypes t (List.mem_cons_of_mem _ ht))
          (fun n hn => hnames n (List.mem_cons_of_mem _ hn)) s hs

theorem nested_method (m : Method) (h : m.Obeys braceRules) : Nested false 0 (methodLines m) 0 := by
  obtain ⟨htype, hname, htypes, hnames, hstatements⟩ := h
  have hsignature := ((leads_of_unbraced htype).append level_blank).append hname.2.level
  have hlist : Level (parameterList m) :=
    Steady.text_intercalate level_comma (level_parameters _ _ htypes hnames)
  have hopen := fits_opened
    (((hsignature.append level_parentheses.1).append hlist).append level_parentheses.2)
  rw [String.append_assoc] at hopen
  rw [methodLines, List.cons_append]
  exact .line hopen ((nested_statements _ hstatements).deeper.append (.line fits_closing (.nil 0)))

theorem nested_entryPoint : Nested false 0 entryPointLines 0 := by
  have hmain : Leads "public static void main(String[] args)" := ⟨by decide, level_of_all rfl⟩
  have hcall : Leads "System.exit(new Main().main());" := ⟨by decide, level_of_all rfl⟩
  have hbody : Nested false 0 ["System.exit(new Main().main());"] 0 := nested_single hcall
  exact .line (fits_opened hmain) (hbody.deeper.append (.line fits_closing (.nil 0)))

theorem nested_fieldSection (fs : List Field) (h : ∀ f ∈ fs, f.Obeys braceRules) :
    Nested true 1 (fieldSection fs) 1 := by
  cases fs with
  | nil => exact .nil 1
  | cons f rest =>
    have hfields : Nested true 1 (deeper ((f :: rest).map fieldLine)) 1 :=
      (nested_fields (f :: rest) h).deeper
    rw [fieldSection, List.cons_append]
    exact .gap rfl (hfields.append (.gap rfl (.nil 1)))

theorem nested_laterMethods (ms : List Method) (h : ∀ m ∈ ms, m.Obeys braceRules) :
    Nested true 1 (ms.flatMap fun m => "" :: deeper (methodLines m)) 1 := by
  induction ms with
  | nil => exact .nil 1
  | cons m rest ih =>
    have hmethod := nested_method m (h m List.mem_cons_self)
    rw [List.flatMap_cons, List.cons_append]
    exact .gap rfl (hmethod.deeper.append (ih fun m hm => h m (List.mem_cons_of_mem _ hm)))

theorem nested_methodSection (ms : List Method) (h : ∀ m ∈ ms, m.Obeys braceRules) :
    Nested true 1 (methodSection ms) 1 := by
  cases ms with
  | nil => exact .nil 1
  | cons m rest =>
    rw [methodSection_cons]
    exact nested_laterMethods (m :: rest) h

/-- The lines of a program are indented by the braces that are open before them. -/
theorem nested_lines (s : Source) (h : s.Obeys braceRules) : Nested true 0 (lines s) 0 := by
  have hclass : Leads "public class Main" := ⟨by decide, level_of_all rfl⟩
  have hfields := nested_fieldSection s.fields h.1
  have hmethods := nested_methodSection s.methods h.2
  have hmembers := (hfields.append nested_entryPoint.deeper).append hmethods
  rw [lines, List.cons_append]
  exact .line (fits_opened hclass) (hmembers.append (.line fits_closing (.nil 0)))

end JavaRender.Scan
