import JavaRender.Proofs.Typed.Text

/-!
The layout of a program as lists of lines. A statement is reduced to its outline, in which the
expressions are texts already; its lines are the ones at depth zero, and a body stands one
indentation deeper. Neither a terminator nor a level counter occurs here.
-/
namespace JavaRender.Layout

open Typed

/-- A statement with its header texts in the place of descriptors and expressions. -/
inductive Outline where
  | expression (text : String)
  | declaration (type name : String) (value : Option String)
  | assignment (target value : String)
  | ifElse (condition : String) (thenParts elseParts : List Outline)
  | forEach (name value : String) (parts : List Outline)
  | whileLoop (condition : String) (parts : List Outline)
  | returnStmt (value : String)

mutual

def outline : Stmt → Outline
  | .expression e => .expression e.text
  | .declaration var value => .declaration var.type.jvmName var.jvmName (value.map Expr.text)
  | .assignment receiver value => .assignment receiver.text value.text
  | .ifElse condition thenStatements elseStatements =>
    .ifElse condition.text (outlines thenStatements) (outlines elseStatements)
  | .forEach name value statements => .forEach name value.text (outlines statements)
  | .whileLoop condition statements => .whileLoop condition.text (outlines statements)
  | .returnStmt value => .returnStmt value.text

def outlines : List Stmt → List Outline
  | [] => []
  | s :: rest => outline s :: outlines rest

end

def deeper (lines : List String) : List String := lines.map ("    " ++ ·)

/-- A header with a body, given by its lines; without lines the braces stay on the header line. -/
def braced (header : String) : List String → List String
  | [] => [header ++ " \x7b\x7d"]
  | line :: rest => (header ++ " \x7b") :: deeper (line :: rest) ++ ["\x7d"]

/-- A header with two bodies, of which an empty second one leaves no trace. -/
def branched (header : String) : List String → List String → List String
  | front, [] => braced header front
  | [], line :: rest => (header ++ " \x7b\x7d else \x7b") :: deeper (line :: rest) ++ ["\x7d"]
  | first :: others, line :: rest =>
    (header ++ " \x7b") :: deeper (first :: others) ++
      "\x7d else \x7b" :: deeper (line :: rest) ++ ["\x7d"]

def declarationLine (type name : String) : Option String → String
  | none => type ++ " " ++ name ++ ";"
  | some value => type ++ " " ++ name ++ " = " ++ value ++ ";"

mutual

def Outline.lines : Outline → List String
  | .expression text => [text ++ ";"]
  | .declaration type name value => [declarationLine type name value]
  | .assignment target value => [target ++ " = " ++ value ++ ";"]
  | .ifElse condition thenParts elseParts =>
    branched ("if (" ++ condition ++ ")") (linesOf thenParts) (linesOf elseParts)
  | .forEach name value parts =>
    braced ("for (var " ++ name ++ " : " ++ value ++ ")") (linesOf parts)
  | .whileLoop condition parts => braced ("while (" ++ condition ++ ")") (linesOf parts)
  | .returnStmt value => ["return " ++ value ++ ";"]

def linesOf : List Outline → List String
  | [] => []
  | o :: rest => o.lines ++ linesOf rest

end

theorem lines_ne_nil (o : Outline) : o.lines ≠ [] := by
  have hbraced : ∀ header body, braced header body ≠ [] := by
    intro header body
    cases body <;> simp [braced]
  cases o with
  | ifElse condition thenParts elseParts =>
    rw [Outline.lines]
    rcases linesOf thenParts with _ | ⟨first, others⟩ <;>
      rcases linesOf elseParts with _ | ⟨line, rest⟩ <;> simp [branched, braced]
  | forEach | whileLoop => exact hbraced _ _
  | expression | declaration | assignment | returnStmt => simp [Outline.lines]

theorem linesOf_outlines_cons_ne_nil (s : Stmt) (rest : List Stmt) :
    linesOf (outlines (s :: rest)) ≠ [] := by
  rw [outlines, linesOf]
  exact List.append_ne_nil_of_left_ne_nil (lines_ne_nil (outline s)) _

def fieldLine (f : Field) : String :=
  declarationLine f.var.type.jvmName f.var.jvmName (f.value.map Expr.text)

def parameterList (m : Method) : String :=
  ", ".intercalate (List.zipWith (fun type name => type.jvmName ++ " " ++ name)
    m.function.parameterTypes m.parameters)

def methodHeader (m : Method) : String :=
  m.function.returnType.jvmName ++ " " ++ m.function.jvmName ++ "(" ++ parameterList m ++ ") \x7b"

def methodLines (m : Method) : List String :=
  methodHeader m :: deeper (linesOf (outlines m.statements)) ++ ["\x7d"]

def entryPointLines : List String :=
  ["public static void main(String[] args) \x7b",
    "    System.exit(new Main().main());",
    "\x7d"]

def fieldSection : List Field → List String
  | [] => []
  | f :: rest => "" :: deeper ((f :: rest).map fieldLine) ++ [""]

def methodSection : List Method → List String
  | [] => []
  | m :: rest => "" :: [""].intercalate ((m :: rest).map fun m => deeper (methodLines m))

theorem intercalate_emptyLine (first : List String) (rest : List (List String)) :
    [""].intercalate (first :: rest) = first ++ rest.flatMap ("" :: ·) := by
  induction rest generalizing first with
  | nil => simp
  | cons second rest ih =>
    rw [List.intercalate_cons_cons, ih second]
    simp

theorem methodSection_cons (m : Method) (rest : List Method) :
    methodSection (m :: rest) =
      "" :: (deeper (methodLines m) ++ rest.flatMap fun m => "" :: deeper (methodLines m)) := by
  rw [methodSection, List.map_cons, intercalate_emptyLine, List.flatMap_map]

def lines (s : Source) : List String :=
  "public class Main \x7b" ::
    (fieldSection s.fields ++ deeper entryPointLines ++ methodSection s.methods) ++ ["\x7d"]

end JavaRender.Layout
