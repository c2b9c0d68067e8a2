import JavaRender.Proofs.Decoding.Body
import JavaRender.Proofs.Decoding.Sentence
import JavaRender.Proofs.Layout.Refinement

/-!
Statements read back from their text. At every depth the text of a list of statements is cut into
its lines in one way, and the lines are those of one list of outlines only; main statement: lists of
statements with the same text have the same outlines.
-/
namespace JavaRender.Decoding

open Typed Layout Scan Emission

def headed : Outline → Option (String × List Outline × List Outline)
  | .ifElse condition thenParts elseParts => some ("if (" ++ condition, thenParts, elseParts)
  | .forEach name value parts => some ("for (var " ++ (name ++ " : " ++ value), parts, [])
  | .whileLoop condition parts => some ("while (" ++ condition, parts, [])
  | .expression _ | .declaration _ _ _ | .assignment _ _ | .returnStmt _ => none

def Spoken (o : Outline) : Prop := ∃ words, Sentence o words

mutual

/-- An outline that can be told from all others by its lines. -/
def Readable : Outline → Prop
  | .ifElse condition thenParts elseParts =>
    Enclosable condition ∧ AllReadable thenParts ∧ AllReadable elseParts
  | .forEach name value parts => Solid name ∧ Enclosable value ∧ AllReadable parts
  | .whileLoop condition parts => Enclosable condition ∧ AllReadable parts
  | .expression text => Spoken (.expression text)
  | .declaration type name value => Spoken (.declaration type name value)
  | .assignment target value => Spoken (.assignment target value)
  | .returnStmt value => Spoken (.returnStmt value)

def AllReadable : List Outline → Prop
  | [] => True
  | o :: rest => Readable o ∧ AllReadable rest

end

section Headers

variable {o : Outline} {header : String} {front back : List Outline}

theorem lines_of_headed (h : headed o = some (header, front, back)) :
    o.lines = branched (header ++ ")") (linesOf front) (linesOf back) := by
  cases o with
  | expression | declaration | assignment | returnStmt => cases h
  | ifElse condition thenParts elseParts => cases h; rfl
  | forEach name value parts =>
    cases h
    rw [Outline.lines, braced_eq, ← String.append_assoc, ← String.append_assoc]
    rfl
  | whileLoop condition parts => cases h; exact braced_eq _ _

theorem spoken_of_not_headed (ho : Readable o) (h : headed o = none) : Spoken o := by
  cases o with
  | ifElse | forEach | whileLoop => cases h
  | expression | declaration | assignment | returnStmt => exact ho

theorem first_letter {first second tail tail' : String} (hfirst : first ≠ "")
    (hsecond : second ≠ "") (h : first ++ tail = second ++ tail') :
    first.toList.head? = second.toList.head? := by
  have hchars := congrArg String.toList h
  obtain ⟨c, rest, hc⟩ := List.exists_cons_of_ne_nil
    fun hnil => hfirst (String.toList_inj.mp hnil)
  obtain ⟨c', rest', hc'⟩ := List.exists_cons_of_ne_nil
    fun hnil => hsecond (String.toList_inj.mp hnil)
  rw [String.toList_append, String.toList_append, hc, hc'] at hchars
  rw [hc, hc', List.head?_cons, List.head?_cons, (List.cons.inj hchars).1]

/-- Headers of different statements begin with different letters, so a header tells its statement:
a condition, an iteration or a loop. -/
theorem headed_if {condition : String} (h : headed o = some ("if (" ++ condition, front, back)) :
    o = .ifElse condition front back := by
  cases o with
  | expression | declaration | assignment | returnStmt => cases h
  | ifElse condition' thenParts elseParts =>
    obtain ⟨hheader, hbodies⟩ := Prod.mk.inj (Option.some.inj h)
    obtain ⟨rfl, rfl⟩ := Prod.mk.inj hbodies
    rw [(String.append_right_inj "if (").mp hheader]
  | forEach | whileLoop =>
    have hheader := (Prod.mk.inj (Option.some.inj h)).1
    exact absurd (first_letter (by decide) (by decide) hheader) (by decide)

theorem headed_while {condition : String}
    (h : headed o = some ("while (" ++ condition, front, back)) :
    back = [] ∧ o = .whileLoop condition front := by
  cases o with
  | expression | declaration | assignment | returnStmt => cases h
  | whileLoop condition' parts =>
    obtain ⟨hheader, hbodies⟩ := Prod.mk.inj (Option.some.inj h)
    obtain ⟨rfl, rfl⟩ := Prod.mk.inj hbodies
    exact ⟨rfl, by rw [(String.append_right_inj "while (").mp hheader]⟩
  | ifElse | forEach =>
    have hheader := (Prod.mk.inj (Option.some.inj h)).1
    exact absurd (first_letter (by decide) (by decide) hheader) (by decide)

/-- The name of a loop ends at the first blank. -/
theorem name_unique {name name' value value' : String} (hname : Solid name) (hname' : Solid name')
    (h : name ++ " : " ++ value = name' ++ " : " ++ value') : name = name' ∧ value = value' := by
  have hcolon : " : ".toList = ' ' :: ": ".toList := by decide
  have hchars := congrArg String.toList h
  simp only [String.toList_append, hcolon, List.append_assoc, List.cons_append] at hchars
  obtain ⟨hsame, hrest⟩ := solid_cut_unique hname hname' hchars
  exact ⟨String.toList_inj.mp hsame, String.toList_inj.mp (List.append_cancel_left hrest)⟩

theorem headed_for {name value : String} (ho : Readable o) (hname : Solid name)
    (h : headed o = some ("for (var " ++ (name ++ " : " ++ value), front, back)) :
    back = [] ∧ o = .forEach name value front := by
  cases o with
  | expression | declaration | assignment | returnStmt => cases h
  | forEach name' value' parts =>
    obtain ⟨hheader, hbodies⟩ := Prod.mk.inj (Option.some.inj h)
    obtain ⟨rfl, rfl⟩ := Prod.mk.inj hbodies
    obtain ⟨rfl, rfl⟩ :=
      name_unique ho.1 hname ((String.append_right_inj "for (var ").mp hheader)
    exact ⟨rfl, rfl⟩
  | ifElse | whileLoop =>
    have hheader := (Prod.mk.inj (Option.some.inj h)).1
    exact absurd (first_letter (by decide) (by decide) hheader) (by decide)

/-- A statement with bodies shares its lines only with statements of the same header, whose bodies
have the same lines. -/
theorem headed_unique {o' : Outline} {rest rest' : List String} (ho' : Readable o')
    (h : headed o = some (header, front, back)) (heq : o.lines ++ rest = o'.lines ++ rest') :
    ∃ front' back', headed o' = some (header, front', back') ∧ linesOf front = linesOf front' ∧
      linesOf back = linesOf back' ∧ rest = rest' := by
  rw [lines_of_headed h, branched_eq, List.cons_append] at heq
  cases h' : headed o' with
  | none =>
    obtain ⟨words, hwords⟩ := spoken_of_not_headed ho' h'
    rw [hwords.lines_eq] at heq
    exact absurd (List.cons.inj heq).1 (opening_ne_semicolon _)
  | some parts =>
    obtain ⟨header', front', back'⟩ := parts
    rw [lines_of_headed h', branched_eq, List.cons_append] at heq
    obtain ⟨hfirst, hbehind⟩ := List.cons.inj heq
    obtain ⟨rfl, hopening⟩ := header_unique hfirst
    obtain ⟨hfront, hback, hrest⟩ := behind_unique hopening hbehind
    exact ⟨front', back', rfl, hfront, hback, hrest⟩

/-- The same for a statement without a body. -/
theorem spoken_unique {o' : Outline} {rest rest' : List String} (ho : Spoken o) (ho' : Readable o')
    (heq : o.lines ++ rest = o'.lines ++ rest') : o = o' ∧ rest = rest' := by
  obtain ⟨words, hwords⟩ := ho
  rw [hwords.lines_eq] at heq
  cases h' : headed o' with
  | none =>
    obtain ⟨words', hwords'⟩ := spoken_of_not_headed ho' h'
    rw [hwords'.lines_eq] at heq
    obtain ⟨hline, hrest⟩ := List.cons.inj heq
    exact ⟨sentence_unique hwords hwords' hline, hrest⟩
  | some parts =>
    rw [lines_of_headed h', branched_eq] at heq
    exact absurd (List.cons.inj heq).1.symm (opening_ne_semicolon _)

end Headers

mutual

/-- The lines of a readable outline, with any lines behind them, are those of no other outline. -/
theorem lines_unique : ∀ (o o' : Outline) (rest rest' : List String), Readable o → Readable o' →
    o.lines ++ rest = o'.lines ++ rest' → o = o' ∧ rest = rest'
  | .expression text, o', rest, rest', ho, ho', heq => spoken_unique ho ho' heq
  | .declaration type name value, o', rest, rest', ho, ho', heq => spoken_unique ho ho' heq
  | .assignment target value, o', rest, rest', ho, ho', heq => spoken_unique ho ho' heq
  | .returnStmt value, o', rest, rest', ho, ho', heq => spoken_unique ho ho' heq
  | .ifElse condition thenParts elseParts, o', rest, rest', ho, ho', heq => by
    obtain ⟨front, back, h', hfront, hback, hrest⟩ := headed_unique ho' rfl heq
    have hshape := headed_if h'
    subst hshape
    rw [linesOf_unique thenParts front ho.2.1 ho'.2.1 hfront,
      linesOf_unique elseParts back ho.2.2 ho'.2.2 hback]
    exact ⟨rfl, hrest⟩
  | .forEach name value parts, o', rest, rest', ho, ho', heq => by
    obtain ⟨front, back, h', hfront, -, hrest⟩ := headed_unique ho' rfl heq
    obtain ⟨-, hshape⟩ := headed_for ho' ho.1 h'
    subst hshape
    rw [linesOf_unique parts front ho.2.2 ho'.2.2 hfront]
    exact ⟨rfl, hrest⟩
  | .whileLoop condition parts, o', rest, rest', ho, ho', heq => by
    obtain ⟨front, back, h', hfront, -, hrest⟩ := headed_unique ho' rfl heq
    obtain ⟨-, hshape⟩ := headed_while h'
    subst hshape
    rw [linesOf_unique parts front ho.2 ho'.2 hfront]
    exact ⟨rfl, hrest⟩

theorem linesOf_unique : ∀ os os' : List Outline, AllReadable os → AllReadable os' →
    linesOf os = linesOf os' → os = os'
  | [], [], _, _, _ => rfl
  | [], o' :: rest', _, _, heq => by
    have hne := List.append_ne_nil_of_left_ne_nil (lines_ne_nil o') (linesOf rest')
    exact absurd heq.symm hne
  | o :: rest, [], _, _, heq => by
    have hne := List.append_ne_nil_of_left_ne_nil (lines_ne_nil o) (linesOf rest)
    exact absurd heq hne
  | o :: rest, o' :: rest', h, h', heq => by
    obtain ⟨rfl, hrest⟩ := lines_unique o o' _ _ h.1 h'.1 heq
    rw [linesOf_unique rest rest' h.2 h'.2 hrest]

end

section Obedience

theorem type_word {s : String} (h : isTypeName s = true) : Solid s ∧ s ≠ "return" :=
  ⟨Steady.unmarked fun _ hc => type_notMem_marks h hc, type_ne_return h⟩

theorem name_word {s : String} (h : isName s = true) : Solid s ∧ s ≠ "=" := by
  refine ⟨name_solid h, ?_⟩
  rintro rfl
  exact name_notMem_words h (by decide)

mutual

/-- Under the rules of Java every outline is readable. -/
theorem readable_outline : ∀ s : Stmt, s.Obeys javaRules → Readable (outline s)
  | .expression e, h => by
    obtain ⟨words, chain, heq⟩ := phrase_text e h
    exact ⟨words, heq ▸ .expression chain⟩
  | .declaration _ none, h => ⟨_, .declaration (type_word h.1.1) (name_word h.1.2)⟩
  | .declaration var (some e), h => by
    obtain ⟨words, chain, heq⟩ := phrase_text e h.2
    refine ⟨var.type.jvmName :: var.jvmName :: "=" :: words, ?_⟩
    rw [Option.map_some, heq]
    exact .initialised (type_word h.1.1) (name_word h.1.2) chain
  | .assignment receiver value, h => by
    obtain ⟨words, chain, heq⟩ := phrase_text receiver h.1
    obtain ⟨values, chain', heq'⟩ := phrase_text value h.2
    refine ⟨words ++ "=" :: values, ?_⟩
    rw [heq, heq']
    exact .assignment chain chain'
  | .ifElse condition thenStatements elseStatements, h =>
    ⟨(phrase_text condition h.1).enclosable, readable_outlines thenStatements h.2.1,
      readable_outlines elseStatements h.2.2⟩
  | .forEach _ value statements, h =>
    ⟨name_solid h.1, (phrase_text value h.2.1).enclosable, readable_outlines statements h.2.2⟩
  | .whileLoop condition statements, h =>
    ⟨(phrase_text condition h.1).enclosable, readable_outlines statements h.2⟩
  | .returnStmt value, h => by
    obtain ⟨words, chain, heq⟩ := phrase_text value h
    refine ⟨"return" :: words, ?_⟩
    rw [heq]
    exact .returned chain

theorem readable_outlines : ∀ xs : List Stmt, stmtsObey javaRules xs → AllReadable (outlines xs)
  | [], _ => trivial
  | s :: rest, h => ⟨readable_outline s h.1, readable_outlines rest h.2⟩

end

end Obedience

section Text

theorem unbroken_spoken {o : Outline} (h : Spoken o) : Unbroken o.lines := by
  obtain ⟨words, hwords⟩ := h
  have hjoined : Enclosable (joined words) :=
    enclosable_blank.intercalate fun w hw => (hwords.solid w hw).enclosable
  have hend : '\n' ∉ ";".toList := by decide
  rw [hwords.lines_eq, unbroken_cons, String.toList_append, List.mem_append, not_or]
  exact ⟨⟨hjoined.newline_notMem, hend⟩, fun _ hline => absurd hline List.not_mem_nil⟩

/-- A header has a line break only where its texts do. -/
theorem header_unbroken (start text : String) (hstart : '\n' ∉ start.toList)
    (htext : '\n' ∉ text.toList) : '\n' ∉ (start ++ text ++ ")").toList := by
  have hend : '\n' ∉ ")".toList := by decide
  simp only [String.toList_append, List.mem_append, not_or]
  exact ⟨⟨hstart, htext⟩, hend⟩

mutual

theorem unbroken_lines : ∀ o : Outline, Readable o → Unbroken o.lines
  | .expression _, h => unbroken_spoken h
  | .declaration _ _ _, h => unbroken_spoken h
  | .assignment _ _, h => unbroken_spoken h
  | .returnStmt _, h => unbroken_spoken h
  | .ifElse condition thenParts elseParts, h => by
    have hheader := header_unbroken "if (" condition (by decide) h.1.newline_notMem
    exact unbroken_branched hheader (unbroken_linesOf thenParts h.2.1)
      (unbroken_linesOf elseParts h.2.2)
  | .forEach name value parts, h => by
    have hcolon : '\n' ∉ " : ".toList := by decide
    have htext : '\n' ∉ (name ++ " : " ++ value).toList := by
      simp only [String.toList_append, List.mem_append, not_or]
      exact ⟨⟨h.1.newline_notMem, hcolon⟩, h.2.1.newline_notMem⟩
    have hheader := header_unbroken "for (var " _ (by decide) htext
    rw [← String.append_assoc, ← String.append_assoc] at hheader
    rw [Outline.lines, braced_eq]
    exact unbroken_branched hheader (unbroken_linesOf parts h.2.2)
      fun _ hline => absurd hline List.not_mem_nil
  | .whileLoop condition parts, h => by
    have hheader := header_unbroken "while (" condition (by decide) h.1.newline_notMem
    rw [Outline.lines, braced_eq]
    exact unbroken_branched hheader (unbroken_linesOf parts h.2)
      fun _ hline => absurd hline List.not_mem_nil

theorem unbroken_linesOf : ∀ os : List Outline, AllReadable os → Unbroken (linesOf os)
  | [], _ => fun _ hline => absurd hline List.not_mem_nil
  | o :: rest, h => unbroken_append.mpr ⟨unbroken_lines o h.1, unbroken_linesOf rest h.2⟩

end

theorem newline_notMem_indent (level : Nat) : '\n' ∉ (indent level).toList := by
  have hblanks : '\n' ∉ "    ".toList := by decide
  induction level with
  | zero => exact List.not_mem_nil
  | succ level ih =>
    rw [indent_succ, String.toList_append, List.mem_append, not_or]
    exact ⟨ih, hblanks⟩

/-- At a depth, different lines make different texts. -/
theorem placed_unique {level : Nat} {lines lines' : List String} (h : Unbroken lines)
    (h' : Unbroken lines') (heq : placed "\n" level lines = placed "\n" level lines') :
    lines = lines' := by
  have hbreak : "\n".toList = ['\n'] := by decide
  have hchars : ∀ (line : String) (rest : List String), (placed "\n" level (line :: rest)).toList =
      (indent level ++ line).toList ++ '\n' :: (placed "\n" level rest).toList := by
    intro line rest
    simp only [placed_cons, String.toList_append, hbreak, List.append_assoc, List.singleton_append]
  have hline : ∀ line : String, '\n' ∉ line.toList → '\n' ∉ (indent level ++ line).toList := by
    intro line hmem
    rw [String.toList_append, List.mem_append, not_or]
    exact ⟨newline_notMem_indent level, hmem⟩
  induction lines generalizing lines' with
  | nil =>
    cases lines' with
    | nil => rfl
    | cons line' rest' =>
      have hempty := congrArg String.toList heq
      rw [hchars, placed_nil, String.toList_empty] at hempty
      exact absurd hempty.symm (List.append_ne_nil_of_right_ne_nil _ (List.cons_ne_nil _ _))
  | cons line rest ih =>
    cases lines' with
    | nil =>
      have hempty := congrArg String.toList heq
      rw [hchars, placed_nil, String.toList_empty] at hempty
      exact absurd hempty (List.append_ne_nil_of_right_ne_nil _ (List.cons_ne_nil _ _))
    | cons line' rest' =>
      rw [unbroken_cons] at h h'
      have hcut := congrArg String.toList heq
      rw [hchars, hchars] at hcut
      obtain ⟨hfirst, hothers⟩ := cut_unique (hline line h.1) (hline line' h'.1) hcut
      rw [(String.append_right_inj (indent level)).mp (String.toList_inj.mp hfirst),
        ih h.2 h'.2 (String.toList_inj.mp hothers)]

def statementsText (xs : List Stmt) (level : Nat) : String :=
  (Emitter.statements (stmtTrees xs) { terminator := "\n", level }).2.sink.text

theorem statementsText_eq (xs : List Stmt) (level : Nat) :
    statementsText xs level = placed "\n" level (linesOf (outlines xs)) := by
  obtain ⟨after, hrun, htext, -⟩ := (prints_statements xs "\n" level).fresh
  rw [statementsText, hrun]
  exact htext

/-- Statements that write the same text have the same outlines: as many of them, in the same order,
each of the same kind with the same texts, and so on in their bodies. -/
theorem outlines_of_text {xs ys : List Stmt} {level : Nat} (hxs : stmtsObey javaRules xs)
    (hys : stmtsObey javaRules ys) (h : statementsText xs level = statementsText ys level) :
    outlines xs = outlines ys := by
  have hx := readable_outlines xs hxs
  have hy := readable_outlines ys hys
  rw [statementsText_eq, statementsText_eq] at h
  have hlines := placed_unique (unbroken_linesOf _ hx) (unbroken_linesOf _ hy) h
  exact linesOf_unique _ _ hx hy hlines

/-- A loop with a condition that has an `else` only and a value that looks like its end. -/
def loopOver (condition : Expr) : List Stmt :=
  [.whileLoop condition
    [.ifElse condition []
      [.declaration ⟨"s", "s", ⟨"String", "String"⟩⟩ (some (.literal (.string ") \x7b\x7d")))],
      .returnStmt condition]]

def dotted : Expr := .access ⟨"a.b", "a.b", ⟨"Boolean", "boolean"⟩⟩ none

def member : Expr :=
  .access ⟨"b", "b", ⟨"Boolean", "boolean"⟩⟩ (some (.access ⟨"a", "a", ⟨"Any", "Object"⟩⟩ none))

theorem outlines_of_loops :
    stmtsObey javaRules (loopOver dotted) ∧ stmtsObey javaRules (loopOver member) ∧
      statementsText (loopOver dotted) 2 = statementsText (loopOver member) 2 ∧
      outlines (loopOver dotted) = outlines (loopOver member) := by
  have hdotted : stmtsObey javaRules (loopOver dotted) := by
    simp only [loopOver, dotted, stmtsObey, Stmt.Obeys, Expr.Obeys, optionObeys, declaredObeys,
      javaRules]
    decide
  have hmember : stmtsObey javaRules (loopOver member) := by
    simp only [loopOver, member, stmtsObey, Stmt.Obeys, Expr.Obeys, optionObeys, declaredObeys,
      javaRules]
    decide
  have htext : statementsText (loopOver dotted) 2 = statementsText (loopOver member) 2 := by
    rw [statementsText_eq, statementsText_eq]
    decide
  exact ⟨hdotted, hmember, htext, outlines_of_text hdotted hmember htext⟩

end Text

end JavaRender.Decoding
