import JavaRender.Proofs.Emission.Names
import JavaRender.Proofs.Emission.Refusal

/-!
The ends of lines in what is written. A rendering is linewise if one script, made of texts on one
line and of line ends, is what it writes with every terminator; main statement: visiting a value is,
if the names in the value are on one line.
-/
namespace JavaRender.Emission

open JavaRender.Tree (Fault NamesOnOneLine)

/-- A write, without the terminator: a text, or the end of a line, which is the terminator whatever
that is. -/
inductive Write where
  | text (s : String)
  | lineEnd
deriving DecidableEq, Repr

def Write.fragment (terminator : String) : Write → String
  | text s => s
  | lineEnd => terminator

inductive Piece where
  | write (w : Write)
  | notice (n : Notice)

def Piece.event (terminator : String) : Piece → Event
  | write w => .fragment (w.fragment terminator)
  | notice n => .notice n

def Write.OnOneLine (w : Write) : Prop := ∀ s, w = text s → OneLine s

def writesOf : List Piece → List Write
  | [] => []
  | .write w :: rest => w :: writesOf rest
  | .notice _ :: rest => writesOf rest

theorem writesOf_append (first second : List Piece) :
    writesOf (first ++ second) = writesOf first ++ writesOf second := by
  induction first with
  | nil => rfl
  | cons piece rest ih => cases piece <;> simp only [List.cons_append, writesOf, ih]

theorem fragments_script (pieces : List Piece) (terminator : String) :
    fragments (pieces.map (Piece.event terminator)) =
      (writesOf pieces).map (Write.fragment terminator) := by
  induction pieces with
  | nil => rfl
  | cons piece rest ih =>
    cases piece <;> simp only [List.map_cons, Piece.event, fragments, writesOf, ih]

theorem writesOf_notices (ns : List Notice) : writesOf (ns.map .notice) = [] := by
  induction ns with
  | nil => rfl
  | cons n rest ih => exact ih

/-- A rendering that follows a script on one line at every terminator, and whose value, if it
succeeds, is as described. -/
def Linewise {α : Type} (m : Render α) (post : α → Prop) : Prop :=
  ∀ level, ∃ pieces outcome, (∀ w ∈ writesOf pieces, w.OnOneLine) ∧ Gives outcome post ∧
    ∀ terminator, Plays m terminator level (pieces.map (Piece.event terminator)) outcome

namespace Linewise

variable {α β : Type} {post : α → Prop} {post' : β → Prop}

theorem pure {a : α} (h : post a) : Linewise (pure a : Render α) post :=
  fun _ => ⟨[], .ok a, List.forall_mem_nil _, Gives.ok h, fun _ => Plays.pure a⟩

theorem lift {r : Except Fault α} (h : Gives r post) : Linewise (liftM r : Render α) post :=
  fun _ => ⟨[], r, List.forall_mem_nil _, h, fun _ => Plays.lift r⟩

/-- A check of which nothing is asked. -/
theorem check (r : Except Fault α) : Linewise (liftM r : Render α) fun _ => True :=
  lift (Gives.any r)

theorem throw (fault : Fault) : Linewise (throw fault : Render α) post :=
  fun _ => ⟨[], .error fault, List.forall_mem_nil _, Gives.error fault,
    fun _ => Plays.throw fault⟩

theorem bind {m : Render α} {f : α → Render β} (hm : Linewise m post)
    (hf : ∀ a, post a → Linewise (f a) post') : Linewise (m >>= f) post' := by
  intro level
  obtain ⟨first, outcome, hfirst, hgives, hplays⟩ := hm level
  cases outcome with
  | error fault =>
    exact ⟨first, .error fault, hfirst, Gives.error fault,
      fun terminator => Plays.bind_error f (hplays terminator)⟩
  | ok a =>
    obtain ⟨second, outcome, hsecond, hgives', hplays'⟩ := hf a (hgives a rfl) level
    refine ⟨first ++ second, outcome, ?_, hgives', fun terminator => ?_⟩
    · rw [writesOf_append]
      exact List.forall_mem_append.mpr ⟨hfirst, hsecond⟩
    · rw [List.map_append]
      exact (hplays terminator).bind (hplays' terminator)

/-- Of the value of a first rendering nothing is asked. -/
theorem skip {m : Render α} {f : α → Render β} (hm : Linewise m fun _ => True)
    (hf : ∀ a, Linewise (f a) post') : Linewise (m >>= f) post' :=
  hm.bind fun a _ => hf a

theorem write {s : String} (h : OneLine s) : Linewise (Emitter.write s) fun _ => True := by
  refine fun _ => ⟨[.write (.text s)], .ok (), ?_, Gives.any _, fun _ => Plays.write s⟩
  intro w hw t ht
  cases List.mem_singleton.mp hw
  cases ht
  exact h

theorem newline : Linewise Emitter.newline fun _ => True := by
  refine fun _ => ⟨[.write .lineEnd], .ok (), ?_, Gives.any _, fun _ => Plays.newline⟩
  intro w hw t ht
  cases List.mem_singleton.mp hw
  cases ht

theorem note (n : Notice) :
    Linewise (modify fun e => { e with notices := e.notices ++ [n] } : Render Unit) fun _ => True :=
  fun _ => ⟨[.notice n], .ok (), List.forall_mem_nil _, Gives.any _, fun _ => Plays.note n⟩

theorem oneLine_blanks (count : Nat) :
    OneLine (String.join (List.replicate count Emitter.indentation)) := by
  refine .join fun s hs => ?_
  rw [List.eq_of_mem_replicate hs]
  decide

theorem indentLine : Linewise Emitter.indentLine fun _ => True := by
  intro level
  have hplays (terminator : String) : Plays Emitter.indentLine terminator level _ (.ok ()) :=
    Plays.indentLine
  by_cases hzero : level = 0
  · simp only [if_pos hzero] at hplays
    exact ⟨[], .ok (), List.forall_mem_nil _, Gives.any _, hplays⟩
  · simp only [if_neg hzero] at hplays
    refine ⟨[.write (.text _)], .ok (), ?_, Gives.any _, hplays⟩
    intro w hw s hs
    cases List.mem_singleton.mp hw
    cases hs
    exact oneLine_blanks _

theorem line {fragment : Except Fault String} (h : Gives fragment OneLine) :
    Linewise (Emitter.line fragment) fun _ => True :=
  indentLine.skip fun _ => (lift h).bind fun _ hs => write hs

theorem fullLine {fragment : Except Fault String} (h : Gives fragment OneLine) :
    Linewise (Emitter.line fragment >>= fun _ => Emitter.newline) fun _ => True :=
  (line h).skip fun _ => newline

theorem block {body : Render α} (h : Linewise body post) : Linewise (Emitter.block body) post := by
  intro level
  obtain ⟨pieces, outcome, hpieces, hgives, hplays⟩ := h (level + 1)
  exact ⟨pieces, outcome, hpieces, hgives, fun terminator => (hplays terminator).block⟩

theorem noting {text : Noting α} (hnoted : Noted text) (h : Yields text post) :
    Linewise (Emitter.noting text) post := by
  intro level
  obtain ⟨ns, outcome, hnotes⟩ := hnoted
  have hgives : Gives outcome post := by
    have hrun := h []
    rwa [hnotes []] at hrun
  refine ⟨ns.map .notice, outcome, ?_, hgives, fun terminator => ?_⟩
  · rw [writesOf_notices]
    exact List.forall_mem_nil _
  · rw [List.map_map]
    exact hnotes.plays terminator level

/-- A declaration, with or without its value. -/
theorem declarationText {var value : Tree} (hvar : var.NamesOnOneLine)
    (hvalue : value.NamesOnOneLine) :
    Linewise (Emitter.noting (Emitter.declarationText var value)) OneLine := by
  refine noting (Noted.declarationText var value) ?_
  unfold Emitter.declarationText
  refine (Yields.lift (hvar.require "type")).bind fun type htype => ?_
  refine (Yields.lift htype.jvmSpelling).bind fun typeName htypeName => ?_
  refine (Yields.lift hvar.jvmSpelling).bind fun name hname => ?_
  have hdeclared := (htypeName.append (by decide : OneLine " ")).append hname
  split
  · exact Yields.pure (hdeclared.append (by decide))
  · refine (Expression.oneLine_render value hvalue).bind fun t ht => ?_
    refine (Yields.lift ht.spelling).bind fun start hstart => ?_
    exact Yields.pure (((hdeclared.append (by decide)).append hstart).append (by decide))

theorem expression {t : Tree} (h : t.NamesOnOneLine) :
    Linewise (Emitter.noting (Expression.render t)) Tree.OnOneLine :=
  noting (Noted.render t) (Expression.oneLine_render t h)

/-- An indented line with its end, then the rest. -/
theorem lineThen {fragment : Except Fault String} (h : Gives fragment OneLine) {m : Render α}
    (hm : Linewise m post) :
    Linewise (Emitter.line fragment >>= fun _ => Emitter.newline >>= fun _ => m) post :=
  (line h).skip fun _ => newline.skip fun _ => hm

theorem field {t : Tree} (h : t.NamesOnOneLine) : Linewise (Emitter.field t) fun _ => True := by
  unfold Emitter.field
  refine (lift (h.require "variable")).bind fun var hvar => ?_
  refine (lift (h.slotOf "value")).bind fun value hvalue => ?_
  refine (declarationText hvar hvalue).bind fun text htext => ?_
  exact fullLine (Gives.ok htext)

theorem fields {ts : List Tree} (h : ∀ t ∈ ts, t.NamesOnOneLine) :
    Linewise (Emitter.fields ts) fun _ => True := by
  induction ts with
  | nil => exact pure trivial
  | cons t rest ih =>
    exact (field (h t List.mem_cons_self)).skip fun _ =>
      ih fun t ht => h t (List.mem_cons_of_mem _ ht)

theorem entryPoint : Linewise Emitter.entryPoint fun _ => True :=
  lineThen (Gives.ok (by decide)) ((block (fullLine (Gives.ok (by decide)))).skip fun _ =>
    fullLine (Gives.ok (by decide)))

/-- The parameters of a header, each on one line. -/
theorem parameterTexts {types names : List Tree} (htypes : ∀ t ∈ types, t.NamesOnOneLine)
    (hnames : ∀ t ∈ names, t.OnOneLine) :
    Gives (Emitter.parameterTexts types names) fun texts => ∀ s ∈ texts, OneLine s := by
  induction types generalizing names with
  | nil => exact Gives.ok (List.forall_mem_nil _)
  | cons type types ih =>
    cases names with
    | nil => exact Gives.ok (List.forall_mem_nil _)
    | cons name names =>
      have hrest := ih (fun t ht => htypes t (List.mem_cons_of_mem _ ht))
        fun t ht => hnames t (List.mem_cons_of_mem _ ht)
      rw [Emitter.parameterTexts]
      refine (htypes type List.mem_cons_self).jvmSpelling.bind fun typeName htypeName => ?_
      refine Gives.bind (hnames name List.mem_cons_self).spelling fun shown hshown => ?_
      refine hrest.bind fun others hothers => Gives.ok (List.forall_mem_cons.mpr ⟨?_, hothers⟩)
      exact (htypeName.append (by decide)).append hshown

theorem header {function parameters statements : Tree}
    (h : (Tree.method function parameters statements).NamesOnOneLine) :
    Gives (Emitter.header (.method function parameters statements)) fun header =>
      Gives header.text OneLine := by
  have hparameters {items : List Tree} (hitems : parameters.items? = some items) :
      ∀ item ∈ items, item.OnOneLine := by
    intro item hitem s hs
    have hown := h.own s
    rw [Tree.ownNames, hitems] at hown
    exact hown (List.mem_flatMap.mpr ⟨item, hitem, hs⟩)
  unfold Emitter.header
  refine (h.require "function").bind fun function hfunction => ?_
  refine (hfunction.require "return_type").bind fun returnType hreturn => ?_
  refine (Tree.needItems_gives _ _ _).bind fun types htypes => ?_
  refine (Tree.needItems_gives _ _ _).bind fun names hnames => (Gives.any _).bind fun _ _ => ?_
  split
  · exact Gives.error _
  refine (parameterTexts ((hfunction.getD _).items htypes) (hparameters hnames)).bind
    fun texts htexts => Gives.ok ?_
  refine hreturn.jvmSpelling.bind fun typeName htypeName => ?_
  refine hfunction.jvmSpelling.bind fun name hname => Gives.ok ?_
  have hlist : OneLine (", ".intercalate texts) := .intercalate (by decide) htexts
  have hfront := ((htypeName.append (by decide : OneLine " ")).append hname).append
    (by decide : OneLine "(")
  exact (hfront.append hlist).append (by decide)

theorem methodAround {function parameters statements : Tree}
    (h : (Tree.method function parameters statements).NamesOnOneLine) {body : Render Unit}
    (hbody : Linewise body fun _ => True) :
    Linewise (Emitter.methodAround (.method function parameters statements) body)
      fun _ => True := by
  unfold Emitter.methodAround Emitter.closeLine
  refine (lift (header h)).bind fun header hheader => lineThen hheader ?_
  exact (block hbody).skip fun _ => fullLine (Gives.ok (by decide))

theorem writeValue {t : Tree} (h : t.OnOneLine) :
    Linewise (Emitter.writeValue t) fun _ => True := by
  unfold Emitter.writeValue
  split
  · exact write (h _ List.mem_cons_self)
  · exact throw _

/-- A body of statements: the rest of its first line, the statements and the closing brace. -/
theorem braced {body : Render Unit} (h : Linewise body fun _ => True) :
    Linewise (Emitter.write " \x7b" >>= fun _ => Emitter.newline >>= fun _ =>
      Emitter.block body >>= fun _ => Emitter.line (.ok "\x7d")) fun _ => True :=
  (write (by decide)).skip fun _ => newline.skip fun _ => (block h).skip fun _ =>
    line (Gives.ok (by decide))

/-- A line around an expression. -/
theorem around {t : Tree} (h : t.OnOneLine) {front back : String} (hfront : OneLine front)
    (hback : OneLine back) :
    Gives (do .ok (front ++ (← t.spelling?) ++ back)) OneLine :=
  Gives.bind h.spelling fun _ hs => Gives.ok ((hfront.append hs).append hback)

section Statements

variable {e var value receiver condition name statements thenStatements elseStatements : Tree}

theorem expressionStmt (h : (Tree.expressionStmt e).NamesOnOneLine) :
    Linewise (Emitter.visit (.expressionStmt e)) fun _ => True := by
  rw [Emitter.visit]
  refine (check _).skip fun _ => (expression (h.slot "expression" rfl)).bind fun t ht => ?_
  exact fullLine (Gives.bind ht.spelling fun s hs => Gives.ok (hs.append (by decide)))

theorem declaration (h : (Tree.declaration var value).NamesOnOneLine) :
    Linewise (Emitter.visit (.declaration var value)) fun _ => True := by
  rw [Emitter.visit]
  refine (check _).skip fun _ => ?_
  refine (declarationText (h.slot "variable" rfl) (h.slot "value" rfl)).bind fun text htext => ?_
  exact line (Gives.ok htext)

theorem assignment (h : (Tree.assignment receiver value).NamesOnOneLine) :
    Linewise (Emitter.visit (.assignment receiver value)) fun _ => True := by
  rw [Emitter.visit]
  refine (check _).skip fun _ => (expression (h.slot "receiver" rfl)).bind fun t ht => ?_
  refine (check _).skip fun _ => (expression (h.slot "value" rfl)).bind fun v hv => ?_
  refine fullLine (Gives.bind ht.spelling fun s hs => Gives.bind hv.spelling fun s' hs' => ?_)
  exact Gives.ok (((hs.append (by decide)).append hs').append (by decide))

theorem returnStmt (h : (Tree.returnStmt value).NamesOnOneLine) :
    Linewise (Emitter.visit (.returnStmt value)) fun _ => True := by
  rw [Emitter.visit]
  refine (check _).skip fun _ => (expression (h.slot "value" rfl)).bind fun t ht => ?_
  exact fullLine (around ht (by decide) (by decide))

theorem ifElse (h : (Tree.ifElse condition thenStatements elseStatements).NamesOnOneLine)
    (hthen : Linewise (Emitter.bodyOf thenStatements) fun _ => True)
    (helse : Linewise (Emitter.bodyOf elseStatements) fun _ => True) :
    Linewise (Emitter.visit (.ifElse condition thenStatements elseStatements)) fun _ => True := by
  rw [Emitter.visit]
  refine (check _).skip fun _ => (expression (h.slot "condition" rfl)).bind fun t ht => ?_
  refine (check _).skip fun _ => (check _).bind fun others _ => ?_
  refine (line (around ht (by decide) (by decide))).skip fun _ => hthen.skip fun _ => ?_
  split
  · exact pure trivial
  · exact (write (by decide)).skip fun _ => helse

theorem forEach (h : (Tree.forEach name value statements).NamesOnOneLine)
    (hbody : Linewise (Emitter.bodyOf statements) fun _ => True) :
    Linewise (Emitter.visit (.forEach name value statements)) fun _ => True := by
  have hname : name.OnOneLine := h.own
  rw [Emitter.visit]
  refine (check _).skip fun _ => (check _).skip fun _ => ?_
  refine (expression (h.slot "value" rfl)).bind fun t ht => (check _).skip fun _ => ?_
  refine (line ?_).skip fun _ => hbody.skip fun _ => newline
  refine Gives.bind hname.spelling fun s hs => Gives.bind ht.spelling fun s' hs' => ?_
  have hfront : OneLine ("for (var " ++ s ++ " : ") :=
    (OneLine.append (by decide) hs).append (by decide)
  exact Gives.ok ((hfront.append hs').append (by decide))

theorem whileLoop (h : (Tree.whileLoop condition statements).NamesOnOneLine)
    (hbody : Linewise (Emitter.bodyOf statements) fun _ => True) :
    Linewise (Emitter.visit (.whileLoop condition statements)) fun _ => True := by
  rw [Emitter.visit]
  refine (check _).skip fun _ => (expression (h.slot "condition" rfl)).bind fun t ht => ?_
  refine (check _).skip fun _ => (line (around ht (by decide) (by decide))).skip fun _ => ?_
  exact hbody.skip fun _ => newline

end Statements

theorem source {fieldSlot methodSlot : Tree} (h : (Tree.source fieldSlot methodSlot).NamesOnOneLine)
    (hmethods : Linewise (Emitter.methodsOf methodSlot) fun _ => True) :
    Linewise (Emitter.visit (.source fieldSlot methodSlot)) fun _ => True := by
  have hfields : fieldSlot.NamesOnOneLine := h.slot "fields" rfl
  have methodPart (items : List Tree) : Linewise (if items.isEmpty then Pure.pure () else
      Emitter.newline >>= fun _ => Emitter.methodsOf methodSlot) fun _ => True := by
    split
    · exact pure trivial
    · exact newline.skip fun _ => hmethods
  simp only [Emitter.visit]
  refine (lift (Tree.needItems_gives _ _ _)).bind fun fieldItems hitems => ?_
  refine (check _).bind fun methodItems _ => ?_
  refine (write (by decide)).skip fun _ => newline.skip fun _ => ?_
  refine (block ?_).skip fun _ => line (Gives.ok (by decide))
  split
  · exact entryPoint.skip fun _ => methodPart methodItems
  · refine newline.skip fun _ => (fields (hfields.items hitems)).skip fun _ => ?_
    exact newline.skip fun _ => entryPoint.skip fun _ => methodPart methodItems

mutual

/-- Visiting a value of any class whose names are on one line is linewise. -/
theorem visit : ∀ t : Tree, t.NamesOnOneLine → Linewise (Emitter.visit t) fun _ => True
  | .source _ methodSlot, h => source h (methodsOf methodSlot (h.slot "methods" rfl))
  | .field _ _, h => field h
  | .method _ _ statements, h =>
    methodAround h (statementsOf statements (h.slot "statements" rfl))
  | .expressionStmt _, h => expressionStmt h
  | .declaration _ _, h => declaration h
  | .assignment _ _, h => assignment h
  | .ifElse _ thenStatements elseStatements, h =>
    ifElse h (bodyOf thenStatements (h.slot "then_statements" rfl))
      (bodyOf elseStatements (h.slot "else_statements" rfl))
  | .forEach _ _ statements, h => forEach h (bodyOf statements (h.slot "statements" rfl))
  | .whileLoop _ statements, h => whileLoop h (bodyOf statements (h.slot "statements" rfl))
  | .returnStmt _, h => returnStmt h
  | .absent, h | .boolean _, h | .integer _, h | .decimal _, h | .double _, h | .text _, h
  | .bytes _, h | .kind _, h | .sequence _ _, h | .typeRef _ _, h | .varRef _ _ _, h
  | .funRef _ _ _ _, h | .literal _ _, h | .group _, h | .binary _ _ _, h | .access _ _, h
  | .call _ _ _, h => (expression h).bind fun _ ht => writeValue ht

theorem statementsOf : ∀ t : Tree, t.NamesOnOneLine →
    Linewise (Emitter.statementsOf t) fun _ => True
  | .sequence _ items, h => statements items (h.items rfl)
  | .absent, _ | .boolean _, _ | .integer _, _ | .decimal _, _ | .double _, _ | .text _, _
  | .bytes _, _ | .kind _, _ | .typeRef _ _, _ | .varRef _ _ _, _ | .funRef _ _ _ _, _
  | .literal _ _, _ | .group _, _ | .binary _ _ _, _ | .access _ _, _ | .call _ _ _, _
  | .expressionStmt _, _ | .declaration _ _, _ | .assignment _ _, _ | .ifElse _ _ _, _
  | .forEach _ _ _, _ | .whileLoop _ _, _ | .returnStmt _, _ | .field _ _, _
  | .method _ _ _, _ | .source _ _, _ => pure trivial

theorem statements : ∀ ts : List Tree, (∀ t ∈ ts, t.NamesOnOneLine) →
    Linewise (Emitter.statements ts) fun _ => True
  | [], _ => pure trivial
  | t :: rest, h => by
    have hrest := statements rest fun t ht => h t (List.mem_cons_of_mem _ ht)
    rw [Emitter.statements]
    refine (visit t (h t List.mem_cons_self)).skip fun _ => ?_
    dsimp only
    split
    · exact newline.skip fun _ => hrest
    · exact hrest

theorem bodyOf : ∀ t : Tree, t.NamesOnOneLine → Linewise (Emitter.bodyOf t) fun _ => True
  | .sequence _ [], _ => write (by decide)
  | .sequence _ (t :: rest), h => braced (statements (t :: rest) (h.items rfl))
  | .absent, _ | .boolean _, _ | .integer _, _ | .decimal _, _ | .double _, _ | .text _, _
  | .bytes _, _ | .kind _, _ | .typeRef _ _, _ | .varRef _ _ _, _ | .funRef _ _ _ _, _
  | .literal _ _, _ | .group _, _ | .binary _ _ _, _ | .access _ _, _ | .call _ _ _, _
  | .expressionStmt _, _ | .declaration _ _, _ | .assignment _ _, _ | .ifElse _ _ _, _
  | .forEach _ _ _, _ | .whileLoop _ _, _ | .returnStmt _, _ | .field _ _, _
  | .method _ _ _, _ | .source _ _, _ => pure trivial

theorem methodsOf : ∀ t : Tree, t.NamesOnOneLine → Linewise (Emitter.methodsOf t) fun _ => True
  | .sequence _ items, h => methods true items (h.items rfl)
  | .absent, _ | .boolean _, _ | .integer _, _ | .decimal _, _ | .double _, _ | .text _, _
  | .bytes _, _ | .kind _, _ | .typeRef _ _, _ | .varRef _ _ _, _ | .funRef _ _ _ _, _
  | .literal _ _, _ | .group _, _ | .binary _ _ _, _ | .access _ _, _ | .call _ _ _, _
  | .expressionStmt _, _ | .declaration _ _, _ | .assignment _ _, _ | .ifElse _ _ _, _
  | .forEach _ _ _, _ | .whileLoop _ _, _ | .returnStmt _, _ | .field _ _, _
  | .method _ _ _, _ | .source _ _, _ => pure trivial

theorem methods (first : Bool) : ∀ ts : List Tree, (∀ t ∈ ts, t.NamesOnOneLine) →
    Linewise (Emitter.methods first ts) fun _ => True
  | [], _ => pure trivial
  | t :: rest, h => by
    have following : Linewise (Emitter.method t >>= fun _ => Emitter.methods false rest)
        fun _ => True :=
      (method t (h t List.mem_cons_self)).skip fun _ =>
        methods false rest fun t ht => h t (List.mem_cons_of_mem _ ht)
    rw [Emitter.methods]
    split
    · exact following
    · exact newline.skip fun _ => following

theorem method : ∀ t : Tree, t.NamesOnOneLine → Linewise (Emitter.method t) fun _ => True
  | .method _ _ statements, h =>
    methodAround h (statementsOf statements (h.slot "statements" rfl))
  | .absent, _ | .boolean _, _ | .integer _, _ | .decimal _, _ | .double _, _ | .text _, _
  | .bytes _, _ | .kind _, _ | .sequence _ _, _ | .typeRef _ _, _ | .varRef _ _ _, _
  | .funRef _ _ _ _, _ | .literal _ _, _ | .group _, _ | .binary _ _ _, _ | .access _ _, _
  | .call _ _ _, _ | .expressionStmt _, _ | .declaration _ _, _ | .assignment _ _, _
  | .ifElse _ _ _, _ | .forEach _ _ _, _ | .whileLoop _ _, _ | .returnStmt _, _
  | .field _ _, _ | .source _ _, _ => (check _).skip fun _ => pure trivial

end

end Linewise

end JavaRender.Emission
