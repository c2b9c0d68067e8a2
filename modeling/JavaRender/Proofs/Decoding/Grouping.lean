import JavaRender.Proofs.Decoding.Matching

/-!
Grouped expressions as words. An expression is grouped when operations stand in groups wherever they
are operands or receivers; then an operation is written in three words and every other expression in
one. The texts of the arguments of a call and the name behind a receiver are told apart by this.
-/
namespace JavaRender.Decoding

open Typed Scan Emission

def isOperation : Expr → Bool
  | .binary _ _ _ => true
  | _ => false

mutual

/-- No operation is an operand or a receiver without a group around it. -/
def isGrouped : Expr → Bool
  | .literal _ => true
  | .group e => isGrouped e
  | .binary _ left right =>
    !isOperation left && !isOperation right && isGrouped left && isGrouped right
  | .access _ none => true
  | .access _ (some receiver) => !isOperation receiver && isGrouped receiver
  | .call _ arguments none => areGrouped arguments
  | .call _ arguments (some receiver) =>
    areGrouped arguments && !isOperation receiver && isGrouped receiver

def areGrouped : List Expr → Bool
  | [] => true
  | e :: rest => isGrouped e && areGrouped rest

end

/-- The rules of Java for names without points, with operators from the table only. -/
def plainRules : Rules where
  name s := isName s = true ∧ '.' ∉ s.toList
  type _ := True
  operator op := (Operator.spelling? op).isSome = true

theorem javaRules_of_plain {e : Expr} (h : e.Obeys plainRules) : e.Obeys javaRules := by
  have hname : ∀ s, plainRules.name s → javaRules.name s := fun _ h => h.1
  exact Expr.Obeys.mono hname (fun _ hop => hop) e h

section Names

variable {name : String}

/-- A name without points is one identifier. -/
theorem isIdentifier_of_plain (h : plainRules.name name) : isIdentifier name.toList = true := by
  have hparts := ((Bool.and_eq_true _ _).mp h.1).1
  rw [List.splitOn_eq_singleton h.2] at hparts
  simpa using hparts

theorem exists_first (h : plainRules.name name) :
    ∃ c rest, name.toList = c :: rest ∧ c.isDigit = false ∧ isPart c = true := by
  have hidentifier := isIdentifier_of_plain h
  cases hchars : name.toList with
  | nil =>
    rw [hchars] at hidentifier
    exact absurd hidentifier (by decide)
  | cons c rest =>
    rw [hchars] at hidentifier
    have hboth := (Bool.and_eq_true _ _).mp hidentifier
    have hpart := isPart_of_isIdentifier hidentifier List.mem_cons_self
    exact ⟨c, rest, rfl, by simpa using hboth.1, hpart⟩

theorem exists_last (h : plainRules.name name) :
    ∃ c ∈ name.toList.getLast?, isPart c = true := by
  obtain ⟨first, rest, hchars, -⟩ := exists_first h
  have hne : name.toList ≠ [] := hchars ▸ List.cons_ne_nil first rest
  exact ⟨_, List.getLast?_eq_some_getLast hne,
    isPart_of_isIdentifier (isIdentifier_of_plain h) (List.getLast_mem hne)⟩

/-- A text ends as its last part does. -/
theorem last_append {s t : String} {c : Char} (h : c ∈ t.toList.getLast?) :
    c ∈ (s ++ t).toList.getLast? := by
  rw [String.toList_append, List.getLast?_append, Option.mem_def.mp h]
  rfl

end Names

def path (receiver : Option Expr) (name : String) : String :=
  match receiver with
  | none => name
  | some r => r.text ++ "." ++ name

theorem text_access (var : VarRef) (receiver : Option Expr) :
    (Expr.access var receiver).text = path receiver var.jvmName := by
  cases receiver <;> rfl

theorem text_call (function : FunRef) (arguments : List Expr) (receiver : Option Expr) :
    (Expr.call function arguments receiver).text =
      path receiver function.jvmName ++ "(" ++ ", ".intercalate (exprTexts arguments) ++ ")" := by
  cases receiver with
  | none => rfl
  | some r => simp only [Expr.text, path, String.append_assoc]

structure Plain (e : Expr) : Prop where
  grouped : isGrouped e = true
  obeys : e.Obeys plainRules

/-- An expression that may be an operand or a receiver. -/
structure Single (e : Expr) : Prop extends Plain e where
  single : isOperation e = false

section Parts

variable {op : String} {e left right : Expr} {var : VarRef} {function : FunRef}
  {arguments : List Expr} {receiver : Option Expr}

theorem Plain.binary (h : Plain (.binary op left right)) :
    IsOperator (spelling op) ∧ Single left ∧ Single right := by
  obtain ⟨hgrouped, hop, hleft, hright⟩ := h
  simp only [isGrouped, Bool.and_eq_true, Bool.not_eq_true'] at hgrouped
  obtain ⟨s, hs⟩ := Option.isSome_iff_exists.mp hop
  refine ⟨⟨op, ?_⟩, ⟨⟨hgrouped.1.2, hleft⟩, hgrouped.1.1.1⟩, ⟨⟨hgrouped.2, hright⟩, hgrouped.1.1.2⟩⟩
  rw [spelling, hs, Option.getD_some]

theorem Plain.access (h : Plain (.access var receiver)) :
    plainRules.name var.jvmName ∧ ∀ r ∈ receiver, Single r := by
  obtain ⟨hgrouped, hobeys⟩ := h
  cases receiver with
  | none => exact ⟨hobeys, fun r hr => nomatch hr⟩
  | some r =>
    simp only [isGrouped, Bool.and_eq_true, Bool.not_eq_true'] at hgrouped
    refine ⟨hobeys.1, fun r' hr => ?_⟩
    cases hr
    exact ⟨⟨hgrouped.2, hobeys.2⟩, hgrouped.1⟩

theorem plain_all : ∀ es : List Expr, areGrouped es = true → exprsObey plainRules es →
    ∀ e ∈ es, Plain e
  | [], _, _, _, he => absurd he List.not_mem_nil
  | first :: rest, hgrouped, hobeys, e, he => by
    obtain ⟨hfirst, hrest⟩ := (Bool.and_eq_true _ _).mp hgrouped
    rcases List.mem_cons.mp he with rfl | he
    · exact ⟨hfirst, hobeys.1⟩
    · exact plain_all rest hrest hobeys.2 e he

theorem Plain.call (h : Plain (.call function arguments receiver)) :
    plainRules.name function.jvmName ∧ (∀ e ∈ arguments, Plain e) ∧ ∀ r ∈ receiver, Single r := by
  obtain ⟨hgrouped, hobeys⟩ := h
  cases receiver with
  | none => exact ⟨hobeys.1, plain_all arguments hgrouped hobeys.2, fun r hr => nomatch hr⟩
  | some r =>
    simp only [isGrouped, Bool.and_eq_true, Bool.not_eq_true'] at hgrouped
    refine ⟨hobeys.1, plain_all arguments hgrouped.1.1 hobeys.2.1, fun r' hr => ?_⟩
    cases hr
    exact ⟨⟨hgrouped.2, hobeys.2.2⟩, hgrouped.1.2⟩

theorem Plain.group (h : Plain (.group e)) : Plain e := ⟨h.grouped, h.obeys⟩

end Parts

section Texts

variable {e e' : Expr} {receiver receiver' : Option Expr} {name name' : String}

/-- An expression that may be an operand is one word. -/
theorem solid_single : ∀ e : Expr, Single e → Solid e.text
  | .literal l, _ => (operand_literal l).1
  | .group e, h => (phrase_text e (javaRules_of_plain h.obeys)).enclosable.enclosed
  | .binary _ _ _, h => nomatch h.single
  | .access _ none, h => name_solid h.obeys.1
  | .access var (some r), h => by
    have hr := solid_single r (h.access.2 r rfl)
    have hpoint : Solid "." := Steady.unmarked (notMem_of_all rfl)
    exact (hr.append hpoint).append (name_solid h.access.1.1)
  | .call function arguments none, h => by
    have hobeys := (javaRules_of_plain h.obeys)
    exact (operand_call hobeys.1 (enclosable_texts arguments hobeys.2)).1
  | .call function arguments (some r), h => by
    have hr := solid_single r (h.call.2.2 r rfl)
    have hobeys := javaRules_of_plain h.obeys
    have hpoint : Solid "." := Steady.unmarked (notMem_of_all rfl)
    exact (hr.append hpoint).append
      (operand_call hobeys.1 (enclosable_texts arguments hobeys.2.1)).1

def isEnclosed : Expr → Bool
  | .group _ | .call _ _ _ => true
  | _ => false

def isNamed : Expr → Bool
  | .access _ _ | .call _ _ _ => true
  | _ => false

theorem last_path (receiver : Option Expr) (h : plainRules.name name) :
    ∃ c ∈ (path receiver name).toList.getLast?, isPart c = true := by
  obtain ⟨c, hc, hpart⟩ := exists_last h
  cases receiver with
  | none => exact ⟨c, hc, hpart⟩
  | some r => exact ⟨c, last_append hc, hpart⟩

theorem last_numeral {s : String} (h : ∀ c ∈ s.toList, Numeral.isNumeral c = true)
    (hne : s.toList ≠ []) : ∃ c ∈ s.toList.getLast?, Numeral.isNumeral c = true :=
  ⟨_, List.getLast?_eq_some_getLast hne, h _ (List.getLast_mem hne)⟩

/-- A number, or what ends in a quote or in a letter. -/
theorem last_literal (l : Typed.Literal) :
    ∃ c ∈ l.text.toList.getLast?, Numeral.isNumeral c = true ∨ c ∈ ['"', '\'', 'e', 'l'] := by
  have hnumeral : ∀ {s : String}, (∀ c ∈ s.toList, Numeral.isNumeral c = true) → s.toList ≠ [] →
      ∃ c ∈ s.toList.getLast?, Numeral.isNumeral c = true ∨ c ∈ ['"', '\'', 'e', 'l'] := by
    intro s h hne
    obtain ⟨c, hc, hc'⟩ := last_numeral h hne
    exact ⟨c, hc, .inl hc'⟩
  cases l with
  | string s => exact ⟨'"', last_append (by decide), by decide⟩
  | character c => exact ⟨'\'', last_append (by decide), by decide⟩
  | integer n => exact hnumeral (fun _ hc => Numeral.isNumeral_of_mem_int hc) (Numeral.int_ne_nil n)
  | ordinal k =>
    exact hnumeral (fun _ hc => Numeral.isNumeral_of_mem_nat hc) (Numeral.nat_ne_nil _)
  | decimal d =>
    exact hnumeral (fun _ hc => Numeral.isNumeral_of_mem_decimal hc) (Numeral.decimal_ne_nil d)
  | double x d h =>
    exact hnumeral (fun _ hc => Numeral.isNumeral_of_mem_decimal hc) (Numeral.decimal_ne_nil d)
  | boolean b =>
    have hall : ∀ b, 'e' ∈ (Literal.ofBoolean b).toList.getLast? := by decide
    exact ⟨'e', hall b, by decide⟩
  | nil _ =>
    have hnull : 'l' ∈ "null".toList.getLast? := by decide
    exact ⟨'l', hnull, by decide⟩

/-- The last character tells an enclosed text, and is no comma. -/
theorem last_single (h : Single e) :
    ∃ c ∈ e.text.toList.getLast?, c ≠ ',' ∧ (c = ')' ↔ isEnclosed e = true) := by
  have hclosing : ')' ∈ ")".toList.getLast? := by decide
  cases e with
  | literal l =>
    obtain ⟨c, hc, hlast⟩ := last_literal l
    refine ⟨c, hc, ?_, fun hparen => ?_, fun henclosed => nomatch henclosed⟩
    · rintro rfl
      exact absurd hlast (by decide)
    · subst hparen
      exact absurd hlast (by decide)
  | group e => exact ⟨')', last_append hclosing, by decide, fun _ => rfl, fun _ => rfl⟩
  | binary => exact nomatch h.single
  | access var receiver =>
    obtain ⟨c, hc, hpart⟩ := last_path receiver h.access.1
    rw [text_access]
    refine ⟨c, hc, ?_, fun hparen => ?_, fun henclosed => nomatch henclosed⟩
    · rintro rfl
      exact absurd hpart (by decide)
    · subst hparen
      exact absurd hpart (by decide)
  | call function arguments receiver =>
    rw [text_call]
    exact ⟨')', last_append hclosing, by decide, fun _ => rfl, fun _ => rfl⟩

theorem word_single (h : Single e) : Word e.text := by
  obtain ⟨c, hc, hcomma, -⟩ := last_single h
  exact ⟨solid_single e h, c, hc, hcomma⟩

/-- The words of a grouped expression: an operation has three, any other has one. -/
def words : Expr → List String
  | .binary op left right => [left.text, spelling op, right.text]
  | e => [e.text]

theorem joined_words (e : Expr) : " ".intercalate (words e) = e.text := by
  cases e with
  | binary op left right =>
    simp only [words, Expr.text, String.intercalate_cons_cons, String.intercalate_singleton,
      String.append_assoc]
  | literal | group | access | call => exact String.intercalate_singleton

theorem word_operator {op : String} (h : IsOperator op) : Word op := by
  have hall : ∀ entry ∈ Operator.spellings, entry.2.toList.getLast?.any (· ≠ ',') = true := by
    decide
  obtain ⟨tag, htag⟩ := h
  obtain ⟨before, after, heq, -⟩ := List.lookup_eq_some_iff.mp htag
  obtain ⟨c, hlast, hc⟩ := (Option.any_eq_true _ _).mp (hall (tag, op) (by rw [heq]; simp))
  exact ⟨operator_solid ⟨tag, htag⟩, c, hlast, of_decide_eq_true hc⟩

theorem word_words (h : Plain e) : ∀ w ∈ words e, Word w := by
  intro w hw
  cases e with
  | binary op left right =>
    obtain ⟨hop, hleft, hright⟩ := h.binary
    simp only [words, List.mem_cons, List.not_mem_nil, or_false] at hw
    rcases hw with rfl | rfl | rfl
    · exact word_single hleft
    · exact word_operator hop
    · exact word_single hright
  | literal | group | access | call =>
    rw [List.mem_singleton.mp hw]
    exact word_single ⟨h, rfl⟩

theorem matched_text (h : Plain e) : Matched e.text := by
  rw [← joined_words]
  exact matched_intercalate rfl fun w hw => (word_words h w hw).solid.matched

theorem exprTexts_eq (es : List Expr) :
    exprTexts es = (es.map words).map (" ".intercalate ·) := by
  induction es with
  | nil => rfl
  | cons e rest ih => rw [exprTexts, ih, List.map_cons, List.map_cons, joined_words]

theorem parts_words {es : List Expr} (h : ∀ e ∈ es, Plain e) : Parts (es.map words) := by
  intro ws hws
  obtain ⟨e, he, rfl⟩ := List.mem_map.mp hws
  refine ⟨?_, word_words (h e he)⟩
  cases e <;> exact List.cons_ne_nil _ _

/-- Arguments with the same text are the same texts. -/
theorem arguments_unique {es es' : List Expr} (h : ∀ e ∈ es, Plain e) (h' : ∀ e ∈ es', Plain e)
    (heq : ", ".intercalate (exprTexts es) = ", ".intercalate (exprTexts es')) :
    exprTexts es = exprTexts es' := by
  rw [exprTexts_eq, exprTexts_eq] at heq ⊢
  rw [parts_unique (parts_words h) (parts_words h') heq]

/-- The name behind the last point is not part of the receiver. -/
theorem path_unique (hname : plainRules.name name) (hname' : plainRules.name name')
    (h : path receiver name = path receiver' name') :
    name = name' ∧ receiver.map Expr.text = receiver'.map Expr.text := by
  have hpoint : ∀ (r : Expr) (s : String),
      (r.text ++ "." ++ s).toList = r.text.toList ++ '.' :: s.toList := by
    intro r s
    simp
  cases receiver with
  | none =>
    cases receiver' with
    | none => exact ⟨h, rfl⟩
    | some r' =>
      have hmem : '.' ∈ name.toList := by
        rw [show name = r'.text ++ "." ++ name' from h, hpoint]
        simp
      exact absurd hmem hname.2
  | some r =>
    cases receiver' with
    | none =>
      have hmem : '.' ∈ name'.toList := by
        rw [show name' = r.text ++ "." ++ name from h.symm, hpoint]
        simp
      exact absurd hmem hname'.2
    | some r' =>
      have hchars := congrArg String.toList h
      rw [path, path, hpoint, hpoint] at hchars
      obtain ⟨hreceiver, hnames⟩ := cut_last_unique hname.2 hname'.2 hchars
      exact ⟨String.toList_inj.mp hnames, congrArg some (String.toList_inj.mp hreceiver)⟩

end Texts

end JavaRender.Decoding
