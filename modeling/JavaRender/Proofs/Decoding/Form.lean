import JavaRender.Proofs.Decoding.Grouping
import JavaRender.Proofs.Number.Layout

/-!
Expressions read back from their text. The form of an expression is what its text can tell: the kind
of each node, the receivers, the arguments, the names, and operators and literals as they are
written; main statement: grouped expressions with the same text have the same form.
-/
namespace JavaRender.Decoding

open Typed Scan

inductive Form where
  | literal (text : String)
  | group (inner : Form)
  | operation (operator : String) (left right : Form)
  | access (name : String) (receiver : Option Form)
  | call (name : String) (arguments : List Form) (receiver : Option Form)

mutual

def form : Expr → Form
  | .literal l => .literal l.text
  | .group e => .group (form e)
  | .binary op left right => .operation (spelling op) (form left) (form right)
  | .access var none => .access var.jvmName none
  | .access var (some receiver) => .access var.jvmName (some (form receiver))
  | .call function arguments none => .call function.jvmName (forms arguments) none
  | .call function arguments (some receiver) =>
    .call function.jvmName (forms arguments) (some (form receiver))

def forms : List Expr → List Form
  | [] => []
  | e :: rest => form e :: forms rest

end

section Kinds

variable {e e' : Expr} {receiver receiver' : Option Expr} {name name' : String}

/-- A number begins with a digit or a sign and has a digit behind its point, so it is no name and
no member. -/
theorem numeral_ne_path {s : String} {c : Char} {rest : List Char} (hs : s.toList = c :: rest)
    (hfirst : c.isDigit = true ∨ c = '-') (hpointed : Numeral.Pointed s.toList)
    (hname : plainRules.name name) : s ≠ path receiver name := by
  intro h
  obtain ⟨d, others, hchars, hdigit, hpart⟩ := exists_first hname
  cases receiver with
  | none =>
    obtain ⟨rfl, -⟩ := List.cons.inj (hs.symm.trans ((congrArg String.toList h).trans hchars))
    rcases hfirst with hfirst | rfl
    · exact absurd hfirst (by rw [hdigit]; exact Bool.false_ne_true)
    · exact absurd hpart (by decide)
  | some r =>
    have hcut : s.toList = r.text.toList ++ '.' :: name.toList := by
      rw [h, path]
      simp
    rcases hpointed with hpoint | ⟨whole, x, tail, hwhole, hx, htail⟩
    · exact absurd (hcut ▸ List.mem_append_right _ List.mem_cons_self) hpoint
    · obtain ⟨-, hlast⟩ := cut_last_unique htail hname.2 (hwhole.symm.trans hcut)
      obtain ⟨rfl, -⟩ := List.cons.inj (hlast.trans hchars)
      exact absurd hx (by rw [hdigit]; exact Bool.false_ne_true)

theorem natural_ne_path (n : Nat) (hname : plainRules.name name) :
    toString n ≠ path receiver name := by
  obtain ⟨c, rest, hs⟩ := List.exists_cons_of_ne_nil (Numeral.nat_ne_nil n)
  have hc : c.isDigit = true := by
    have hmem : c ∈ (toString n).toList := hs ▸ List.mem_cons_self
    rw [Nat.toString_eq_repr, Nat.toList_repr] at hmem
    exact Nat.isDigit_of_mem_toDigits (by decide) (by decide) hmem
  exact numeral_ne_path hs (.inl hc) (.inl (Numeral.point_notMem_nat n)) hname

theorem integer_ne_path (n : Int) (hname : plainRules.name name) :
    toString n ≠ path receiver name := by
  by_cases hn : 0 ≤ n
  · have hnat : toString n = toString n.toNat := by
      rw [Int.toString_eq_repr, Int.repr_eq_if, if_pos hn, Nat.toString_eq_repr]
    rw [hnat]
    exact natural_ne_path n.toNat hname
  · have hs : (toString n).toList = '-' :: (-n).toNat.repr.toList := by
      rw [Int.toString_eq_repr, Int.repr_eq_if, if_neg hn, String.toList_append]
      rfl
    exact numeral_ne_path hs (.inr rfl) (.inl (Numeral.point_notMem_int n)) hname

theorem decimal_ne_path (d : Decimal) (hname : plainRules.name name) :
    d.text ≠ path receiver name := by
  obtain ⟨c, rest, hs, hc⟩ := d.magnitude_digit
  have hpointed := Numeral.pointed_decimal d
  by_cases hneg : d.negative = true
  · have hchars : d.text.toList = '-' :: d.magnitudeText := by
      rw [Decimal.text, String.toList_ofList, Decimal.chars, if_pos hneg]
    exact numeral_ne_path hchars (.inr rfl) hpointed hname
  · have hchars : d.text.toList = c :: rest := by
      rw [Decimal.text, String.toList_ofList, Decimal.chars, if_neg hneg, hs]
    exact numeral_ne_path hchars (.inl hc) hpointed hname

/-- A word that is no name and has no point. -/
theorem word_ne_path {s : String} (hs : isName s = false) (hpoint : '.' ∉ s.toList)
    (hname : plainRules.name name) : s ≠ path receiver name := by
  rintro rfl
  cases receiver with
  | none => exact Bool.false_ne_true ((show isName name = false from hs) ▸ hname.1)
  | some r => exact hpoint (by simp [path])

/-- No literal looks like a name or a member. -/
theorem literal_ne_path (l : Typed.Literal) (hname : plainRules.name name) :
    l.text ≠ path receiver name := by
  have hquote : ∀ {s : String} {c : Char}, c ∈ s.toList.getLast? → isPart c = false →
      s ≠ path receiver name := by
    rintro s c hc hforeign rfl
    obtain ⟨d, hd, hpart⟩ := last_path receiver hname
    cases Option.mem_unique hc hd
    rw [hforeign] at hpart
    exact Bool.false_ne_true hpart
  cases l with
  | string s => exact hquote (c := '"') (last_append (by decide)) (by decide)
  | character c => exact hquote (c := '\'') (last_append (by decide)) (by decide)
  | integer n => exact integer_ne_path n hname
  | ordinal k => exact natural_ne_path k.number hname
  | decimal d => exact decimal_ne_path d hname
  | double x d h => exact decimal_ne_path d hname
  | boolean b =>
    have hall : ∀ b, isName (Literal.ofBoolean b) = false ∧ '.' ∉ (Literal.ofBoolean b).toList := by
      decide
    exact word_ne_path (hall b).1 (hall b).2 hname
  | nil _ => exact word_ne_path (s := "null") (by decide) (by decide) hname

/-- The text of an operation has blanks in places where no single expression has any. -/
theorem operation_of_text (h : Plain e) (h' : Plain e') (ht : e.text = e'.text)
    (hop : isOperation e = true) : isOperation e' = true := by
  cases e with
  | literal | group | access | call => cases hop
  | binary op left right =>
    refine (Bool.eq_false_or_eq_true _).resolve_right fun hsingle => ?_
    have hsolid := solid_single e' ⟨h', hsingle⟩
    have hcut : e'.text.toList =
        left.text.toList ++ ' ' :: (spelling op ++ " " ++ right.text).toList := by
      rw [← ht, Expr.text]
      simp
    rw [Solid, hcut] at hsolid
    exact not_solid_cut (solid_single left h.binary.2.1) hsolid

theorem enclosed_of_text (h : Single e) (h' : Single e') (ht : e.text = e'.text) :
    isEnclosed e = isEnclosed e' := by
  obtain ⟨c, hc, -, henclosed⟩ := last_single h
  obtain ⟨c', hc', -, henclosed'⟩ := last_single h'
  rw [ht] at hc
  cases Option.mem_unique hc hc'
  exact Bool.eq_iff_iff.mpr (henclosed.symm.trans henclosed')

/-- In front of its parenthesis a call has a name, a group has nothing. -/
theorem matched_path (hname : plainRules.name name) (h : ∀ r ∈ receiver, Single r) :
    Matched (path receiver name) := by
  have hpoint : Solid "." := Steady.unmarked (notMem_of_all rfl)
  cases receiver with
  | none => exact (name_solid hname.1).matched
  | some r =>
    exact (((solid_single r (h r rfl)).append hpoint).append (name_solid hname.1)).matched

theorem matched_arguments {es : List Expr} (h : ∀ e ∈ es, Plain e) :
    Matched (", ".intercalate (exprTexts es)) := by
  refine matched_intercalate rfl fun s hs => ?_
  rw [exprTexts_eq, List.map_map] at hs
  obtain ⟨e, he, rfl⟩ := List.mem_map.mp hs
  rw [Function.comp_apply, joined_words]
  exact matched_text (h e he)

theorem path_ne_empty (hname : plainRules.name name) : path receiver name ≠ "" := by
  intro h
  obtain ⟨c, hc, -⟩ := last_path receiver hname
  rw [h] at hc
  exact absurd hc (by simp)

theorem named_of_text (h : Single e) (h' : Single e') (ht : e.text = e'.text)
    (hnamed : isNamed e = true) : isNamed e' = true := by
  have henclosed := enclosed_of_text h h' ht
  cases e with
  | literal | group | binary => cases hnamed
  | access var receiver =>
    cases e' with
    | access | call => rfl
    | group => cases henclosed
    | binary => exact nomatch h'.single
    | literal l =>
      rw [text_access] at ht
      exact absurd ht.symm (literal_ne_path l h.access.1)
  | call function arguments receiver =>
    cases e' with
    | access | call => rfl
    | literal => cases henclosed
    | binary => exact nomatch h'.single
    | group inner =>
      obtain ⟨hname, harguments, hreceiver⟩ := h.call
      have hgroup : ("" ++ "(" ++ inner.text ++ ")") = (Expr.group inner).text := by
        rw [String.empty_append]
        rfl
      rw [text_call, ← hgroup] at ht
      have hnothing : Matched "" := Steady.nil
      obtain ⟨hempty, -⟩ := enclosed_unique (matched_path hname hreceiver) hnothing
        (matched_arguments harguments) (matched_text h'.group) ht
      exact absurd hempty (path_ne_empty hname)

theorem operation_kind (h : isOperation e = true) : isEnclosed e = false ∧ isNamed e = false := by
  cases e with
  | binary => exact ⟨rfl, rfl⟩
  | literal | group | access | call => cases h

/-- Expressions with the same text are of the same kind. -/
theorem alike (h : Plain e) (h' : Plain e') (ht : e.text = e'.text) :
    isOperation e = isOperation e' ∧ isEnclosed e = isEnclosed e' ∧ isNamed e = isNamed e' := by
  have hop : isOperation e = isOperation e' :=
    Bool.eq_iff_iff.mpr ⟨operation_of_text h h' ht, operation_of_text h' h ht.symm⟩
  refine ⟨hop, ?_⟩
  cases hkind : isOperation e with
  | true =>
    obtain ⟨henclosed, hnamed⟩ := operation_kind hkind
    obtain ⟨henclosed', hnamed'⟩ := operation_kind (hop ▸ hkind)
    exact ⟨henclosed.trans henclosed'.symm, hnamed.trans hnamed'.symm⟩
  | false =>
    have hsingle : Single e := ⟨h, hkind⟩
    have hsingle' : Single e' := ⟨h', hop ▸ hkind⟩
    have hnamed := named_of_text hsingle hsingle' ht
    have hnamed' := named_of_text hsingle' hsingle ht.symm
    exact ⟨enclosed_of_text hsingle hsingle' ht, Bool.eq_iff_iff.mpr ⟨hnamed, hnamed'⟩⟩

/-- A blank ends the first operand of an operation, and the operator behind it. -/
theorem operands_unique {op op' : String} {left right left' right' : Expr}
    (h : Plain (.binary op left right)) (h' : Plain (.binary op' left' right'))
    (ht : (Expr.binary op left right).text = (Expr.binary op' left' right').text) :
    left.text = left'.text ∧ spelling op = spelling op' ∧ right.text = right'.text := by
  have hwords : words (.binary op left right) = words (.binary op' left' right') := by
    rw [← joined_words, ← joined_words (.binary op' left' right')] at ht
    exact words_unique (fun w hw => (word_words h w hw).solid)
      (fun w hw => (word_words h' w hw).solid) (List.cons_ne_nil _ _) (List.cons_ne_nil _ _) ht
  simpa [words] using hwords

/-- The parenthesis in front of the arguments tells a call from its arguments. -/
theorem call_unique {function function' : FunRef} {arguments arguments' : List Expr}
    (h : Plain (.call function arguments receiver))
    (h' : Plain (.call function' arguments' receiver'))
    (ht : (Expr.call function arguments receiver).text =
      (Expr.call function' arguments' receiver').text) :
    path receiver function.jvmName = path receiver' function'.jvmName ∧
      exprTexts arguments = exprTexts arguments' := by
  obtain ⟨hname, harguments, hreceiver⟩ := h.call
  obtain ⟨hname', harguments', hreceiver'⟩ := h'.call
  rw [text_call, text_call] at ht
  obtain ⟨hpath, hlist⟩ := enclosed_unique (matched_path hname hreceiver)
    (matched_path hname' hreceiver') (matched_arguments harguments)
    (matched_arguments harguments') ht
  exact ⟨hpath, arguments_unique harguments harguments' hlist⟩

theorem literal_of_text {l : Typed.Literal} (h : Plain (.literal l)) (h' : Plain e')
    (ht : (Expr.literal l).text = e'.text) : ∃ l', e' = .literal l' := by
  obtain ⟨hop, henclosed, hnamed⟩ := alike h h' ht
  cases e' with
  | literal l' => exact ⟨l', rfl⟩
  | group | call => cases henclosed
  | binary => cases hop
  | access => cases hnamed

theorem group_of_text (h : Plain (.group e)) (h' : Plain e')
    (ht : (Expr.group e).text = e'.text) : ∃ inner, e' = .group inner ∧ e.text = inner.text := by
  obtain ⟨hop, henclosed, hnamed⟩ := alike h h' ht
  cases e' with
  | group inner =>
    exact ⟨inner, rfl, (String.append_right_inj "(").mp ((String.append_left_inj ")").mp ht)⟩
  | literal | access => cases henclosed
  | binary => cases hop
  | call => cases hnamed

theorem binary_of_text {op : String} {left right : Expr} (h : Plain (.binary op left right))
    (h' : Plain e') (ht : (Expr.binary op left right).text = e'.text) :
    ∃ op' left' right', e' = .binary op' left' right' ∧
      left.text = left'.text ∧ spelling op = spelling op' ∧ right.text = right'.text := by
  obtain ⟨hop, -, -⟩ := alike h h' ht
  cases e' with
  | binary op' left' right' => exact ⟨op', left', right', rfl, operands_unique h h' ht⟩
  | literal | group | access | call => cases hop

theorem access_of_text {var : VarRef} (h : Plain (.access var receiver)) (h' : Plain e')
    (ht : (Expr.access var receiver).text = e'.text) :
    ∃ var' receiver', e' = .access var' receiver' ∧ var.jvmName = var'.jvmName ∧
      receiver.map Expr.text = receiver'.map Expr.text := by
  obtain ⟨hop, henclosed, hnamed⟩ := alike h h' ht
  cases e' with
  | access var' receiver' =>
    rw [text_access, text_access] at ht
    exact ⟨var', receiver', rfl, path_unique h.access.1 h'.access.1 ht⟩
  | literal => cases hnamed
  | group | call => cases henclosed
  | binary => cases hop

theorem call_of_text {function : FunRef} {arguments : List Expr}
    (h : Plain (.call function arguments receiver)) (h' : Plain e')
    (ht : (Expr.call function arguments receiver).text = e'.text) :
    ∃ function' arguments' receiver', e' = .call function' arguments' receiver' ∧
      exprTexts arguments = exprTexts arguments' ∧ function.jvmName = function'.jvmName ∧
      receiver.map Expr.text = receiver'.map Expr.text := by
  obtain ⟨hop, henclosed, hnamed⟩ := alike h h' ht
  cases e' with
  | call function' arguments' receiver' =>
    obtain ⟨hpath, htexts⟩ := call_unique h h' ht
    exact ⟨function', arguments', receiver', rfl, htexts,
      path_unique h.call.1 h'.call.1 hpath⟩
  | literal | access => cases henclosed
  | group => cases hnamed
  | binary => cases hop

end Kinds

mutual

/-- Grouped expressions with the same text have the same form. -/
theorem form_unique : ∀ e e' : Expr, Plain e → Plain e' → e.text = e'.text → form e = form e'
  | .literal l, e', h, h', ht => by
    obtain ⟨l', rfl⟩ := literal_of_text h h' ht
    exact congrArg Form.literal ht
  | .group e, e', h, h', ht => by
    obtain ⟨inner, rfl, hinner⟩ := group_of_text h h' ht
    exact congrArg Form.group (form_unique e inner h.group h'.group hinner)
  | .binary op left right, e', h, h', ht => by
    obtain ⟨op', left', right', rfl, hleft, hspelling, hright⟩ := binary_of_text h h' ht
    rw [form, form, hspelling,
      form_unique left left' h.binary.2.1.toPlain h'.binary.2.1.toPlain hleft,
      form_unique right right' h.binary.2.2.toPlain h'.binary.2.2.toPlain hright]
  | .access var none, e', h, h', ht => by
    obtain ⟨var', receiver', rfl, hname, hreceiver⟩ := access_of_text h h' ht
    cases Option.map_eq_none_iff.mp hreceiver.symm
    rw [form, form, hname]
  | .access var (some r), e', h, h', ht => by
    obtain ⟨var', receiver', rfl, hname, hreceiver⟩ := access_of_text h h' ht
    obtain ⟨r', rfl, hr⟩ := Option.map_eq_some_iff.mp hreceiver.symm
    rw [form, form, hname,
      form_unique r r' (h.access.2 r rfl).toPlain (h'.access.2 r' rfl).toPlain hr.symm]
  | .call function arguments none, e', h, h', ht => by
    obtain ⟨function', arguments', receiver', rfl, htexts, hname, hreceiver⟩ :=
      call_of_text h h' ht
    cases Option.map_eq_none_iff.mp hreceiver.symm
    rw [form, form, hname, forms_unique arguments arguments' h.call.2.1 h'.call.2.1 htexts]
  | .call function arguments (some r), e', h, h', ht => by
    obtain ⟨function', arguments', receiver', rfl, htexts, hname, hreceiver⟩ :=
      call_of_text h h' ht
    obtain ⟨r', rfl, hr⟩ := Option.map_eq_some_iff.mp hreceiver.symm
    rw [form, form, hname, forms_unique arguments arguments' h.call.2.1 h'.call.2.1 htexts,
      form_unique r r' (h.call.2.2 r rfl).toPlain (h'.call.2.2 r' rfl).toPlain hr.symm]

theorem forms_unique : ∀ es es' : List Expr, (∀ e ∈ es, Plain e) → (∀ e ∈ es', Plain e) →
    exprTexts es = exprTexts es' → forms es = forms es'
  | [], [], _, _, _ => rfl
  | [], _ :: _, _, _, ht => nomatch ht
  | _ :: _, [], _, _, ht => nomatch ht
  | e :: rest, e' :: rest', h, h', ht => by
    obtain ⟨hfirst, hrest⟩ := List.cons.inj ht
    rw [forms, forms,
      form_unique e e' (h e List.mem_cons_self) (h' e' List.mem_cons_self) hfirst,
      forms_unique rest rest' (fun x hx => h x (List.mem_cons_of_mem e hx))
        (fun x hx => h' x (List.mem_cons_of_mem e' hx)) hrest]

end

def rendered (emitter : Emitter) (e : Expr) : Except Tree.Fault Tree :=
  (Emitter.noting (Expression.render e.toTree) emitter).1

theorem rendered_eq (emitter : Emitter) (e : Expr) : rendered emitter e = .ok (.text e.text) :=
  congrArg Prod.fst (e.notes_render emitter.notices)

/-- Fully grouped expressions for which emitters give the same text have the same form: the same
kinds of nodes, with receivers and as many arguments in the same places, the same names, and
operators and literals written the same way, whatever the strings and characters hold. -/
theorem form_of_rendered {e e' : Expr} (he : isGrouped e = true) (he' : isGrouped e' = true)
    (hobeys : e.Obeys plainRules) (hobeys' : e'.Obeys plainRules) {emitter emitter' : Emitter}
    (h : rendered emitter e = rendered emitter' e') : form e = form e' := by
  rw [rendered_eq, rendered_eq, Except.ok.injEq, Tree.text.injEq] at h
  exact form_unique e e' ⟨he, hobeys⟩ ⟨he', hobeys'⟩ h

/-- A call whose first argument looks like two, with an operator and a number of choice. -/
def callWith (tag : String) (five : Typed.Literal) : Expr :=
  .call ⟨"f", "f", ⟨"Integer", "int"⟩, []⟩
    [.binary tag (.literal (.string "\", f(1) + (")) (.group (.binary "MULTIPLY"
      (.access ⟨"e", "E5", ⟨"Integer", "int"⟩⟩ (some (.literal (.integer 1)))) (.literal five))),
      .literal (.decimal ⟨true, 3, 7⟩)]
    (some (.access ⟨"a", "a", ⟨"Any", "Object"⟩⟩ none))

theorem form_of_calls :
    rendered { terminator := "\n" } (callWith "ADD" (.integer 5)) =
        rendered { terminator := "\r\n" } (callWith "+" (.decimal ⟨false, 5, 0⟩)) ∧
      form (callWith "ADD" (.integer 5)) = form (callWith "+" (.decimal ⟨false, 5, 0⟩)) := by
  have hobeys : ∀ tag l, (Operator.spelling? tag).isSome = true →
      (callWith tag l).Obeys plainRules := by
    intro tag l htag
    simp only [callWith, Expr.Obeys, exprsObey, plainRules, htag]
    decide
  have htext : (callWith "ADD" (.integer 5)).text =
      (callWith "+" (.decimal ⟨false, 5, 0⟩)).text := by
    decide
  have hrendered : rendered { terminator := "\n" } (callWith "ADD" (.integer 5)) =
      rendered { terminator := "\r\n" } (callWith "+" (.decimal ⟨false, 5, 0⟩)) := by
    rw [rendered_eq, rendered_eq, htext]
  exact ⟨hrendered,
    form_of_rendered rfl rfl (hobeys _ _ (by decide)) (hobeys _ _ (by decide)) hrendered⟩

end JavaRender.Decoding
