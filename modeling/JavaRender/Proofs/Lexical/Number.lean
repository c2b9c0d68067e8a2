import JavaRender.Proofs.Json.Written

/-!
Number literals of a Java text, and the type that Java gives to each: whole numbers in four bases,
floating-point numbers in two, underscores among their digits and marks of the type behind them. How
large a number may be is not for the grammar to say. Main statement: a number of a document is such
a literal behind its sign, of type int if it is digits alone and of type double if it has a point or
an exponent, and it is one of no other type.
-/
namespace JavaRender.Lexical

open Json (AllDigits Written)

inductive NumberType
  | int | long | float | double

/-- Digits with underscores among them, neither first nor last. -/
inductive Digits (isDigit : Char → Bool) : List Char → Prop
  | last {c : Char} (digit : isDigit c = true) : Digits isDigit [c]
  | more {c : Char} {cs : List Char} (digit : isDigit c = true) (underscores : Nat)
      (rest : Digits isDigit cs) : Digits isDigit (c :: (List.replicate underscores '_' ++ cs))

def isBinary (c : Char) : Bool := c = '0' || c = '1'

def isOctal (c : Char) : Bool := '0' ≤ c && c ≤ '7'

def isHex (c : Char) : Bool := c.isDigit || 'a' ≤ c && c ≤ 'f' || 'A' ≤ c && c ≤ 'F'

/-- A whole number without the mark of its type. A zero in front of more digits makes it octal. -/
inductive Integral : List Char → Prop
  | zero : Integral ['0']
  | decimal {c : Char} {cs : List Char} (nonzero : c ≠ '0')
      (digits : Digits Char.isDigit (c :: cs)) : Integral (c :: cs)
  | octal {cs : List Char} (underscores : Nat) (digits : Digits isOctal cs) :
      Integral ('0' :: (List.replicate underscores '_' ++ cs))
  | hex {base : Char} {cs : List Char} (based : base ∈ ['x', 'X']) (digits : Digits isHex cs) :
      Integral ('0' :: base :: cs)
  | binary {base : Char} {cs : List Char} (based : base ∈ ['b', 'B'])
      (digits : Digits isBinary cs) : Integral ('0' :: base :: cs)

inductive Exponent (marks : List Char) : List Char → Prop
  | intro {mark : Char} {sign cs : List Char} (marked : mark ∈ marks)
      (signed : sign ∈ [[], ['+'], ['-']]) (digits : Digits Char.isDigit cs) :
      Exponent marks (mark :: (sign ++ cs))

def Maybe (part : List Char → Prop) (cs : List Char) : Prop := cs = [] ∨ part cs

/-- A number with a point or an exponent, without the mark of its type. -/
inductive Floating : List Char → Prop
  | pointed {whole places exponent : List Char} (front : Digits Char.isDigit whole)
      (back : Maybe (Digits Char.isDigit) places) (scale : Maybe (Exponent ['e', 'E']) exponent) :
      Floating (whole ++ '.' :: (places ++ exponent))
  | places {places exponent : List Char} (back : Digits Char.isDigit places)
      (scale : Maybe (Exponent ['e', 'E']) exponent) : Floating ('.' :: (places ++ exponent))
  | scientific {whole exponent : List Char} (front : Digits Char.isDigit whole)
      (scale : Exponent ['e', 'E'] exponent) : Floating (whole ++ exponent)
  | hex {base : Char} {whole exponent : List Char} (based : base ∈ ['x', 'X'])
      (front : Digits isHex whole) (scale : Exponent ['p', 'P'] exponent) :
      Floating ('0' :: base :: (whole ++ exponent))
  | hexPointed {base : Char} {whole places exponent : List Char} (based : base ∈ ['x', 'X'])
      (front : Maybe (Digits isHex) whole) (back : Maybe (Digits isHex) places)
      (some : whole ++ places ≠ []) (scale : Exponent ['p', 'P'] exponent) :
      Floating ('0' :: base :: (whole ++ '.' :: (places ++ exponent)))

def floatMarks : List (Char × NumberType) :=
  [('f', .float), ('F', .float), ('d', .double), ('D', .double)]

inductive NumberLiteral : NumberType → List Char → Prop
  | int {cs : List Char} (body : Integral cs) : NumberLiteral .int cs
  | long {mark : Char} {cs : List Char} (body : Integral cs) (marked : mark ∈ ['l', 'L']) :
      NumberLiteral .long (cs ++ [mark])
  | double {cs : List Char} (body : Floating cs) : NumberLiteral .double cs
  | marked {mark : Char} {type : NumberType} {cs : List Char}
      (body : Floating cs ∨ Digits Char.isDigit cs) (marked : (mark, type) ∈ floatMarks) :
      NumberLiteral type (cs ++ [mark])

section Decimals

variable {cs : List Char} {type : NumberType}

theorem digits_of_allDigits (hne : cs ≠ []) (hall : AllDigits cs) : Digits Char.isDigit cs := by
  induction cs with
  | nil => exact absurd rfl hne
  | cons c rest ih =>
    have hc := hall c List.mem_cons_self
    cases rest with
    | nil => exact .last hc
    | cons d others =>
      have hrest := ih (List.cons_ne_nil d others) fun a ha => hall a (List.mem_cons_of_mem c ha)
      exact .more hc 0 hrest

theorem Digits.mem {isDigit : Char → Bool} (h : Digits isDigit cs) {c : Char} (hc : c ∈ cs) :
    isDigit c = true ∨ c = '_' := by
  induction h with
  | last digit => exact .inl (List.mem_singleton.mp hc ▸ digit)
  | more digit underscores _ ih =>
    rcases List.mem_cons.mp hc with rfl | hc
    · exact .inl digit
    · exact (List.mem_append.mp hc).elim (fun hc => .inr (List.eq_of_mem_replicate hc)) ih

theorem isDigit_of_isOctal {c : Char} (h : isOctal c = true) : c.isDigit = true := by
  simp only [isOctal, Char.isDigit, Bool.and_eq_true, decide_eq_true_eq] at h ⊢
  exact ⟨h.1, UInt32.le_trans h.2 (by decide)⟩

/-- A whole number of decimal digits and no other character is written with digits alone. -/
theorem Integral.allDigits (h : Integral cs)
    (hplain : ∀ c ∈ cs, c.isDigit = true ∨ c ∈ ['-', '+', '.', 'e', 'E']) : AllDigits cs := by
  -- the underscore and the bases that no such number has
  have hnone : ∀ c ∈ '_' :: (['x', 'X'] ++ ['b', 'B']), c ∉ cs := by
    have hforeign : ∀ c ∈ '_' :: (['x', 'X'] ++ ['b', 'B']),
        ¬ (c.isDigit = true ∨ c ∈ ['-', '+', '.', 'e', 'E']) := by simp
    exact fun c hc hmem => hforeign c hc (hplain c hmem)
  cases h with
  | zero => exact fun c hc => List.mem_singleton.mp hc ▸ rfl
  | decimal _ digits =>
    intro c hc
    refine (digits.mem hc).resolve_right ?_
    rintro rfl
    exact hnone '_' (by decide) hc
  | octal underscores digits =>
    intro c hc
    have hline : c ≠ '_' := by
      rintro rfl
      exact hnone '_' (by decide) hc
    rcases List.mem_cons.mp hc with rfl | hc
    · rfl
    · rcases List.mem_append.mp hc with hc | hc
      · exact absurd (List.eq_of_mem_replicate hc) hline
      · exact isDigit_of_isOctal ((digits.mem hc).resolve_right hline)
  | hex based _ =>
    have hbase := hnone _ (List.mem_cons_of_mem '_' (List.mem_append_left _ based))
    exact absurd (List.mem_cons_of_mem '0' List.mem_cons_self) hbase
  | binary based _ =>
    have hbase := hnone _ (List.mem_cons_of_mem '_' (List.mem_append_right _ based))
    exact absurd (List.mem_cons_of_mem '0' List.mem_cons_self) hbase

theorem Exponent.not_allDigits {front : List Char}
    (h : Exponent ['e', 'E'] cs) : ¬ AllDigits (front ++ cs) := by
  intro hall
  cases h with
  | @intro mark sign ds marked _ _ =>
    have hmark := hall mark (List.mem_append_right _ List.mem_cons_self)
    have hnone : ∀ c ∈ ['e', 'E'], c.isDigit = false := by simp
    rw [hnone mark marked] at hmark
    cases hmark

/-- A floating-point number has a point, an exponent or a base. -/
theorem Floating.not_allDigits (h : Floating cs) : ¬ AllDigits cs := by
  have hbase : ∀ c ∈ ['x', 'X'], c.isDigit = false := by simp
  intro hall
  cases h with
  | pointed => cases hall '.' (List.mem_append_right _ List.mem_cons_self)
  | places => cases hall '.' List.mem_cons_self
  | scientific _ scale => exact scale.not_allDigits hall
  | hex based | hexPointed based =>
    have hdigit := hall _ (List.mem_cons_of_mem _ List.mem_cons_self)
    rw [hbase _ based] at hdigit
    cases hdigit

/-- Among the numbers without letters but those of an exponent, the digits alone are of type int and
the others of type double. -/
theorem numberLiteral_plain (h : NumberLiteral type cs)
    (hplain : ∀ c ∈ cs, c.isDigit = true ∨ c ∈ ['-', '+', '.', 'e', 'E']) :
    type = .int ∧ AllDigits cs ∨ type = .double ∧ ¬ AllDigits cs := by
  have hlong : ∀ mark ∈ ['l', 'L'],
      ¬ (mark.isDigit = true ∨ mark ∈ ['-', '+', '.', 'e', 'E']) := by simp
  have hfloat : ∀ pair ∈ floatMarks,
      ¬ (pair.1.isDigit = true ∨ pair.1 ∈ ['-', '+', '.', 'e', 'E']) := by simp [floatMarks]
  cases h with
  | int body => exact .inl ⟨rfl, body.allDigits hplain⟩
  | double body => exact .inr ⟨rfl, body.not_allDigits⟩
  | long _ marked =>
    exact absurd (hplain _ (List.mem_append_right _ List.mem_cons_self)) (hlong _ marked)
  | marked _ marked =>
    exact absurd (hplain _ (List.mem_append_right _ List.mem_cons_self)) (hfloat _ marked)

end Decimals

theorem integral_whole {ds : List Char} (h : Json.IsWhole ds) : Integral ds := by
  cases h with
  | zero => exact .zero
  | digits nonzero all => exact .decimal nonzero (digits_of_allDigits (List.cons_ne_nil _ _) all)

theorem exponent_chars (e : Json.Exponent) : Exponent ['e', 'E'] e.chars := by
  refine .intro ?_ ?_ (digits_of_allDigits e.nonempty e.numeric)
  · rcases e.marked with h | h <;> rw [h] <;> decide
  · rcases e.signed with h | h | h <;> rw [h] <;> decide

/-- A number of a document that has a point or an exponent is a floating-point number. -/
theorem floating_magnitude {w : Written} (h : w.isPlain = false) : Floating w.magnitude := by
  have hfront := digits_of_allDigits w.isWhole.ne_nil w.isWhole.allDigits
  have hscale : w.exponent = none ∧ w.exponentChars = [] ∨
      w.exponent ≠ none ∧ Exponent ['e', 'E'] w.exponentChars := by
    rw [Written.exponentChars]
    cases w.exponent with
    | none => exact .inl ⟨rfl, rfl⟩
    | some e => exact .inr ⟨Option.some_ne_none e, exponent_chars e⟩
  rw [Written.magnitude, Written.placesChars]
  by_cases hplaces : w.places = []
  · rw [if_pos hplaces, List.nil_append]
    obtain ⟨hnone, -⟩ | ⟨-, hexponent⟩ := hscale
    · rw [w.isPlain_iff.mpr ⟨hplaces, hnone⟩] at h
      cases h
    · exact .scientific hfront hexponent
  · rw [if_neg hplaces, List.cons_append]
    exact .pointed hfront (.inr (digits_of_allDigits hplaces w.numeric))
      (hscale.imp And.right And.right)

/-- A number of a document is, behind its sign, a Java literal of exactly one type. -/
theorem numberLiteral_magnitude (w : Written) (type : NumberType) :
    NumberLiteral type w.magnitude ↔ type = if w.isPlain then .int else .double := by
  have hall : AllDigits w.magnitude ↔ w.isPlain = true := by
    rw [← w.all_magnitude, List.all_eq_true]
    exact Iff.rfl
  have hplain : ∀ c ∈ w.magnitude, c.isDigit = true ∨ c ∈ ['-', '+', '.', 'e', 'E'] :=
    fun c hc => w.mem_chars (List.mem_append_right _ hc)
  constructor
  · intro hliteral
    rcases numberLiteral_plain hliteral hplain with ⟨rfl, hdigits⟩ | ⟨rfl, hother⟩
    · rw [if_pos (hall.mp hdigits)]
    · rw [if_neg (mt hall.mpr hother)]
  · rintro rfl
    by_cases hdigits : w.isPlain = true
    · obtain ⟨hplaces, hexponent⟩ := w.isPlain_iff.mp hdigits
      have hmagnitude : w.magnitude = w.whole := by
        simp [Written.magnitude, Written.placesChars, Written.exponentChars, hplaces, hexponent]
      rw [if_pos hdigits, hmagnitude]
      exact .int (integral_whole w.isWhole)
    · rw [if_neg hdigits]
      exact .double (floating_magnitude (Bool.eq_false_iff.mpr hdigits))

end JavaRender.Lexical
