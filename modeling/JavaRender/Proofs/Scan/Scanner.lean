import JavaRender.Expression.Literal
import Mathlib.Tactic.SplitIfs

/-!
A scanner over Java text that skips literals. It knows whether it stands in a literal and how many
brackets of one kind are open. A text passes when the scanner takes it character by character and
finds no line feed, no carriage return in a literal and, outside of literals, no sheltered character
where no bracket is open. Passing composes, so a text passes when its parts do.
-/
namespace JavaRender.Scan

inductive Mode where
  | code
  | inside (quote : Char)
  | escaped (quote : Char)
deriving DecidableEq, Repr

def Mode.next : Mode → Char → Mode
  | code, c => if c = '"' ∨ c = '\'' then inside c else code
  | inside quote, c =>
    if c = '\\' then escaped quote else if c = quote then code else inside quote
  | escaped quote, _ => inside quote

/-- A kind of brackets, with the characters that may stand only where one of them is open. -/
structure Brackets where
  opening : Char
  closing : Char
  sheltered : List Char
  distinct : opening ≠ closing ∧ opening ∉ sheltered
  known : (opening :: closing :: sheltered).all (['(', ')', '\x7b', '\x7d', ' '].contains ·) = true

def braces : Brackets where
  opening := '\x7b'
  closing := '\x7d'
  sheltered := ['\x7d']
  distinct := by decide
  known := rfl

def parens : Brackets where
  opening := '('
  closing := ')'
  sheltered := [')', ' ']
  distinct := by decide
  known := rfl

structure State where
  mode : Mode
  depth : Int
deriving DecidableEq, Repr

section Scanner

variable (b : Brackets)

def Brackets.count (depth : Int) (c : Char) : Int :=
  if c = b.opening then depth + 1 else if c = b.closing then depth - 1 else depth

def Brackets.next (s : State) (c : Char) : State :=
  ⟨s.mode.next c, if s.mode = .code then b.count s.depth c else s.depth⟩

def Brackets.scan (s : State) (text : List Char) : State := text.foldl b.next s

def Brackets.Admits (s : State) (c : Char) : Prop :=
  c ≠ '\n' ∧ (c = '\r' → s.mode = .code) ∧ (s.mode = .code → c ∈ b.sheltered → 0 < s.depth)

/-- A text takes the scanner from one place to another, and each of its characters may stand where
it does. -/
inductive Passes : State → List Char → State → Prop
  | nil (s : State) : Passes s [] s
  | cons {s s' : State} {c : Char} {rest : List Char} (first : b.Admits s c)
      (others : Passes (b.next s c) rest s') : Passes s (c :: rest) s'

def Brackets.special : List Char := '"' :: '\'' :: '\n' :: b.opening :: b.closing :: b.sheltered

end Scanner

theorem Brackets.mem_known (b : Brackets) {c : Char}
    (h : c ∈ b.opening :: b.closing :: b.sheltered) : c ∈ ['(', ')', '\x7b', '\x7d', ' '] :=
  List.contains_iff_mem.mp (List.all_eq_true.mp b.known c h)

theorem Brackets.unquoted (b : Brackets) {c : Char}
    (h : c ∈ b.opening :: b.closing :: b.sheltered) : c ≠ '"' ∧ c ≠ '\'' ∧ c ≠ '\n' := by
  have hknown := b.mem_known h
  simp only [List.mem_cons, List.not_mem_nil, or_false] at hknown
  rcases hknown with rfl | rfl | rfl | rfl | rfl <;> decide

def marks : List Char := ['"', '\'', '\n', '(', ')', '\x7b', '\x7d', ' ']

theorem Brackets.mem_marks (b : Brackets) {c : Char} (h : c ∈ b.special) : c ∈ marks := by
  rcases List.mem_cons.mp h with rfl | h
  · simp [marks]
  · rcases List.mem_cons.mp h with rfl | h
    · simp [marks]
    · rcases List.mem_cons.mp h with rfl | h
      · simp [marks]
      · have hknown := b.mem_known h
        simp only [List.mem_cons, List.not_mem_nil, or_false] at hknown
        rcases hknown with rfl | rfl | rfl | rfl | rfl <;> simp [marks]

theorem notMem_of_all {text forbidden : List Char} (h : text.all (!forbidden.contains ·) = true) :
    ∀ c ∈ text, c ∉ forbidden := by
  intro c hc hmem
  have hfree := List.all_eq_true.mp h c hc
  rw [List.contains_iff_mem.mpr hmem] at hfree
  exact absurd hfree Bool.false_ne_true

section Passes

variable {b : Brackets} {s s' s'' : State} {first second text : List Char} {c : Char}

theorem scan_append (s : State) (first second : List Char) :
    b.scan s (first ++ second) = b.scan (b.scan s first) second :=
  List.foldl_append

theorem Passes.append (hfirst : Passes b s first s') (hsecond : Passes b s' second s'') :
    Passes b s (first ++ second) s'' := by
  induction hfirst with
  | nil => exact hsecond
  | cons hc _ ih => exact .cons hc (ih hsecond)

theorem Passes.scan_eq (h : Passes b s text s') : b.scan s text = s' := by
  induction h with
  | nil => rfl
  | cons _ _ ih => exact ih

/-- Both parts of a text that passes do. -/
theorem Passes.split (h : Passes b s (first ++ second) s') :
    Passes b s first (b.scan s first) ∧ Passes b (b.scan s first) second s' := by
  induction first generalizing s with
  | nil => exact ⟨.nil s, h⟩
  | cons c rest ih =>
    cases h with
    | cons hc hrest => exact ⟨.cons hc (ih hrest).1, (ih hrest).2⟩

/-- A text is cut in one way only at the first character of a kind. -/
theorem cut_unique {first second rest rest' : List Char} (hfirst : c ∉ first) (hsecond : c ∉ second)
    (h : first ++ c :: rest = second ++ c :: rest') : first = second ∧ rest = rest' := by
  induction first generalizing second with
  | nil =>
    cases second with
    | nil => exact ⟨rfl, (List.cons.inj h).2⟩
    | cons x others => exact absurd ((List.cons.inj h).1 ▸ List.mem_cons_self) hsecond
  | cons x others ih =>
    cases second with
    | nil => exact absurd ((List.cons.inj h).1 ▸ List.mem_cons_self) hfirst
    | cons y others' =>
      obtain ⟨rfl, htail⟩ := List.cons.inj h
      have hx := fun hmem => hfirst (List.mem_cons_of_mem x hmem)
      have hy := fun hmem => hsecond (List.mem_cons_of_mem x hmem)
      obtain ⟨rfl, hrest⟩ := ih hx hy htail
      exact ⟨rfl, hrest⟩

theorem Passes.newline_notMem (h : Passes b s text s') : '\n' ∉ text := by
  induction h with
  | nil => exact List.not_mem_nil
  | cons hc _ ih => exact List.not_mem_cons_of_ne_of_not_mem (Ne.symm hc.1) ih

/-- Under one more bracket a text passes too. -/
theorem Passes.raise (h : Passes b s text s') :
    Passes b ⟨s.mode, s.depth + 1⟩ text ⟨s'.mode, s'.depth + 1⟩ := by
  induction h with
  | nil s => exact .nil _
  | @cons s s' c rest hc _ ih =>
    have hnext : b.next ⟨s.mode, s.depth + 1⟩ c = ⟨(b.next s c).mode, (b.next s c).depth + 1⟩ := by
      simp only [Brackets.next, Brackets.count, State.mk.injEq, true_and]
      split_ifs <;> omega
    refine .cons ⟨hc.1, hc.2.1, fun hmode hmem => ?_⟩ ?_
    · have hopen := hc.2.2 hmode hmem
      show 0 < s.depth + 1
      omega
    · rw [hnext]
      exact ih

/-- Where closing brackets are sheltered, none is closed that is not open. -/
theorem Passes.depth_nonneg (hb : b.closing ∈ b.sheltered) (h : Passes b s text s')
    (hs : 0 ≤ s.depth) : 0 ≤ s'.depth := by
  induction h with
  | nil s => exact hs
  | @cons s s' c rest hc _ ih =>
    refine ih ?_
    simp only [Brackets.next, Brackets.count]
    split_ifs with hmode hopen hclose
    · omega
    · have hmem : c ∈ b.sheltered := hclose ▸ hb
      have := hc.2.2 hmode hmem
      omega
    · exact hs
    · exact hs

/-- No line ends in a literal of a text that passes. -/
theorem Passes.code_of_break (h : Passes b s (first ++ c :: second) s') (hc : c ∈ ['\n', '\r']) :
    (b.scan s first).mode = .code := by
  have hadmits : b.Admits (b.scan s first) c := by
    cases h.split.2 with
    | cons hfirst _ => exact hfirst
  rcases List.mem_cons.mp hc with rfl | hc
  · exact absurd rfl hadmits.1
  · exact hadmits.2.1 (List.mem_singleton.mp hc)

theorem next_plain (h : c ∉ b.special) (depth : Int) :
    b.next ⟨.code, depth⟩ c = ⟨.code, depth⟩ := by
  simp only [Brackets.special, List.mem_cons, not_or] at h
  obtain ⟨hdouble, hsingle, -, hopening, hclosing, -⟩ := h
  simp only [Brackets.next, Mode.next, Brackets.count, hdouble, hsingle, hopening, hclosing,
    or_self, if_false, if_true]

theorem admits_plain (h : c ∉ b.special) (depth : Int) : b.Admits ⟨.code, depth⟩ c := by
  simp only [Brackets.special, List.mem_cons, not_or] at h
  exact ⟨h.2.2.1, fun _ => rfl, fun _ hc => absurd hc h.2.2.2.2.2⟩

theorem Passes.opening (depth : Int) : Passes b ⟨.code, depth⟩ [b.opening] ⟨.code, depth + 1⟩ := by
  obtain ⟨hdouble, hsingle, hbreak⟩ := b.unquoted List.mem_cons_self
  have hnext : b.next ⟨.code, depth⟩ b.opening = ⟨.code, depth + 1⟩ := by
    simp only [Brackets.next, Mode.next, Brackets.count, hdouble, hsingle, or_self, if_false,
      if_true]
  refine .cons ⟨hbreak, fun _ => rfl, fun _ hc => absurd hc b.distinct.2⟩ ?_
  rw [hnext]
  exact .nil _

theorem Passes.closing {depth : Int} (h : 0 ≤ depth) :
    Passes b ⟨.code, depth + 1⟩ [b.closing] ⟨.code, depth⟩ := by
  obtain ⟨hdouble, hsingle, hbreak⟩ :=
    b.unquoted (List.mem_cons_of_mem _ List.mem_cons_self)
  have hnext : b.next ⟨.code, depth + 1⟩ b.closing = ⟨.code, depth⟩ := by
    simp only [Brackets.next, Mode.next, Brackets.count, hdouble, hsingle, b.distinct.1.symm,
      or_self, if_false, if_true, Int.add_sub_cancel]
  refine .cons ⟨hbreak, fun _ => rfl, fun _ _ => ?_⟩ ?_
  · show 0 < depth + 1
    omega
  · rw [hnext]
    exact .nil _

end Passes

/-- Wherever at least `floor` brackets are open outside of literals, a text passes and leaves the
scanner as it was. -/
def Steady (b : Brackets) (floor : Int) (text : List Char) : Prop :=
  ∀ depth, floor ≤ depth → Passes b ⟨.code, depth⟩ text ⟨.code, depth⟩

namespace Steady

variable {b : Brackets} {floor : Int} {first second text : List Char}

theorem nil : Steady b floor [] := fun _ _ => .nil _

theorem append (hfirst : Steady b floor first) (hsecond : Steady b floor second) :
    Steady b floor (first ++ second) :=
  fun depth h => (hfirst depth h).append (hsecond depth h)

theorem text_append {s t : String} (hs : Steady b floor s.toList) (ht : Steady b floor t.toList) :
    Steady b floor (s ++ t).toList := by
  rw [String.toList_append]
  exact hs.append ht

theorem text_intercalate {separator : String} (hseparator : Steady b floor separator.toList)
    {parts : List String} (h : ∀ s ∈ parts, Steady b floor s.toList) :
    Steady b floor (separator.intercalate parts).toList := by
  induction parts with
  | nil => exact nil
  | cons s rest ih =>
    have hs := h s List.mem_cons_self
    have hrest := ih fun t ht => h t (List.mem_cons_of_mem _ ht)
    cases rest with
    | nil => rwa [String.intercalate_singleton]
    | cons t rest =>
      rw [String.intercalate_cons_cons]
      exact (hs.text_append hseparator).text_append hrest

theorem mono {floor' : Int} (h : Steady b floor text) (hle : floor ≤ floor') :
    Steady b floor' text :=
  fun depth hdepth => h depth (Int.le_trans hle hdepth)

theorem plain (h : ∀ c ∈ text, c ∉ b.special) : Steady b floor text := by
  intro depth _
  induction text with
  | nil => exact .nil _
  | cons c rest ih =>
    have hc := h c List.mem_cons_self
    refine .cons (admits_plain hc _) ?_
    rw [next_plain hc]
    exact ih fun c hc => h c (List.mem_cons_of_mem _ hc)

/-- Characters without a meaning to any scanner pass every one. -/
theorem unmarked (h : ∀ c ∈ text, c ∉ marks) : Steady b floor text :=
  plain fun c hc hspecial => h c hc (b.mem_marks hspecial)

theorem newline_notMem (h : Steady b floor text) : '\n' ∉ text :=
  (h floor (Int.le_refl floor)).newline_notMem

/-- Between brackets a text stands one bracket deeper. -/
theorem between (h : Steady b (floor + 1) text) (hfloor : 0 ≤ floor) :
    Steady b floor ([b.opening] ++ text ++ [b.closing]) := by
  intro depth hdepth
  have htext := h (depth + 1) (by omega)
  exact ((Passes.opening depth).append htext).append (Passes.closing (by omega))

end Steady

end JavaRender.Scan
