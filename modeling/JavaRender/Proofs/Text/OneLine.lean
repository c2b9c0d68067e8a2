import JavaRender.Proofs.Number.Numeral
import JavaRender.Tree.Display

/-!
Texts without a line feed. Numbers have none, and quoted texts and bytes escape theirs; main
statement: every value is shown on one line, and spelled on one unless it is a text with more.
-/
namespace JavaRender

def OneLine (s : String) : Prop := '\n' ∉ s.toList

instance (s : String) : Decidable (OneLine s) := inferInstanceAs (Decidable ('\n' ∉ s.toList))

namespace OneLine

variable {s t : String}

theorem append (hs : OneLine s) (ht : OneLine t) : OneLine (s ++ t) := by
  rw [OneLine, String.toList_append, List.mem_append]
  exact not_or.mpr ⟨hs, ht⟩

theorem ofList {cs : List Char} (h : '\n' ∉ cs) : OneLine (String.ofList cs) := by
  rwa [OneLine, String.toList_ofList]

theorem join {parts : List String} (h : ∀ s ∈ parts, OneLine s) : OneLine (String.join parts) := by
  induction parts with
  | nil => decide
  | cons s rest ih =>
    rw [String.join_cons]
    exact (h s List.mem_cons_self).append (ih fun s hs => h s (List.mem_cons_of_mem _ hs))

theorem intercalate (hs : OneLine s) {parts : List String} (h : ∀ t ∈ parts, OneLine t) :
    OneLine (s.intercalate parts) := by
  induction parts with
  | nil => exact List.not_mem_nil
  | cons t rest ih =>
    have ht := h t List.mem_cons_self
    have hrest := ih fun t ht => h t (List.mem_cons_of_mem _ ht)
    cases rest with
    | nil => rwa [String.intercalate_singleton]
    | cons u rest =>
      rw [String.intercalate_cons_cons]
      exact (ht.append hs).append hrest

section Numbers

theorem of_numeral (h : ∀ c ∈ s.toList, Numeral.isNumeral c = true) : OneLine s :=
  fun hmem => absurd (h _ hmem) (by decide)

theorem decimal (d : Decimal) : OneLine d.text :=
  of_numeral fun _ => Numeral.isNumeral_of_mem_decimal

theorem int (n : Int) : OneLine (toString n) := of_numeral fun _ => Numeral.isNumeral_of_mem_int

theorem nat (n : Nat) : OneLine (toString n) := of_numeral fun _ => Numeral.isNumeral_of_mem_nat

theorem extended (d : Decimal.Extended) : OneLine d.text := by
  cases d with
  | finite d => exact decimal d
  | infinity negative => cases negative <;> decide
  | nan negative signaling payload =>
    have hsign : OneLine (if negative then "-" else "") := by cases negative <;> decide
    have hname : OneLine (if signaling then "sNaN" else "NaN") := by cases signaling <;> decide
    refine (hsign.append hname).append ?_
    split
    · decide
    · exact nat payload

theorem newline_notMem_toDigits {base : Nat} (hbase : 1 < base) (n : Nat) :
    '\n' ∉ Nat.toDigits base n := by
  induction n using Nat.strongRecOn with
  | ind n ih =>
    have hlast (d : Nat) : '\n' ∉ [Nat.digitChar d] := by
      rw [List.mem_singleton]
      exact (Nat.digitChar_ne '\n' rfl).symm
    rw [Nat.toDigits_eq_if hbase]
    split
    · exact hlast n
    · next hn =>
      rw [List.mem_append, not_or]
      exact ⟨ih (n / base) (Nat.div_lt_self (by omega) hbase), hlast _⟩

theorem newline_notMem_padded {base : Nat} (hbase : 1 < base) (width n : Nat) :
    '\n' ∉ Digit.padded base width n := by
  rw [Digit.padded, List.mem_append, not_or]
  refine ⟨fun hzero => ?_, newline_notMem_toDigits hbase n⟩
  exact absurd (List.eq_of_mem_replicate hzero) (by decide)

/-- Digits are laid out with zeros, a point and the parts of an exponent. -/
theorem newline_notMem_layOut {ds : List Char} (h : '\n' ∉ ds) (leading : Int) :
    '\n' ∉ Shortest.layOut ds leading := by
  have hpadded : '\n' ∉ Digit.padded 10 2 leading.natAbs :=
    newline_notMem_padded (by decide) 2 leading.natAbs
  have htake (count : Nat) : '\n' ∉ ds.take count := fun hmem => h (List.mem_of_mem_take hmem)
  have hdrop (count : Nat) : '\n' ∉ ds.drop count := fun hmem => h (List.mem_of_mem_drop hmem)
  unfold Shortest.layOut
  split
  · split
    · simp [h]
    · dsimp only
      split
      · simp [h]
      · simp [htake, hdrop]
  · have hexponent : '\n' ∉ 'e' :: (if leading < 0 then '-' else '+') ::
        Digit.padded 10 2 leading.natAbs := by
      split <;> simp [hpadded]
    rw [List.mem_append, not_or]
    refine ⟨?_, hexponent⟩
    rcases ds with _ | ⟨first, _ | ⟨second, rest⟩⟩
    · exact h
    · exact h
    · simpa using h

theorem double (x : Binary64) : OneLine (Shortest.text x) := by
  refine ofList ?_
  cases x with
  | nan => decide
  | infinity negative => cases negative <;> decide
  | finite negative m e =>
    have hbody : '\n' ∉ if m = 0 then ['0', '.', '0'] else
        Shortest.layOut (Shortest.digits m e).1 (Shortest.digits m e).2 := by
      split
      · decide
      · refine newline_notMem_layOut (fun hmem => ?_) _
        have hstripped := List.mem_reverse.mp hmem
        have hdigits := List.mem_reverse.mp ((List.dropWhile_sublist _).subset hstripped)
        exact newline_notMem_toDigits (by decide) _ hdigits
    cases negative with
    | false => exact hbody
    | true => exact List.not_mem_cons_of_ne_of_not_mem (by decide) hbody

end Numbers

section Quotes

theorem newline_notMem_hexEscape (n : Nat) : '\n' ∉ Quoted.hexEscape n := by
  have hpadded (width : Nat) : '\n' ∉ Digit.padded 16 width n :=
    newline_notMem_padded (by decide) width n
  unfold Quoted.hexEscape
  split
  · simp [hpadded]
  · split <;> simp [hpadded]

theorem newline_notMem_escapeChar {quote : Char} (hquote : quote ≠ '\n') (c : Char) :
    '\n' ∉ Quoted.escapeChar quote c := by
  have hescaped {d : Char} (hd : d ≠ '\n') : '\n' ∉ ['\\', d] := by
    simp [Ne.symm hd]
  unfold Quoted.escapeChar
  split
  · next hc =>
    simp only [Bool.or_eq_true, decide_eq_true_eq] at hc
    rcases hc with rfl | rfl
    · exact hescaped hquote
    · decide
  split
  · decide
  · next hc =>
    split
    · decide
    · split
      · decide
      · split
        · simpa using Ne.symm hc
        · exact newline_notMem_hexEscape _

theorem mark_ne_newline (cs : List Char) : Quoted.mark cs ≠ '\n' := by
  unfold Quoted.mark
  split <;> decide

/-- Between two marks stand escaped parts. -/
theorem newline_notMem_marked {α : Type} {quote : Char} (hquote : quote ≠ '\n') {parts : List α}
    {escape : α → List Char} (hescape : ∀ a, '\n' ∉ escape a) :
    '\n' ∉ quote :: parts.flatMap escape ++ [quote] := by
  intro hmem
  rcases List.mem_append.mp hmem with hfront | hlast
  · rcases List.mem_cons.mp hfront with hfirst | hpart
    · exact hquote hfirst.symm
    · obtain ⟨a, -, ha⟩ := List.mem_flatMap.mp hpart
      exact hescape a ha
  · exact hquote (List.mem_singleton.mp hlast).symm

theorem quoted (s : String) : OneLine (Quoted.text s) :=
  ofList (newline_notMem_marked (mark_ne_newline _)
    (newline_notMem_escapeChar (mark_ne_newline _)))

theorem quotedBytes (bs : List UInt8) : OneLine (Quoted.bytes bs) := by
  have hmark := mark_ne_newline (bs.map fun b => Char.ofNat b.toNat)
  have hescape (b : UInt8) : '\n' ∉ Quoted.escapeByte (Quoted.mark (bs.map fun b =>
      Char.ofNat b.toNat)) b := by
    unfold Quoted.escapeByte
    dsimp only
    split
    · exact newline_notMem_escapeChar hmark _
    · exact newline_notMem_hexEscape _
  refine ofList (List.not_mem_cons_of_ne_of_not_mem (by decide) ?_)
  exact newline_notMem_marked hmark hescape

end Quotes

section Displays

variable {t : Tree}

theorem className (t : Tree) : OneLine t.className := by
  cases t with
  | sequence fixed items =>
    have hnames : OneLine "tuple" ∧ OneLine "list" := by decide
    cases fixed with
    | true => exact hnames.1
    | false => exact hnames.2
  | _ =>
    simp only [Tree.className]
    decide

theorem slotNames (t : Tree) : ∀ name ∈ t.slots.map (·.1), OneLine name := by
  cases t <;> simp only [Tree.slots, List.map_cons, List.map_nil] <;> decide

/-- A value with slots is shown as its class with all of them. -/
theorem display_eq_showSlots (h : t.slots ≠ []) :
    t.display = Tree.showSlots t.className (t.slots.map fun slot => (slot.1, slot.2.display)) := by
  cases t with
  | absent | boolean | integer | decimal | double | text | bytes | kind | sequence =>
    exact absurd rfl h
  | _ => rfl

theorem sizeOf_slot : ∀ slot ∈ t.slots, sizeOf slot.2 < sizeOf t := by
  cases t <;> simp [Tree.slots] <;> omega

theorem showSlots {owner : String} (howner : OneLine owner) {parts : List (String × String)}
    (h : ∀ part ∈ parts, OneLine part.1 ∧ OneLine part.2) :
    OneLine (Tree.showSlots owner parts) := by
  have hequals : OneLine "=" := by decide
  unfold Tree.showSlots
  refine ((howner.append (by decide)).append (intercalate (by decide) fun s hs => ?_)).append
    (by decide)
  obtain ⟨part, hpart, rfl⟩ := List.mem_map.mp hs
  exact ((h part hpart).1.append hequals).append (h part hpart).2

theorem showItems (fixed : Bool) {shown : List String} (h : ∀ s ∈ shown, OneLine s) :
    OneLine (Tree.showItems fixed shown) := by
  have hshown : OneLine (", ".intercalate shown) := intercalate (by decide) h
  have hopen : OneLine "(" ∧ OneLine "[" := by decide
  have hclose : OneLine ")" ∧ OneLine "]" ∧ OneLine ",)" := by decide
  unfold Tree.showItems
  split
  · split
    · next one => exact (hopen.1.append (h one List.mem_cons_self)).append hclose.2.2
    · exact (hopen.1.append hshown).append hclose.1
  · exact (hopen.2.append hshown).append hclose.2.1

mutual

theorem display (t : Tree) : OneLine t.display := by
  by_cases hslots : t.slots = []
  · cases t with
    | absent => decide
    | boolean b => cases b <;> decide
    | integer n => exact int n
    | decimal d => exact (append (by decide) (extended d)).append (by decide)
    | double x => exact double x
    | text s => exact quoted s
    | bytes bs => exact quotedBytes bs
    | kind k => cases k <;> decide
    | sequence fixed items => exact showItems fixed (displayAll items)
    | _ => cases hslots
  · rw [display_eq_showSlots hslots]
    refine showSlots (className t) fun part hpart => ?_
    obtain ⟨slot, hslot, rfl⟩ := List.mem_map.mp hpart
    have hsize := sizeOf_slot slot hslot
    exact ⟨slotNames t _ (List.mem_map_of_mem hslot), display slot.2⟩
termination_by sizeOf t

theorem displayAll (ts : List Tree) : ∀ s ∈ Tree.displayAll ts, OneLine s := by
  cases ts with
  | nil => exact List.forall_mem_nil _
  | cons t rest => exact List.forall_mem_cons.mpr ⟨display t, displayAll rest⟩
termination_by sizeOf ts

end

end Displays

end OneLine

def Tree.texts : Tree → List String
  | .text s => [s]
  | _ => []

def Tree.OnOneLine (t : Tree) : Prop := ∀ s ∈ t.texts, OneLine s

theorem OneLine.onOneLine {s : String} (h : OneLine s) : (Tree.text s).OnOneLine :=
  List.forall_mem_singleton.mpr h

theorem Tree.OnOneLine.spelling {t : Tree} (h : t.OnOneLine) (s : String)
    (hs : t.spelling? = .ok s) : OneLine s := by
  have hdisplay (hshown : t.display? = .ok s) : OneLine s := by
    unfold Tree.display? at hshown
    split at hshown
    · cases hshown
    · cases hshown
      exact .display t
  cases t with
  | text s' =>
    cases hs
    exact h s List.mem_cons_self
  | decimal d =>
    cases hs
    exact .extended d
  | kind k =>
    cases hs
    exact .nat k.number
  | _ => exact hdisplay hs

end JavaRender
