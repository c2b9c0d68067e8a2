import JavaRender.Proofs.Layout.Outline
import JavaRender.Proofs.Scan.Scanner

/-!
The bodies of a statement found in its lines. The header line ends with its last parenthesis and a
few marks that tell which bodies are empty; lines of a body begin with a blank and closing lines do
not, so the bodies and the lines behind them are found in one way.
-/
namespace JavaRender.Decoding

open Layout Scan

section Lines

variable {header header' : String} {front front' back back' rest rest' : List String}

/-- Lines one depth deeper end where a line has no blank in front. -/
theorem deeper_cut {line line' : String} (hline : ¬ " ".toList <+: line.toList)
    (hline' : ¬ " ".toList <+: line'.toList)
    (h : deeper front ++ line :: rest = deeper front' ++ line' :: rest') :
    front = front' ∧ line = line' ∧ rest = rest' := by
  have hblank : ∀ s : String, " ".toList <+: ("    " ++ s).toList := by
    intro s
    rw [String.toList_append]
    exact (by decide : " ".toList <+: "    ".toList).trans (List.prefix_append _ _)
  induction front generalizing front' with
  | nil =>
    cases front' with
    | nil => exact ⟨rfl, List.cons.inj h⟩
    | cons first others => exact absurd ((List.cons.inj h).1 ▸ hblank first) hline
  | cons first others ih =>
    cases front' with
    | nil => exact absurd ((List.cons.inj h).1 ▸ hblank first) hline'
    | cons first' others' =>
      obtain ⟨hfirst, hothers⟩ := List.cons.inj h
      obtain ⟨rfl, htail⟩ := ih hothers
      rw [(String.append_right_inj "    ").mp hfirst]
      exact ⟨rfl, htail⟩

def opening : List String → List String → String
  | [], [] => " \x7b\x7d"
  | [], _ :: _ => " \x7b\x7d else \x7b"
  | _ :: _, _ => " \x7b"

def behind : List String → List String → List String
  | [], [] => []
  | [], line :: rest => deeper (line :: rest) ++ ["\x7d"]
  | first :: others, [] => deeper (first :: others) ++ ["\x7d"]
  | first :: others, line :: rest =>
    deeper (first :: others) ++ "\x7d else \x7b" :: (deeper (line :: rest) ++ ["\x7d"])

theorem branched_eq (header : String) (front back : List String) :
    branched header front back = (header ++ opening front back) :: behind front back := by
  cases front <;> cases back <;> simp [branched, braced, opening, behind]

theorem braced_eq (header : String) (front : List String) :
    braced header front = branched header front [] := by
  cases front <;> rfl

theorem opening_chars (front back : List String) :
    ')' ∉ (opening front back).toList ∧ '\n' ∉ (opening front back).toList := by
  have hall : ∀ s ∈ [" \x7b\x7d", " \x7b\x7d else \x7b", " \x7b"],
      ')' ∉ s.toList ∧ '\n' ∉ s.toList := by
    decide
  cases front <;> cases back <;> exact hall _ (by simp [opening])

/-- The opening tells which bodies are empty, and the lines behind it tell the others. -/
theorem behind_unique (hopening : opening front back = opening front' back')
    (h : behind front back ++ rest = behind front' back' ++ rest') :
    front = front' ∧ back = back' ∧ rest = rest' := by
  have hclose : ¬ " ".toList <+: "\x7d".toList := by decide
  have helse : ¬ " ".toList <+: "\x7d else \x7b".toList := by decide
  rcases front with _ | ⟨first, others⟩ <;> rcases back with _ | ⟨line, lines⟩ <;>
    rcases front' with _ | ⟨first', others'⟩ <;> rcases back' with _ | ⟨line', lines'⟩ <;>
    simp [opening] at hopening
  · exact ⟨rfl, rfl, h⟩
  · simp only [behind, List.append_assoc, List.singleton_append] at h
    obtain ⟨hback, -, hrest⟩ := deeper_cut hclose hclose h
    exact ⟨rfl, hback, hrest⟩
  · simp only [behind, List.append_assoc, List.singleton_append] at h
    obtain ⟨hfront, -, hrest⟩ := deeper_cut hclose hclose h
    exact ⟨hfront, rfl, hrest⟩
  · simp only [behind, List.append_assoc, List.cons_append] at h
    exact absurd (deeper_cut hclose helse h).2.1 (by decide)
  · simp only [behind, List.append_assoc, List.cons_append] at h
    exact absurd (deeper_cut helse hclose h).2.1 (by decide)
  · simp only [behind, List.append_assoc, List.cons_append] at h
    obtain ⟨hfront, -, hbehind⟩ := deeper_cut helse helse h
    obtain ⟨hback, -, hrest⟩ := deeper_cut hclose hclose hbehind
    exact ⟨hfront, hback, hrest⟩

/-- The header ends with the last parenthesis of its line. -/
theorem header_unique
    (h : header ++ ")" ++ opening front back = header' ++ ")" ++ opening front' back') :
    header = header' ∧ opening front back = opening front' back' := by
  have hparen : ")".toList = [')'] := by decide
  have hreversed := congrArg (fun s => s.toList.reverse) h
  simp only [String.toList_append, hparen, List.reverse_append, List.reverse_singleton,
    List.singleton_append] at hreversed
  have hfirst := (opening_chars front back).1
  have hsecond := (opening_chars front' back').1
  rw [← List.mem_reverse] at hfirst hsecond
  obtain ⟨hopening, hheader⟩ := cut_unique hfirst hsecond hreversed
  exact ⟨String.toList_inj.mp (List.reverse_inj.mp hheader),
    String.toList_inj.mp (List.reverse_inj.mp hopening)⟩

/-- No header line ends with a semicolon. -/
theorem opening_ne_semicolon (text : String) : header ++ opening front back ≠ text ++ ";" := by
  have hends : ∃ start last, opening front back = start ++ String.singleton last ∧ last ≠ ';' := by
    cases front with
    | nil =>
      cases back with
      | nil => exact ⟨" \x7b", '\x7d', rfl, by decide⟩
      | cons => exact ⟨" \x7b\x7d else ", '\x7b', rfl, by decide⟩
    | cons => exact ⟨" ", '\x7b', rfl, by decide⟩
  obtain ⟨start, last, hopening, hlast⟩ := hends
  intro h
  rw [hopening, ← String.append_assoc] at h
  have hchars : (header ++ start).toList ++ [last] = text.toList ++ [';'] := by
    simpa using congrArg String.toList h
  have hend := (List.append_inj' hchars rfl).2
  exact hlast (List.cons.inj hend).1

end Lines

section Unbroken

def Unbroken (lines : List String) : Prop := ∀ line ∈ lines, '\n' ∉ line.toList

theorem unbroken_cons {line : String} {rest : List String} :
    Unbroken (line :: rest) ↔ '\n' ∉ line.toList ∧ Unbroken rest := List.forall_mem_cons

theorem unbroken_append {first second : List String} :
    Unbroken (first ++ second) ↔ Unbroken first ∧ Unbroken second := List.forall_mem_append

theorem unbroken_closing : Unbroken ["\x7d"] := by
  intro line hline
  rw [List.mem_singleton.mp hline]
  decide

theorem Unbroken.deeper {lines : List String} (h : Unbroken lines) : Unbroken (deeper lines) := by
  have hblanks : '\n' ∉ "    ".toList := by decide
  intro line hline
  obtain ⟨inner, hinner, rfl⟩ := List.mem_map.mp hline
  rw [String.toList_append, List.mem_append, not_or]
  exact ⟨hblanks, h inner hinner⟩

theorem unbroken_branched {header : String} {front back : List String}
    (hheader : '\n' ∉ header.toList) (hfront : Unbroken front) (hback : Unbroken back) :
    Unbroken (branched header front back) := by
  have helse : '\n' ∉ "\x7d else \x7b".toList := by decide
  rw [branched_eq, unbroken_cons, String.toList_append, List.mem_append, not_or]
  refine ⟨⟨hheader, (opening_chars front back).2⟩, ?_⟩
  cases front with
  | nil =>
    cases back with
    | nil => exact fun _ hline => absurd hline List.not_mem_nil
    | cons => exact unbroken_append.mpr ⟨hback.deeper, unbroken_closing⟩
  | cons =>
    cases back with
    | nil => exact unbroken_append.mpr ⟨hfront.deeper, unbroken_closing⟩
    | cons =>
      have hlast := unbroken_append.mpr ⟨hback.deeper, unbroken_closing⟩
      exact unbroken_append.mpr ⟨hfront.deeper, unbroken_cons.mpr ⟨helse, hlast⟩⟩

end Unbroken

end JavaRender.Decoding
