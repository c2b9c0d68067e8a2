import JavaRender.Log.Record
import JavaRender.Proofs.Text.Lines

/-!
Messages of several lines under the name of a level. Main statement: without the codes of its
colour such a text has one row for each line of the message, and in every row the line stands
unchanged in the same column, behind the level in the first row and behind blanks in the others.
-/
namespace JavaRender.Log

variable {width : Nat} {name message : String}

section Colours

inductive Codes : List Char → Prop where
  | none : Codes []
  | next (digits : List Char) {rest : List Char} (hdigits : digits.all Char.isDigit = true)
      (hrest : Codes rest) : Codes (['\x1b', '['] ++ digits ++ 'm' :: rest)

theorem codes_colour (name : String) : Codes (colour name).toList := by
  unfold colour
  split_ifs
  · exact .next ['3', '6'] rfl .none
  · exact .next ['3', '2'] rfl .none
  · exact .next ['3', '3'] rfl .none
  · exact .next ['3', '1'] rfl .none
  · exact .next ['3', '5'] rfl (.next ['1'] rfl .none)
  · exact .none

theorem codes_colourOff : Codes colourOff.toList := .next ['0'] rfl .none

def without? (code : String) (column : Nat) (text : List Char) : Option (List Char) :=
  if code.toList <+: text.drop column then
    some (text.take column ++ text.drop (column + code.length))
  else none

/-- A text under the name of a level without its two codes: the one that turns the colour on behind
the opening bracket, and the one that turns it off in front of the closing bracket. -/
def uncoloured? (width : Nat) (name : String) (text : List Char) : Option (List Char) :=
  (without? (colour name) 1 text).bind (without? colourOff (width + 1))

theorem without?_append {code : String} {column : Nat} {front : List Char}
    (hfront : front.length = column) (rest : List Char) :
    without? code column (front ++ (code.toList ++ rest)) = some (front ++ rest) := by
  have hdrop : (front ++ (code.toList ++ rest)).drop column = code.toList ++ rest :=
    List.drop_left' hfront
  have hcode : code.toList <+: (front ++ (code.toList ++ rest)).drop column := by
    rw [hdrop]
    exact List.prefix_append _ _
  rw [without?, if_pos hcode, List.take_left' hfront, ← List.drop_drop, hdrop,
    List.drop_left' String.length_toList]

end Colours

/-- What stands in front of the lines of a message: the padded level in brackets in the first row,
blanks in the others. -/
def gutter (width : Nat) (name : String) : Nat → List Char
  | 0 => '[' :: name.toList ++ List.replicate (width - name.length) ' ' ++ [']', ' ']
  | _ + 1 => List.replicate (width + 3) ' '

theorem length_gutter (hname : name.length ≤ width) (i : Nat) :
    (gutter width name i).length = width + 3 := by
  cases i with
  | zero =>
    simp only [gutter, List.length_append, List.length_cons, List.length_nil, List.length_replicate,
      String.length_toList]
    omega
  | succ i => exact List.length_replicate

theorem newline_notMem_gutter (hbreak : '\n' ∉ name.toList) (i : Nat) :
    '\n' ∉ gutter width name i := by
  cases i with
  | zero => simp [gutter, hbreak]
  | succ i => simp [gutter]

/-- Without its codes a text begins with the padded level in brackets. -/
theorem uncoloured?_headed (hname : name.length ≤ width) :
    uncoloured? width name (headed width name message).toList =
      some (gutter width name 0 ++ message.toList) := by
  have hlevel : (['['] ++ (padded width name).toList).length = width + 1 := by
    simp only [padded, String.toList_append, String.toList_ofList, List.length_append,
      List.length_replicate, String.length_toList, List.length_singleton]
    omega
  have htext : (headed width name message).toList = ['['] ++ ((colour name).toList ++
      ((padded width name).toList ++ (colourOff.toList ++ ("] ".toList ++ message.toList)))) := by
    simp only [headed, String.toList_append, List.append_assoc]
    rfl
  rw [uncoloured?, htext, without?_append List.length_singleton, Option.bind_some,
    ← List.append_assoc, without?_append hlevel]
  simp [gutter, padded]

section Rows

variable {indent : List Char} {lines : List (List Char)}

/-- What stands between lines goes to the front of the rows behind the line feeds. -/
theorem append_intercalate (front line : List Char) (others : List (List Char)) :
    front ++ ('\n' :: indent).intercalate (line :: others) =
      ['\n'].intercalate ((front ++ line) :: others.map (indent ++ ·)) := by
  induction others generalizing front line with
  | nil => simp only [List.map_nil, List.intercalate_singleton]
  | cons next rest ih =>
    calc front ++ ('\n' :: indent).intercalate (line :: next :: rest)
        = front ++ line ++ ['\n'] ++ (indent ++ ('\n' :: indent).intercalate (next :: rest)) := by
          simp only [List.intercalate_cons_cons, List.append_assoc, List.cons_append,
            List.nil_append]
      _ = front ++ line ++ ['\n'] ++
            ['\n'].intercalate ((indent ++ next) :: rest.map (indent ++ ·)) := by rw [ih]
      _ = ['\n'].intercalate ((front ++ line) :: (next :: rest).map (indent ++ ·)) := by
          rw [List.map_cons, List.intercalate_cons_cons]

/-- The rows of a message: its lines, each with what stands in front of it. -/
theorem gutter_append_intercalate (hne : lines ≠ []) :
    gutter width name 0 ++ ('\n' :: margin width).intercalate lines =
      ['\n'].intercalate (lines.mapIdx fun i line => gutter width name i ++ line) := by
  cases lines with
  | nil => exact absurd rfl hne
  | cons line others =>
    have hothers : others.mapIdx (fun i line => gutter width name (i + 1) ++ line) =
        others.map (margin width ++ ·) :=
      List.mapIdx_eq_iff.mpr fun _ => List.getElem?_map
    rw [append_intercalate, List.mapIdx_cons, hothers]

end Rows

theorem format?_eq (width : Nat) (name message : String) :
    format? width name message = some (headed width name (align width message)) := by
  rw [format?, if_neg (by omega), Int.toNat_natCast]
  rfl

theorem toList_align (hmessage : '\n' ∈ message.toList) :
    (align width message).toList =
      ('\n' :: margin width).intercalate (Line.split message.toList) := by
  rw [align, if_pos (List.contains_iff_mem.mpr hmessage), String.toList_ofList]

/-- A message of several lines has a text at every width that the name of its level does not
exceed. Without its two codes, of which one selects the colour of the level, that text has one row
for each line of the message, whatever ended it: the line unchanged behind `width + 3` characters,
which are the padded level in brackets in the first row and blanks in the others. -/
theorem format_aligned (hname : name.length ≤ width) (hbreak : '\n' ∉ name.toList)
    (hmessage : '\n' ∈ message.toList) :
    Codes (colour name).toList ∧ Codes colourOff.toList ∧
      (∀ i, (gutter width name i).length = width + 3) ∧
      ∃ text shown lines, format? width name message = some text ∧
        uncoloured? width name text.toList = some shown ∧
        Line.Lines message.toList lines ∧
        shown.splitOn '\n' = lines.mapIdx fun i line => gutter width name i ++ line := by
  have hlines : Line.Lines message.toList (Line.split message.toList) := Line.lines_iff.mpr rfl
  have hne : Line.split message.toList ≠ [] := hlines.ne_nil hmessage
  refine ⟨codes_colour name, codes_colourOff, length_gutter hname,
    _, _, _, format?_eq width name message, uncoloured?_headed hname, hlines, ?_⟩
  rw [toList_align hmessage, gutter_append_intercalate hne]
  refine List.splitOn_intercalate '\n' (fun row hrow => ?_) (List.mapIdx_ne_nil_iff.mpr hne)
  obtain ⟨i, hi, rfl⟩ := List.mem_mapIdx.mp hrow
  rw [List.mem_append, not_or]
  refine ⟨newline_notMem_gutter hbreak i, fun hfeed => ?_⟩
  exact hlines.unbroken _ (List.getElem_mem hi) '\n' hfeed (by decide)

/-- Three lines that end in different ways, under a level of four letters at a width of six. -/
theorem aligned_of_mixedBoundaries :
    let text := "[\x1b[32mINFO  \x1b[0m] a\n         \n         b"
    "INFO".length ≤ 6 ∧ '\n' ∉ "INFO".toList ∧ '\n' ∈ "a\r\n\u2028b\n".toList ∧
      format? 6 "INFO" "a\r\n\u2028b\n" = some text ∧
      (uncoloured? 6 "INFO" text.toList).map (List.splitOn '\n') =
        some ["[INFO  ] a".toList, "         ".toList, "         b".toList] := by
  intro text
  have hname : "INFO".length ≤ 6 := by decide
  have hbreak : '\n' ∉ "INFO".toList := by decide
  have hmessage : '\n' ∈ "a\r\n\u2028b\n".toList := by decide
  have htext : format? 6 "INFO" "a\r\n\u2028b\n" = some text := by decide
  obtain ⟨-, -, -, formatted, shown, lines, hformatted, hshown, hlines, hrows⟩ :=
    format_aligned hname hbreak hmessage
  obtain rfl : text = formatted := Option.some.inj (htext.symm.trans hformatted)
  obtain rfl : [['a'], [], ['b']] = lines := Line.lines_iff.mp hlines
  refine ⟨hname, hbreak, hmessage, htext, ?_⟩
  rw [hshown, Option.map_some, hrows]
  rfl

end JavaRender.Log
