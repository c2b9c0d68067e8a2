import JavaRender.Proofs.Scan.Literal
import JavaRender.Proofs.Typed.Rules

/-!
Names that Java accepts. A name is a possibly dotted identifier that is no reserved word, a type is
any text without blanks and marks that is no keyword but a primitive type. Neither is taken for the
first word of a statement.
-/
namespace JavaRender.Decoding

open Typed Scan

def keywords : List String := [
  "abstract", "assert", "boolean", "break", "byte", "case", "catch", "char", "class", "const",
  "continue", "default", "do", "double", "else", "enum", "extends", "final", "finally", "float",
  "for", "goto", "if", "implements", "import", "instanceof", "int", "interface", "long", "native",
  "new", "package", "private", "protected", "public", "return", "short", "static", "strictfp",
  "super", "switch", "synchronized", "this", "throw", "throws", "transient", "try", "void",
  "volatile", "while"]

def primitives : List String :=
  ["boolean", "byte", "char", "double", "float", "int", "long", "short"]

def literalWords : List String := ["true", "false", "null"]

/-- A character of an identifier. All characters beyond ASCII are let in, and the control characters
that an identifier ignores, so every identifier of Java is one here. -/
def isPart (c : Char) : Bool :=
  c.isAlphanum || c == '_' || c == '$' || 0x7F ≤ c.toNat || c.toNat ≤ 0x08 ||
    (0x0E ≤ c.toNat && c.toNat ≤ 0x1B)

def isIdentifier : List Char → Bool
  | [] => false
  | c :: rest => !c.isDigit && (c :: rest).all isPart

def isName (s : String) : Bool :=
  (s.toList.splitOn '.').all isIdentifier && !(keywords ++ literalWords).contains s

def isTypeName (s : String) : Bool :=
  s != "" && s.toList.all (fun c => !(';' :: marks).contains c) &&
    (!keywords.contains s || primitives.contains s)

def javaRules : Rules where
  name s := isName s = true
  type s := isTypeName s = true
  operator op := (Operator.spelling? op).isSome = true

def IsOperator (s : String) : Prop := ∃ op, Operator.spelling? op = some s

theorem mem_of_mem_intercalate {x c : Char} {parts : List (List Char)}
    (h : c ∈ [x].intercalate parts) : c = x ∨ ∃ part ∈ parts, c ∈ part := by
  induction parts with
  | nil => exact absurd h List.not_mem_nil
  | cons part rest ih =>
    cases rest with
    | nil =>
      rw [List.intercalate_singleton] at h
      exact .inr ⟨part, List.mem_cons_self, h⟩
    | cons next others =>
      rw [List.intercalate_cons_cons, List.append_assoc, List.mem_append, List.singleton_append,
        List.mem_cons] at h
      rcases h with h | h | h
      · exact .inr ⟨part, List.mem_cons_self, h⟩
      · exact .inl h
      · rcases ih h with h | ⟨other, hother, hc⟩
        · exact .inl h
        · exact .inr ⟨other, List.mem_cons_of_mem _ hother, hc⟩

theorem isPart_of_isIdentifier {part : List Char} (h : isIdentifier part = true) {c : Char}
    (hc : c ∈ part) : isPart c = true := by
  cases part with
  | nil => exact absurd hc List.not_mem_nil
  | cons first rest =>
    have hall := ((Bool.and_eq_true _ _).mp h).2
    exact List.all_eq_true.mp hall c hc

/-- The characters of a name. -/
theorem isPart_or_point {s : String} (h : isName s = true) {c : Char} (hc : c ∈ s.toList) :
    isPart c = true ∨ c = '.' := by
  have hparts := ((Bool.and_eq_true _ _).mp h).1
  have hjoined : ['.'].intercalate (s.toList.splitOn '.') = s.toList := List.intercalate_splitOn '.'
  rw [← hjoined] at hc
  rcases mem_of_mem_intercalate hc with hpoint | ⟨part, hpart, hmem⟩
  · exact .inr hpoint
  · exact .inl (isPart_of_isIdentifier (List.all_eq_true.mp hparts part hpart) hmem)

theorem name_notMem_marks {s : String} (h : isName s = true) {c : Char} (hc : c ∈ s.toList) :
    c ∉ marks := by
  have hall : marks.all (fun c => !isPart c && c != '.') = true := rfl
  intro hmark
  have hforeign := List.all_eq_true.mp hall c hmark
  rcases isPart_or_point h hc with hpart | hpoint
  · simp [hpart] at hforeign
  · simp [hpoint] at hforeign

/-- No name is taken for the word of a return or for the sign of an assignment. -/
theorem name_notMem_words {s : String} (h : isName s = true) : s ∉ ["return", "="] := by
  have hall : ∀ w ∈ ["return", "="], isName w = false := by decide
  intro hmem
  rw [hall s hmem] at h
  exact absurd h (by decide)

theorem type_notMem_marks {s : String} (h : isTypeName s = true) {c : Char} (hc : c ∈ s.toList) :
    c ∉ marks := by
  have hall := ((Bool.and_eq_true _ _).mp ((Bool.and_eq_true _ _).mp h).1).2
  have hthis := List.all_eq_true.mp hall c hc
  intro hmark
  simp [hmark] at hthis

theorem type_ne_return {s : String} (h : isTypeName s = true) : s ≠ "return" := by
  rintro rfl
  exact absurd h (by decide)

end JavaRender.Decoding
