import JavaRender.Text.Quoted

/-!
What can be wrong with a configuration document. A flaw is placed by the number of characters from
it to the end; whole numbers may also be too long to read, wherever they stand.
-/
namespace JavaRender.Toml

abbrev Key := List String

def keyText (key : Key) : String :=
  match key with
  | [name] => "(" ++ Quoted.text name ++ ",)"
  | _ => "(" ++ ", ".intercalate (key.map Quoted.text) ++ ")"

inductive Flaw where
  | statement
  | lineEnd
  | keyStart
  | equals
  | value
  | date
  | tableEnd
  | arrayTableEnd
  | unclosedArray
  | unclosedInline
  | unterminated
  | escape
  | hexEscape
  | notScalar
  | unclosedLiteral (mark : String)
  | invalidCharacter (c : Char)
  | illegalCharacter (c : Char)
  | declaredTwice (key : Key)
  | redefined (key : Key)
  | immutable (key : Key)
  | overwrite
  | duplicate (name : String)
deriving DecidableEq, Repr

def Flaw.message : Flaw → String
  | statement => "Invalid statement"
  | lineEnd => "Expected newline or end of document after a statement"
  | keyStart => "Invalid initial character for a key part"
  | equals => "Expected '=' after a key in a key/value pair"
  | value => "Invalid value"
  | date => "Invalid date or datetime"
  | tableEnd => "Expected ']' at the end of a table declaration"
  | arrayTableEnd => "Expected ']]' at the end of an array declaration"
  | unclosedArray => "Unclosed array"
  | unclosedInline => "Unclosed inline table"
  | unterminated => "Unterminated string"
  | escape => "Unescaped '\\' in a string"
  | hexEscape => "Invalid hex value"
  | notScalar => "Escaped character is not a Unicode scalar value"
  | unclosedLiteral mark => "Expected " ++ Quoted.text mark
  | invalidCharacter c => "Found invalid character " ++ Quoted.text (String.singleton c)
  | illegalCharacter c => "Illegal character " ++ Quoted.text (String.singleton c)
  | declaredTwice key => "Cannot declare " ++ keyText key ++ " twice"
  | redefined key => "Cannot redefine namespace " ++ keyText key
  | immutable key => "Cannot mutate immutable namespace " ++ keyText key
  | overwrite => "Cannot overwrite a value"
  | duplicate name => "Duplicate inline table key " ++ Quoted.text name

/-- Why a document cannot be read; `left` counts the characters from the flaw to the end. -/
inductive Fault where
  | flawed (flaw : Flaw) (left : Nat)
  | tooDeep
  | tooManyDigits (count : Nat)
deriving DecidableEq, Repr

abbrev Result := Except Fault

end JavaRender.Toml
