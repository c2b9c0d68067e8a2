import JavaRender.Json.Reader
import JavaRender.Text.Quoted

/-!
Why a document is no program. A refusal has a cause and the way from the root to the place at fault,
as keys and indices; a few numbers cannot be read at all.
-/
namespace JavaRender.Document

inductive Step where
  | key (name : String)
  | index (i : Nat)
deriving DecidableEq, Repr

def Step.text : Step → String
  | key name => "." ++ name
  | index i => "[" ++ toString i ++ "]"

def pathText (start : String) (steps : List Step) : String :=
  start ++ String.join (steps.map Step.text)

inductive Cause where
  | notObject (found : String)
  | notList (found : String)
  | missingKey (key : String)
  | notString (key : String)
  | unknownType (name : String)
  | unknownClass (tag : String)
  | unknownKind (name : String)
  | notParameterName
  | notBoolean
  | notInteger
  | badInteger (numeral : String)
  | notDecimal
  | badDecimal (numeral : String)
  | notFinite (value : String)
  | notCharacter
  | notText
  | notSource (found : String)
  | notUtf8 (reason : String)
  | flawed (flaw : Json.Flaw) (place : Line.Location)
  | tooDeep (bracket : Json.Bracket)
  | tooManyDigits (count : Nat)
deriving DecidableEq, Repr

def Cause.message : Cause → String
  | notObject found => "Expected an object, got " ++ found
  | notList found => "Expected a list, got " ++ found
  | missingKey key => "Missing key " ++ Quoted.text key
  | notString key => "Expected a string for " ++ Quoted.text key
  | unknownType name => "Unknown builtin type " ++ Quoted.text name
  | unknownClass tag => "Unknown node type " ++ Quoted.text tag
  | unknownKind name => "Unknown literal kind " ++ Quoted.text name
  | notParameterName => "Expected a parameter name"
  | notBoolean => "Expected a boolean literal"
  | notInteger => "Expected an integer literal"
  | badInteger numeral => "Invalid integer literal " ++ Quoted.text numeral
  | notDecimal => "Expected a decimal literal"
  | badDecimal numeral => "Invalid decimal literal " ++ Quoted.text numeral
  | notFinite value => "Decimal literal must be finite, got " ++ value
  | notCharacter => "Expected a single character"
  | notText => "Expected a string literal"
  | notSource found => "Expected a Source root, got " ++ found
  | notUtf8 reason => "File is not valid UTF-8: " ++ reason
  | flawed flaw place =>
    "Invalid JSON: " ++ flaw.message ++ " (line " ++ toString place.line ++ ", column " ++
      toString place.column ++ ")"
  | tooDeep bracket => "Invalid JSON: " ++ Json.tooDeepMessage bracket
  | tooManyDigits count => "Invalid JSON: " ++ Whole.longNumeralMessage count

structure Refusal where
  cause : Cause
  steps : List Step
deriving DecidableEq, Repr

inductive LoadError where
  | refused (refusal : Refusal)
  | numberRange
deriving DecidableEq, Repr

def Refusal.message (start : String) (r : Refusal) : String :=
  r.cause.message ++ "\nPATH: " ++ pathText start r.steps

def root : String := "$"

def LoadError.message : LoadError → String
  | refused r => r.message root
  | numberRange => Decimal.invalidMessage

abbrev Decoded := Except Refusal

def refuse {α : Type} (cause : Cause) : Decoded α := .error ⟨cause, []⟩

/-- Decodes a part: its refusals lie behind the step to it. -/
def under {α : Type} (step : Step) (part : Decoded α) : Decoded α :=
  part.mapError fun r => ⟨r.cause, step :: r.steps⟩

end JavaRender.Document
