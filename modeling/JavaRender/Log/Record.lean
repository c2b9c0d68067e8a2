import JavaRender.Log.Message
import JavaRender.Text.Line

/-!
Records of a log. A line shows the level in brackets, padded and coloured, and then the message; the
further lines of a message begin in the column in which the first one does.
-/
namespace JavaRender.Log

abbrev Level := Int

def debug : Level := 10

def info : Level := 20

def warning : Level := 30

def error : Level := 40

def critical : Level := 50

def levelName (level : Level) : String :=
  if level = 0 then "NOTSET"
  else if level = debug then "DEBUG"
  else if level = info then "INFO"
  else if level = warning then "WARNING"
  else if level = error then "ERROR"
  else if level = critical then "CRITICAL"
  else "Level " ++ toString level

def colour (name : String) : String :=
  if name = "DEBUG" then "\x1b[36m"
  else if name = "INFO" then "\x1b[32m"
  else if name = "WARNING" then "\x1b[33m"
  else if name = "ERROR" then "\x1b[31m"
  else if name = "CRITICAL" then "\x1b[35m\x1b[1m"
  else ""

def colourOff : String := "\x1b[0m"

def levelWidth : Nat := 8

def padded (width : Nat) (name : String) : String :=
  name ++ String.ofList (List.replicate (width - name.length) ' ')

def margin (width : Nat) : List Char := List.replicate (width + 3) ' '

/-- A message whose further lines stand below the first one. A message without a line feed has no
further lines. -/
def align (width : Nat) (message : String) : String :=
  let cs := message.toList
  if cs.contains '\n' then
    String.ofList (('\n' :: margin width).intercalate (Line.split cs))
  else message

def headed (width : Nat) (name message : String) : String :=
  "[" ++ colour name ++ padded width name ++ colourOff ++ "] " ++ message

def format (width : Nat) (name message : String) : String := headed width name (align width message)

def format? (width : Int) (name message : String) : Option String :=
  if width < 0 then none else some (format width.toNat name message)

def negativeWidthMessage : String := "Sign not allowed in string format specifier"

structure Record where
  level : Level
  message : String
  arguments : List Argument := []

/-- The text of a record with its line end; arguments are put in after the lines are aligned. -/
def Record.text (r : Record) : String :=
  match withArguments (align levelWidth r.message) r.arguments with
  | some message => headed levelWidth (levelName r.level) message ++ "\n"
  | none => ""

def threshold (verbose : Bool) : Level := if verbose then debug else info

def shown (verbose : Bool) (records : List Record) : String :=
  String.join ((records.filter fun r => threshold verbose ≤ r.level).map Record.text)

/-- What of a log is shown before anything is set up: the bare messages of warnings and worse. -/
def shownBare (records : List Record) : String :=
  String.join ((records.filter fun r => warning ≤ r.level).map fun r =>
    match withArguments r.message r.arguments with
    | some message => message ++ "\n"
    | none => "")

def noticeable : Binary64 := Binary64.ofDecimal ⟨false, 2, -3⟩

/-- The end of a step, with its time in seconds if that is at least `least`. -/
def done (elapsed least : Binary64) : Record :=
  if Binary64.le least elapsed then ⟨info, "Done (%.3fs)", [.real elapsed]⟩ else ⟨info, "Done", []⟩

/-- The records of a step around those of its body, which may have failed. -/
def step (title : String) (elapsed least : Binary64) (body : List Record) : List Record :=
  ⟨info, title, []⟩ :: body ++ [done elapsed least]

end JavaRender.Log
