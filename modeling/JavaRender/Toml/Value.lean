import JavaRender.Number.Shortest
import JavaRender.Text.Quoted
import JavaRender.Toml.Moment

/-!
Values of a configuration document. A display quotes texts and names the parts of dates; a spelling
is the display but for texts and dates, which are written as they are. A whole number of more than
4300 digits has neither.
-/
namespace JavaRender.Toml

inductive Value where
  | text (s : String)
  | whole (n : Int)
  | real (x : Binary64)
  | truth (b : Bool)
  | date (d : Date)
  | time (t : Time)
  | moment (m : Moment)
  | array (items : List Value)
  | table (members : List (String × Value))

abbrev Table := List (String × Value)

namespace Value

def className : Value → String
  | text _ => "str"
  | whole _ => "int"
  | real _ => "float"
  | truth _ => "bool"
  | date _ => "datetime.date"
  | time _ => "datetime.time"
  | moment _ => "datetime.datetime"
  | array _ => "list"
  | table _ => "dict"

mutual

def display : Value → String
  | text s => Quoted.text s
  | whole n => toString n
  | real x => Shortest.text x
  | truth b => if b then "True" else "False"
  | date d => d.display
  | time t => t.display
  | moment m => m.display
  | array items => "[" ++ ", ".intercalate (displayAll items) ++ "]"
  | table members => "\x7b" ++ ", ".intercalate (displayMembers members) ++ "\x7d"

def displayAll : List Value → List String
  | [] => []
  | v :: rest => v.display :: displayAll rest

def displayMembers : List (String × Value) → List String
  | [] => []
  | (key, v) :: rest => (Quoted.text key ++ ": " ++ v.display) :: displayMembers rest

end

mutual

def hasLongWhole : Value → Bool
  | whole n => Whole.isLong n
  | array items => anyLong items
  | table members => anyLongMember members
  | _ => false

def anyLong : List Value → Bool
  | [] => false
  | v :: rest => v.hasLongWhole || anyLong rest

def anyLongMember : List (String × Value) → Bool
  | [] => false
  | (_, v) :: rest => v.hasLongWhole || anyLongMember rest

end

def display? (v : Value) : Option String := if v.hasLongWhole then none else some v.display

def spelling? : Value → Option String
  | text s => some s
  | date d => some d.text
  | time t => some t.text
  | moment m => some m.text
  | v => v.display?

end Value

end JavaRender.Toml
