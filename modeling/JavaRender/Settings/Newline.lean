/-!
Names of line terminators. The platform's terminator is the line feed.
-/
namespace JavaRender

inductive Newline where
  | lf
  | crlf
  | platform
deriving DecidableEq, Repr

namespace Newline

def all : List Newline := [lf, crlf, platform]

def name : Newline → String
  | lf => "lf"
  | crlf => "crlf"
  | platform => "platform"

def terminator : Newline → String
  | lf => "\n"
  | crlf => "\r\n"
  | platform => "\n"

def ofName? (s : String) : Option Newline := all.find? (·.name == s)

theorem ofName?_name (n : Newline) : ofName? n.name = some n := by cases n <;> decide

def names : String := ", ".intercalate (all.map name)

end Newline

end JavaRender
