import JavaRender.CommandLine.Word

/-!
What the commands say of themselves, laid out for eighty columns.
-/
namespace JavaRender.CommandLine

inductive Command where
  | main
  | build
  | version
deriving DecidableEq, Repr

namespace Command

def title : Command → String
  | main => "plc2java"
  | build => "plc2java build"
  | version => "plc2java version"

def options : Command → Options
  | build => buildOptions
  | _ => helpOptions

def lines (ls : List String) : String := String.join (ls.map (· ++ "\n"))

def usage : Command → String
  | main => lines ["usage: plc2java [-h] \x7bbuild,version\x7d ..."]
  | build =>
    lines [
      "usage: plc2java build [-h] [-v] [-o OUT] [-c CONFIG]",
      "                      [--newline \x7bcrlf,lf,platform\x7d]",
      "                      [src]"]
  | version => lines ["usage: plc2java version [-h]"]

def details : Command → String
  | main =>
    lines [
      "",
      "Analyzed PLC AST -> Java source generator",
      "",
      "positional arguments:",
      "  \x7bbuild,version\x7d",
      "    build          Generates Main.java from an AST document",
      "    version        Shows the plc2java version",
      "",
      "options:",
      "  -h, --help       show this help message and exit"]
  | build =>
    lines [
      "",
      "positional arguments:",
      "  src                   AST document in JSON form (default: ./main.ast.json)",
      "",
      "options:",
      "  -h, --help            show this help message and exit",
      "  -v, --verbose         Verbose logging",
      "  -o OUT, --out OUT     Output .java file (default: Main.java next to the",
      "                        source)",
      "  -c CONFIG, --config CONFIG",
      "                        Path to plc2java.toml",
      "  --newline \x7bcrlf,lf,platform\x7d",
      "                        Line terminator of the generated code (default:",
      "                        platform)"]
  | version =>
    lines [
      "",
      "options:",
      "  -h, --help  show this help message and exit"]

def help (c : Command) : String := c.usage ++ c.details

end Command

inductive Complaint where
  | ambiguous (word : String) (spellings : List String)
  | attached (flag : Flag) (value : String)
  | noValue (flag : Flag)
  | badNewline (value : String)
  | badCommand (value : String)
  | noCommand
  | unrecognized (words : List String)
deriving DecidableEq, Repr

def choices (names : List String) : String :=
  "(choose from " ++ ", ".intercalate (names.map Quoted.text) ++ ")"

def newlineNames : List String := ["crlf", "lf", "platform"]

def commandNames : List String := ["build", "version"]

def Complaint.message : Complaint → String
  | ambiguous word spellings =>
    "ambiguous option: " ++ word ++ " could match " ++ ", ".intercalate spellings
  | attached flag value =>
    "argument " ++ flag.title ++ ": ignored explicit argument " ++ Quoted.text value
  | noValue flag => "argument " ++ flag.title ++ ": expected one argument"
  | badNewline value =>
    "argument --newline: invalid choice: " ++ Quoted.text value ++ " " ++ choices newlineNames
  | badCommand value =>
    "argument cmd: invalid choice: " ++ Quoted.text value ++ " " ++ choices commandNames
  | noCommand => "the following arguments are required: cmd"
  | unrecognized words => "unrecognized arguments: " ++ " ".intercalate words

/-- A reading of a command line that ends at once: with the help of a command, or with a complaint
about it. -/
inductive Stop where
  | help (c : Command)
  | refused (c : Command) (complaint : Complaint)
deriving DecidableEq, Repr

def Stop.output : Stop → String
  | help c => c.help
  | refused _ _ => ""

def Stop.errors : Stop → String
  | help _ => ""
  | refused c complaint => c.usage ++ c.title ++ ": error: " ++ complaint.message ++ "\n"

def Stop.status : Stop → Nat
  | help _ => 0
  | refused _ _ => 2

end JavaRender.CommandLine
