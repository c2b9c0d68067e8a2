import JavaRender.CommandLine.Usage

/-!
Reading a command line. Options act in order, several short ones may share a word, and words for
which there is no use are collected and refused at the end. The first plain word names the command,
which reads all words behind it.
-/
namespace JavaRender.CommandLine

/-- What an option is given. Two dashes are dropped from what is attached to an option, also where
nothing is left then. -/
inductive Given where
  | value (s : String)
  | nothing
deriving DecidableEq, Repr

namespace Given

def ofText (s : String) : Given := if s = "--" then nothing else value s

def value? : Given → Option String
  | value s => some s
  | nothing => none

end Given

structure BuildRequest where
  verbose : Bool := false
  source : Option String := none
  out : Option Given := none
  config : Option Given := none
  newline : Option Given := none
deriving DecidableEq, Repr

inductive Request where
  | build (request : BuildRequest)
  | version
deriving DecidableEq, Repr

/-- The flags that one word gives in order, or the word if it is of no use. The last flag may still
wait for its value. -/
structure Cluster where
  given : List (Flag × Option String) := []
  waiting : Option Flag := none
  extra : Option String := none

def short? (options : Options) (c : Char) : Option Flag :=
  options.lookup (String.ofList ['-', c])

def Cluster.alone (flag : Flag) : Cluster :=
  if flag.takesValue then { waiting := some flag } else { given := [(flag, none)] }

def cluster (options : Options) (flag : Flag) (attached : List Char) :
    Except Complaint Cluster :=
  if flag.takesValue then .ok { given := [(flag, some (String.ofList attached))] }
  else match attached with
    | [] => .error (.attached flag "")
    | c :: rest =>
      match short? options c with
      | none => .error (.attached flag (String.ofList (c :: rest)))
      | some next => do
        let others ← if rest.isEmpty then .ok (.alone next) else cluster options next rest
        .ok { others with given := (flag, none) :: others.given }

/-- The flags of an option word; an unknown one is of no use. Nothing may be attached to a long
option that takes no value. -/
def ofOption (options : Options) (s : String) (found : Match) : Except Complaint Cluster :=
  match found.flag, found.attached with
  | none, _ => .ok { extra := some s }
  | some flag, none => .ok (.alone flag)
  | some flag, some attached =>
    if found.long && !flag.takesValue then .error (.attached flag (String.ofList attached))
    else cluster options flag attached

def BuildRequest.take (r : BuildRequest) (flag : Flag) (value : Option String) :
    Except Stop BuildRequest :=
  let given := Given.ofText (value.getD "")
  match flag with
  | .help => .error (.help .build)
  | .verbose => .ok { r with verbose := true }
  | .out => .ok { r with out := some given }
  | .config => .ok { r with config := some given }
  | .newline =>
    match given.value? with
    | some v =>
      if newlineNames.contains v then .ok { r with newline := some given }
      else .error (.refused .build (.badNewline v))
    | none => .ok { r with newline := some given }

def BuildRequest.takeAll (r : BuildRequest) :
    List (Flag × Option String) → Except Stop BuildRequest
  | [] => .ok r
  | (flag, value) :: rest => do
    let r ← r.take flag value
    r.takeAll rest

/-- How far the one plain word of a build has come: it may be preceded and followed by dashes, which
are of no account then. -/
inductive Slot where
  | free
  | announced
  | filled
  | closed
deriving DecidableEq, Repr

/-- A build command as far as it has been read. A flag may wait for the next word; the flags before
it in its word wait with it. -/
structure Reading where
  request : BuildRequest := {}
  slot : Slot := .free
  waiting : Option (List (Flag × Option String) × Flag) := none
  extras : List String := []

def Reading.option (r : Reading) (s : String) (found : Match) : Except Stop Reading := do
  let c ← (ofOption buildOptions s found).mapError (.refused .build)
  let slot := if r.slot = .filled then .closed else r.slot
  match c.waiting with
  | some flag => .ok { r with slot, waiting := some (c.given, flag) }
  | none =>
    let request ← r.request.takeAll c.given
    .ok { r with request, slot, extras := r.extras ++ c.extra.toList }

def Reading.word (r : Reading) (w : Word) : Except Stop Reading :=
  match r.waiting, w with
  | some (given, flag), .plain v => do
    let request ← r.request.takeAll (given ++ [(flag, some v)])
    .ok { r with request, waiting := none }
  | some (_, flag), _ => .error (.refused .build (.noValue flag))
  | none, .option s found => r.option s found
  | none, .plain s =>
    match r.slot with
    | .free | .announced =>
      .ok { r with request := { r.request with source := some s }, slot := .filled }
    | _ => .ok { r with extras := r.extras ++ [s] }
  | none, .dashes =>
    match r.slot with
    | .free => .ok { r with slot := .announced }
    | .filled => .ok { r with slot := .closed }
    | _ => .ok { r with extras := r.extras ++ [Word.dashes.text] }

def readBuild (words : List Word) : Except Stop (BuildRequest × List String) := do
  let r ← words.foldlM Reading.word {}
  match r.waiting with
  | some (_, flag) => .error (.refused .build (.noValue flag))
  | none => .ok (r.request, r.extras)

def readHelp (c : Command) : List Word → Except Stop (List String)
  | [] => .ok []
  | .option s found :: rest => do
    let cluster ← (ofOption helpOptions s found).mapError (.refused c)
    if cluster.given.isEmpty then do
      let extras ← readHelp c rest
      .ok (cluster.extra.toList ++ extras)
    else .error (.help c)
  | .plain s :: rest => do
    let extras ← readHelp c rest
    .ok (s :: extras)
  | .dashes :: rest => do
    let extras ← readHelp c rest
    .ok ("--" :: extras)

def wordsOf (c : Command) (args : List String) : Except Stop (List Word) :=
  (Word.readAll c.options args).mapError fun (word, spellings) =>
    .refused c (.ambiguous word spellings)

def readCommand (name : String) (args : List String) : Except Stop (Request × List String) :=
  if name = "build" then do
    let words ← wordsOf .build args
    let (r, extras) ← readBuild words
    .ok (.build r, extras)
  else if name = "version" then do
    let words ← wordsOf .version args
    let extras ← readHelp .version words
    .ok (.version, extras)
  else .error (.refused .main (.badCommand name))

def readMain : List Word → Except Stop (Request × List String)
  | [] => .error (.refused .main .noCommand)
  | .option s found :: rest => do
    let cluster ← (ofOption helpOptions s found).mapError (.refused .main)
    if cluster.given.isEmpty then do
      let (r, extras) ← readMain rest
      .ok (r, cluster.extra.toList ++ extras)
    else .error (.help .main)
  | .plain s :: rest => readCommand s (rest.map Word.text)
  | .dashes :: rest =>
    match rest with
    | [] => .error (.refused .main .noCommand)
    | _ => .error (.refused .main (.badCommand "--"))

def read (args : List String) : Except Stop Request := do
  let words ← wordsOf .main args
  let (r, extras) ← readMain words
  if extras.isEmpty then .ok r else .error (.refused .main (.unrecognized extras))

end JavaRender.CommandLine
