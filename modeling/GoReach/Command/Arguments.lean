import GoReach.Path.Basic

/-!
# Command-line arguments

The arguments name a subcommand and the roots of projects, with options in between.  Options that
hold for all subcommands may also stand before the subcommand; given again after it, they replace
what was given before.

An option's value is looked at only when the next argument has shown that it is complete, so that
of two mistakes the one that is found first is reported.
-/

namespace GoReach.Command

/-- How unreachable declarations are printed. -/
inductive Format where
  | text
  | compactJson
deriving BEq, DecidableEq, Repr, Inhabited

def Format.ofName? : String → Option Format
  | "text" => some .text
  | "json-compact" => some .compactJson
  | _ => none

inductive Subcommand where
  | visualize
  | unreachable
deriving BEq, DecidableEq, Repr, Inhabited

def Subcommand.ofName? : String → Option Subcommand
  | "visualize" => some .visualize
  | "unreachable" => some .unreachable
  | _ => none

inductive Switch where
  | ignoreDir
  | includeTests
  | verbose
  | help
  | version
  | format
  | outputDir
deriving BEq, DecidableEq, Repr, Inhabited

namespace Switch

/-- How a switch is written, and the name of its value if it takes one. -/
structure Form where
  long : String
  short : Option Char := none
  value : Option String := none

def form : Switch → Form
  | .ignoreDir => { long := "ignore-dir", value := some "NAME" }
  | .includeTests => { long := "include-tests" }
  | .verbose => { long := "verbose", short := some 'v' }
  | .help => { long := "help", short := some 'h' }
  | .version => { long := "version", short := some 'V' }
  | .format => { long := "format", short := some 'f', value := some "FORMAT" }
  | .outputDir => { long := "output-dir", short := some 'o', value := some "DIR" }

def takesValue (s : Switch) : Bool := s.form.value.isSome

/-- A switch as it appears in messages. -/
def display (s : Switch) : String :=
  match s.form.value with
  | some value => "--" ++ s.form.long ++ " <" ++ value ++ ">"
  | none => "--" ++ s.form.long

/-- The switches before the subcommand, or after it. -/
def known : Option Subcommand → List Switch
  | none => [.ignoreDir, .includeTests, .verbose, .help, .version]
  | some .visualize => [.ignoreDir, .includeTests, .verbose, .help, .outputDir]
  | some .unreachable => [.ignoreDir, .includeTests, .verbose, .help, .format]

def ofLong? (level : Option Subcommand) (name : String) : Option Switch :=
  (known level).find? fun s => s.form.long == name

def ofShort? (level : Option Subcommand) (c : Char) : Option Switch :=
  (known level).find? fun s => s.form.short == some c

end Switch

/-- Why arguments are not accepted, or need not be carried out. -/
inductive Refusal where
  | unexpectedArgument (argument : String)
  | missingValue (switch : String)
  | invalidValue (value switch : String)
  | unneededValue (value switch : String)
  | repeated (switch : String)
  | unrecognizedSubcommand (name : String)
  | missingSubcommand
  | missingRoots
  /-- There are no arguments at all. -/
  | nothingGiven
  | helpWanted
  | versionWanted
deriving BEq, DecidableEq, Repr, Inhabited

/-- What has been given so far, before the subcommand or after it. -/
structure Given where
  ignored : List String := []
  includeTests : Bool := false
  verbose : Nat := 0
  format : Option Format := none
  outputDir : Option Path := none
  roots : List Path := []
deriving Inhabited

/-- What has been begun and is not yet complete. -/
inductive Pending where
  | nothing
  /-- A switch, and its value if that has come. -/
  | switch (s : Switch) (value : Option String)
  | roots (paths : List String)
deriving Inhabited

structure Progress where
  given : Given := {}
  pending : Pending := .nothing
  /-- Something has been given. -/
  any : Bool := false
  /-- What comes now is no switch, whatever it looks like. -/
  literal : Bool := false
deriving Inhabited

namespace Given

/-- How the roots appear in messages. -/
def rootsDisplay : String := "<ROOT>..."

/-- A path from the command line, which must not be empty. -/
def path (display text : String) : Except Refusal Path :=
  if text.isEmpty then .error (.missingValue display) else .ok ⟨text⟩

/-- Take a switch with its value. -/
def setValue (g : Given) (s : Switch) (value : String) : Except Refusal Given :=
  match s with
  | .format =>
    if g.format.isSome then .error (.repeated s.display)
    else if value.isEmpty then .error (.missingValue s.display)
    else
      match Format.ofName? value with
      | some f => .ok { g with format := some f }
      | none => .error (.invalidValue value s.display)
  | .outputDir =>
    if g.outputDir.isSome then .error (.repeated s.display)
    else (path s.display value).map fun p => { g with outputDir := some p }
  | _ => .ok { g with ignored := g.ignored ++ [value] }

/-- Take a switch without a value. -/
def setFlag (g : Given) : Switch → Except Refusal Given
  | .help => .error .helpWanted
  | .version => .error .versionWanted
  | .verbose => .ok { g with verbose := g.verbose + 1 }
  | s =>
    if g.includeTests then .error (.repeated s.display) else .ok { g with includeTests := true }

end Given

namespace Progress

/-- Complete what has been begun. -/
def complete (p : Progress) : Except Refusal Progress :=
  match p.pending with
  | .nothing => .ok p
  | .switch s none => .error (.missingValue s.display)
  | .switch s (some value) =>
    (p.given.setValue s value).map fun g => { p with given := g, pending := .nothing }
  | .roots paths =>
    (paths.mapM (Given.path Given.rootsDisplay)).map fun paths =>
      { p with given := { p.given with roots := p.given.roots ++ paths }, pending := .nothing }

/-- Whether the next argument is the value of a switch. -/
def awaitsValue (p : Progress) : Bool :=
  match p.pending with
  | .switch _ none => !p.literal
  | _ => false

/-- Take a switch, with what is attached to it. -/
def takeSwitch (p : Progress) (s : Switch) (attached : Option String) :
    Except Refusal Progress := do
  let p := { p with any := true }
  if s.takesValue then
    let p ← p.complete
    match attached with
    | some value => return { p with given := ← p.given.setValue s value }
    | none => return { p with pending := .switch s none }
  else
    match attached with
    | some value => throw (.unneededValue value s.display)
    | none =>
      let p ← p.complete
      return { p with given := ← p.given.setFlag s }

/-- Take an argument that begins with two dashes. -/
def takeLong (level : Option Subcommand) (p : Progress) (text : List Char) :
    Except Refusal Progress :=
  let name := String.ofList (text.takeWhile (· != '='))
  let attached := match text.dropWhile (· != '=') with
    | [] => none
    | _ :: value => some (String.ofList value)
  match Switch.ofLong? level name with
  | some s => p.takeSwitch s attached
  | none => .error (.unexpectedArgument ("--" ++ name))

/-- Take the letters after a single dash.  What follows a letter that takes a value is the value,
with or without an equals sign. -/
def takeShort (level : Option Subcommand) (p : Progress) : List Char → Except Refusal Progress
  | [] => .ok p
  | c :: rest =>
    match Switch.ofShort? level c with
    | none => .error (.unexpectedArgument (String.ofList ['-', c]))
    | some s =>
      if s.takesValue then
        p.takeSwitch s (match rest with
          | [] => none
          | '=' :: value => some (String.ofList value)
          | value => some (String.ofList value))
      else
        match p.takeSwitch s none with
        | .ok p => takeShort level p rest
        | .error e => .error e

/-- Take the path of a root. -/
def takeRoot (p : Progress) (text : String) : Except Refusal Progress :=
  match p.pending with
  | .roots paths => .ok { p with pending := .roots (paths ++ [text]), any := true }
  | _ => p.complete.map fun p => { p with pending := .roots [text], any := true }

/-- Take the value that a switch awaits. -/
def takeValue (p : Progress) (text : String) : Progress :=
  match p.pending with
  | .switch s none => { p with pending := .switch s (some text) }
  | _ => p

end Progress

/-- What an argument looks like. -/
inductive Look where
  /-- Two dashes and no more. -/
  | divider
  | long (text : List Char)
  | short (text : List Char)
  | word

def Look.of (argument : String) : Look :=
  match argument.toList with
  | ['-', '-'] => .divider
  | '-' :: '-' :: text => .long text
  | ['-'] => .word
  | '-' :: text => .short text
  | _ => .word

/-- Take an argument; `word` is what comes of it if it is neither a switch nor a value. -/
def Progress.take (level : Option Subcommand) (p : Progress) (a : String)
    (word : Except Refusal Progress) : Except Refusal Progress :=
  match Look.of a with
  | .divider => .ok { p with literal := true }
  | .long text => p.takeLong level text
  | .short text => p.takeShort level text
  | .word => if p.awaitsValue then .ok (p.takeValue a) else word

/-- Take the arguments after the subcommand. -/
def takeAfter (sub : Subcommand) : Progress → List String → Except Refusal Given
  | p, [] => do
    let p ← p.complete
    if p.given.roots.isEmpty then throw .missingRoots
    return p.given
  | p, a :: rest =>
    match if p.literal then p.takeRoot a else p.take (some sub) a (p.takeRoot a) with
    | .ok p => takeAfter sub p rest
    | .error e => .error e

/-- What is to be done. -/
structure Request where
  subcommand : Subcommand
  roots : List Path
  ignored : List String
  includeTests : Bool
  verbose : Nat
  format : Format
  outputDir : Path
deriving Inhabited

/-- What was given before the subcommand, together with what was given after it. -/
def Request.make (sub : Subcommand) (before after : Given) : Request :=
  { subcommand := sub
    roots := after.roots
    ignored := if after.ignored.isEmpty then before.ignored else after.ignored
    includeTests := before.includeTests || after.includeTests
    verbose := if after.verbose == 0 then before.verbose else after.verbose
    format := after.format.getD .text
    outputDir := after.outputDir.getD ⟨"."⟩ }

/-- The subcommand that an argument names, if it stands where one can stand. -/
def Progress.subcommand? (p : Progress) (a : String) : Option Subcommand :=
  if p.literal || p.awaitsValue then none else Subcommand.ofName? a

/-- Whether an argument names a subcommand, of which help is one. -/
def isSubcommandName (a : String) : Bool := (Subcommand.ofName? a).isSome || a == "help"

/-- What asking for help comes to.  It may name one subcommand; none of them has further ones. -/
def helpOn : List String → Refusal
  | [] => .helpWanted
  | [a] => if isSubcommandName a then .helpWanted else .unrecognizedSubcommand a
  | a :: b :: _ => .unrecognizedSubcommand (if isSubcommandName a then b else a)

/-- What an argument comes to that stands where a subcommand should, and is none to be carried
out. -/
def notSubcommand (literal : Bool) (a : String) (rest : List String) : Refusal :=
  if !isSubcommandName a then .unrecognizedSubcommand a
  else if literal then .unexpectedArgument a
  else helpOn rest

/-- Take the arguments from the beginning. -/
def takeBefore : Progress → List String → Except Refusal Request
  | p, [] => do
    let p ← p.complete
    throw (if p.any then .missingSubcommand else .nothingGiven)
  | p, a :: rest =>
    match p.subcommand? a with
    | some sub => do
      let after ← takeAfter sub {} rest
      let before ← p.complete
      return .make sub before.given after
    | none =>
      let word := .error (notSubcommand p.literal a rest)
      match if p.literal then word else p.take none a word with
      | .ok p => takeBefore p rest
      | .error e => .error e

/-- What the arguments ask for. -/
def Request.ofArguments (arguments : List String) : Except Refusal Request :=
  takeBefore {} arguments

end GoReach.Command
