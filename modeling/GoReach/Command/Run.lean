import GoReach.Command.Arguments
import GoReach.Go.Language
import GoReach.Report.Dot
import GoReach.Report.Listing
import GoReach.Report.Summary

/-!
# Carrying out a command

A run looks at a disk, prints messages in order, and leaves a disk with the files that it wrote.
-/

namespace GoReach.Command

def programName : String := "gorefs"

def versionText : String := programName ++ " 0.1.0"

def about : String :=
  "Builds the reference graph of a Go project and reports unreachable declarations"

def usage : String :=
  about ++ "\n\nUsage: " ++ programName ++ " [OPTIONS] <visualize|unreachable> <ROOT>...\n\n" ++
  "Options:\n" ++
  "      --ignore-dir <NAME>     Directory name to skip while scanning\n" ++
  "      --include-tests         Also analyze _test.go files\n" ++
  "  -v, --verbose               Increase log verbosity\n" ++
  "  -f, --format <FORMAT>       unreachable: text or json-compact\n" ++
  "  -o, --output-dir <DIR>      visualize: directory the .dot files are written to\n" ++
  "  -h, --help                  Print help\n" ++
  "  -V, --version               Print version\n"

/-- Something that a run prints. -/
inductive Message where
  | output (text : String)
  | notice (text : String)
  | warning (text : String)
deriving BEq, DecidableEq, Repr, Inhabited

structure Outcome where
  exitCode : Nat
  messages : List Message
  disk : Disk
  /-- The files that were written, in order. -/
  written : List Path := []

/-- What is said about a refusal. -/
def Refusal.text : Refusal → String
  | .unexpectedArgument a => s!"error: unexpected argument '{a}' found"
  | .missingValue s => s!"error: a value is required for '{s}' but none was supplied"
  | .invalidValue v s => s!"error: invalid value '{v}' for '{s}'"
  | .unneededValue v s => s!"error: unexpected value '{v}' for '{s}' found; no more were expected"
  | .repeated s => s!"error: the argument '{s}' cannot be used multiple times"
  | .unrecognizedSubcommand name => s!"error: unrecognized subcommand '{name}'"
  | .missingSubcommand =>
    s!"error: '{programName}' requires a subcommand but one was not provided"
  | .missingRoots => "error: the following required arguments were not provided:"
  | .nothingGiven => usage
  | .helpWanted => usage
  | .versionWanted => versionText

/-- What a refusal prints, and the exit code. -/
def Refusal.outcome (r : Refusal) (d : Disk) : Outcome :=
  match r with
  | .helpWanted => ⟨0, [.output r.text], d, []⟩
  | .versionWanted => ⟨0, [.output (r.text ++ "\n")], d, []⟩
  | _ => ⟨2, [.notice (r.text ++ "\n")], d, []⟩

/-- A run that has failed; the messages are followed by those of their causes. -/
def failure (causes : List String) : Message :=
  .notice ("error: " ++ ": ".intercalate causes ++ "\n")

/-- A run under way. -/
structure Session where
  disk : Disk
  /-- The latest one first. -/
  messages : List Message := []
  /-- The files that were written, the latest one first. -/
  written : List Path := []

namespace Session

def say (s : Session) (m : Message) : Session := { s with messages := m :: s.messages }

/-- What a failure leaves behind. -/
structure Failed where
  session : Session
  causes : List String

def searchOptions (q : Request) : SearchOptions :=
  { q.ignored.foldl SearchOptions.ignoring {} with includeTests := q.includeTests }

/-- Analyze a root, and warn of its collisions. -/
def analyze (parser : Go.Parser) (q : Request) (s : Session) (root : Path) :
    Except Failed (Analysis × Session) :=
  match s.disk.analyze parser (searchOptions q) root with
  | .error e => .error ⟨s, ("failed to analyze " ++ root.text) :: e.chain⟩
  | .ok a =>
    .ok (a, a.table.collisions.foldl (fun s c => s.say (.warning c.warning)) s)

/-- Print or write what is asked for one root. -/
def handle (parser : Go.Parser) (q : Request) (s : Session) (root : Path) :
    Except Failed Session := do
  let (a, s) ← s.analyze parser q root
  let report {α : Type} (r : Except Error α) : Except Failed α :=
    r.mapError fun e => ⟨s, e.chain⟩
  match q.subcommand, q.format with
  | .visualize, _ =>
    let (path, disk) ← report (Report.Dot.write s.disk a q.outputDir)
    let s := { s with disk, written := path :: s.written }
    return s.say (.notice ("Generated " ++ path.text ++ "\n"))
  | .unreachable, .text => return s.say (.output (← report a.listing))
  | .unreachable, .compactJson =>
    let json ← report (Report.summary .full a)
    return s.say (.output (json.render ++ "\n"))

/-- All roots, one after another. -/
def handleAll (parser : Go.Parser) (q : Request) (s : Session) : Except Failed Session :=
  q.roots.foldlM (handle parser q) s

end Session

/-- Carry out a request. -/
def Request.run (q : Request) (parser : Go.Parser) (d : Disk) : Outcome :=
  match Session.handleAll parser q { disk := d } with
  | .ok s => ⟨0, s.messages.reverse, s.disk, s.written.reverse⟩
  | .error ⟨s, causes⟩ =>
    ⟨1, (s.say (failure causes)).messages.reverse, s.disk, s.written.reverse⟩

/-- The files whose contents a request needs. -/
def Request.reads (q : Request) (d : Disk) : List Path :=
  q.roots.flatMap fun root =>
    match d.canonical root with
    | .error _ => []
    | .ok root =>
      root.join ⟨Manifest.fileName⟩ :: ((d.search (Session.searchOptions q) root).toOption.getD [])

/-- Run the program with the given arguments. -/
def run (arguments : List String) (d : Disk) : Outcome :=
  match Request.ofArguments arguments with
  | .ok q => q.run Go.parse d
  | .error r => r.outcome d

end GoReach.Command
