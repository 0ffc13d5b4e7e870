import GoReach.Disk.Search
import GoReach.Entrypoint
import GoReach.Graph.Search
import GoReach.Manifest
import GoReach.Resolution

/-!
# Analyzing a project

The reference graph of a project, its entrypoints, and the declarations that no entrypoint reaches.
-/

namespace GoReach

structure Analysis where
  root : Path
  rootModule : String
  graph : ReferenceGraph
  table : NameTable := {}
  /-- Sorted. -/
  entrypoints : List Declaration
  /-- Sorted. -/
  unreachable : List Declaration

namespace Analysis

/-- The last name of the root directory; it names what is made of the analysis. -/
def projectName (a : Analysis) : String := a.root.fileName?.getD "project"

/-- A graph under construction, with the entrypoints so far. -/
structure Draft where
  graph : ReferenceGraph := {}
  entrypoints : List Declaration := []

namespace Draft

def addEntrypoint (b : Draft) (d : Declaration) : Draft :=
  { b with entrypoints := Sorted.insert Declaration.compare d b.entrypoints }

/-- Add a declaration of a file of the given package. -/
def addDeclaration (package : String) (b : Draft) (d : Declaration) : Draft :=
  let b := { b with graph := (b.graph.addNode d).2 }
  if d.isEntrypoint package then b.addEntrypoint d else b

/-- Add the declarations of a file. -/
def addFile (b : Draft) (f : Go.SourceFile) : Draft :=
  f.declarations.foldl (addDeclaration f.package) b

/-- Add a reference.  The code outside of all declarations is an entrypoint once it refers to
something. -/
def addReference (b : Draft) (r : Reference) : Draft :=
  let b := if r.source.isFileRoot then b.addEntrypoint r.source else b
  { b with graph := (b.graph.addEdge r.source r.target).2 }

end Draft

/-- Analyze the files of a project. -/
def ofFiles (root : Path) (rootModule : String) (files : List Go.SourceFile) :
    Except Error Analysis := do
  let table ← NameTable.ofFiles root rootModule files
  let scope : Scope := { root, rootModule, table }
  let references ← files.mapM scope.resolve
  let draft := references.flatten.foldl Draft.addReference (files.foldl Draft.addFile {})
  return {
    root, rootModule, table
    graph := draft.graph
    entrypoints := draft.entrypoints
    unreachable := draft.graph.unreachable draft.entrypoints }

end Analysis

namespace Disk

variable (d : Disk) (parser : Go.Parser)

/-- The name of the module at a project's root, from its manifest. -/
def rootModule (root : Path) : Except Error String :=
  let path := root.join ⟨Manifest.fileName⟩
  match d.readText path with
  | .error fault => .error (.manifest path (.unreadable fault))
  | .ok text =>
    match Manifest.modulePath? text with
    | some name => .ok name
    | none => .error (.manifest path .noDirective)

/-- Read a Go file. -/
def readSource (path : Path) : Except Error Go.SourceFile :=
  match d.readText path with
  | .error fault => .error (.file path fault)
  | .ok text => Go.SourceFile.ofText parser path text

/-- Analyze the project in a directory. -/
def analyze (o : SearchOptions) (path : Path) : Except Error Analysis := do
  let root ← (d.canonical path).mapError (Error.file path)
  let rootModule ← d.rootModule root
  let paths ← d.search o root
  let files ← paths.mapM (d.readSource parser)
  Analysis.ofFiles root rootModule files

end Disk

end GoReach
