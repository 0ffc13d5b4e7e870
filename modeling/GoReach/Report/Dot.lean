import GoReach.Analysis

/-!
# The graph in the DOT language

One cluster for each file, with a node for each of its declarations.  Files, declarations and edges
come in order, so that equal graphs are written alike.
-/

namespace GoReach.Report.Dot

/-- Put a backslash before backslashes. -/
def escapeBackslashes (cs : List Char) : List Char :=
  cs.flatMap fun c => if c == '\\' then ['\\', '\\'] else [c]

/-- Put a backslash before quotes. -/
def escapeQuotes (cs : List Char) : List Char :=
  cs.flatMap fun c => if c == '"' then ['\\', '"'] else [c]

/-- A text as it stands between quotes. -/
def escape (s : String) : String := String.ofList (escapeQuotes (escapeBackslashes s.toList))

def quoted (s : String) : String := "\"" ++ escape s ++ "\""

/-- The declarations of one file; the file is named by the first spelling that was met. -/
structure Cluster where
  file : Path
  declarations : List Declaration

/-- Add a declaration to the cluster of its file. -/
def addToCluster (d : Declaration) : List Cluster → List Cluster
  | [] => [⟨d.file, [d]⟩]
  | c :: rest =>
    match d.file.compare c.file with
    | .lt => ⟨d.file, [d]⟩ :: c :: rest
    | .eq => { c with declarations := c.declarations ++ [d] } :: rest
    | .gt => c :: addToCluster d rest

/-- The clusters of a graph, in the order of their files. -/
def clusters (g : ReferenceGraph) : List Cluster :=
  g.nodes.toList.foldl (fun cs d => addToCluster d cs) []

/-- A cluster with its label, and its declarations in order. -/
structure Labelled where
  label : String
  declarations : List Declaration

def labelled (root : Path) (c : Cluster) : Except Error Labelled :=
  (relativePath c.file root).map fun p =>
    ⟨p.text, Sorted.sort Declaration.compare c.declarations⟩

/-- Whether entrypoints and unreachable declarations are coloured. -/
inductive Style where
  | highlighted
  | plain
deriving BEq, DecidableEq, Repr, Inhabited

/-- The colour of a declaration. -/
def fill (style : Style) (a : Analysis) (d : Declaration) : String :=
  match style with
  | .plain => ""
  | .highlighted =>
    if Sorted.contains Declaration.compare d a.entrypoints then ", fillcolor=palegreen"
    else if Sorted.contains Declaration.compare d a.unreachable then ", fillcolor=lightcoral"
    else ""

/-- Lines written so far, and the names given to declarations. -/
structure Page where
  lines : Array String := #[]
  ids : Std.HashMap Declaration.Key String := ∅

namespace Page

def line (p : Page) (s : String) : Page := { p with lines := p.lines.push s }

/-- Write a declaration, and give it the next name. -/
def addNode (style : Style) (a : Analysis) (label : String) (p : Page) (d : Declaration) : Page :=
  let id := "n" ++ toString p.ids.size
  let name := if d.isFileRoot then label else d.name
  let p := p.line ("    " ++ quoted id ++ " [label=" ++ quoted name ++ fill style a d ++ "];")
  { p with ids := p.ids.insert d.key id }

/-- Write a cluster. -/
def addCluster (style : Style) (a : Analysis) (p : Page) (number : Nat) (c : Labelled) : Page :=
  let p := p.line ("  subgraph \"cluster_" ++ toString number ++ "\" \x7b")
  let p := p.line ("    label=" ++ quoted c.label ++ ";")
  let p := (p.line "    style=filled;").line "    color=lightgrey;"
  (c.declarations.foldl (addNode style a c.label) p).line "  \x7d"

/-- Write clusters, numbered from `number` on. -/
def addClusters (style : Style) (a : Analysis) (number : Nat) (p : Page) : List Labelled → Page
  | [] => p
  | c :: rest => addClusters style a (number + 1) (p.addCluster style a number c) rest

/-- Write an edge between declarations that have names. -/
def addEdge (p : Page) (e : Declaration × Declaration) : Page :=
  match p.ids[e.1.key]?, p.ids[e.2.key]? with
  | some i, some j => p.line ("  " ++ quoted i ++ " -> " ++ quoted j ++ ";")
  | _, _ => p

end Page

/-- Edges come in the order of their sources, and then of their targets. -/
def compareEdges (a b : Declaration × Declaration) : Ordering :=
  (a.1.compare b.1).then (a.2.compare b.2)

/-- The graph of an analysis. -/
def render (style : Style) (a : Analysis) : Except Error String := do
  let cs ← (clusters a.graph).mapM (labelled a.root)
  let page : Page := {}
  let page := page.line ("digraph " ++ quoted a.projectName ++ " \x7b")
  let page := page.line "  node [shape=box, style=filled, fillcolor=white];"
  let page := page.addClusters style a 0 cs
  let page := (Sorted.sort compareEdges a.graph.edgeList).foldl Page.addEdge page
  let page := page.line "\x7d"
  return String.join (page.lines.toList.map (· ++ "\n"))

/-- The name of the file to which the graph of an analysis is written. -/
def fileName (a : Analysis) : String := a.projectName ++ ".dot"

/-- Write the graph of an analysis into a directory; the path of the file is returned. -/
def write (d : Disk) (a : Analysis) (directory : Path) : Except Error (Path × Disk) := do
  let path := directory.join ⟨fileName a⟩
  let text ← render .highlighted a
  let d ← (d.writeText path text).mapError (Error.file path)
  return (path, d)

end GoReach.Report.Dot
