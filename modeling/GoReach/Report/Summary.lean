import GoReach.Analysis
import GoReach.Json.Value

/-!
# The summary as JSON

The size of the graph, the entrypoints and the unreachable declarations.  The members of every
object come in alphabetical order.
-/

namespace GoReach.Report

/-- How much a summary says about each declaration. -/
inductive Detail where
  | full
  /-- Only the file and the name. -/
  | minimal
deriving BEq, DecidableEq, Repr, Inhabited

/-- A declaration: its file, its kind, the line where it starts, and its name. -/
def declarationJson (detail : Detail) (root : Path) (d : Declaration) : Except Error Json :=
  (relativePath d.file root).map fun file =>
    let kind := ("k", Json.str d.kind.label)
    let line := d.span.toList.map fun s => ("l", Json.num s.startLine)
    let extra := match detail with
      | .full => kind :: line
      | .minimal => []
    .obj (("f", .str file.text) :: extra ++ [("n", .str d.name)])

/-- The summary of an analysis. -/
def summary (detail : Detail) (a : Analysis) : Except Error Json := do
  let entrypoints ← a.entrypoints.mapM (declarationJson detail a.root)
  let unreachable ← a.unreachable.mapM (declarationJson detail a.root)
  return .obj [
    ("edges", .num a.graph.edges.size),
    ("entrypoints", .arr entrypoints),
    ("module", .str a.rootModule),
    ("nodes", .num a.graph.nodes.size),
    ("root", .str a.root.text),
    ("unreachable", .arr unreachable)]

end GoReach.Report
