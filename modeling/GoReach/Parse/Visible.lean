import GoReach.Parse.Machine
import GoReach.Syntax.Node

/-!
# From trees under construction to syntax trees

A tree whose label is hidden does not appear; its children stand in its parent's place.  A child
stands in the field that its production gives it, or else in the field of the hidden tree around
it.  What is extra stands in no field.
-/

namespace GoReach.Parse

open GoReach.Grammar
open GoReach.Syntax (Node NodeInfo)

/-- The field of the child at a place of a production. -/
def directField (layout : Layout) (i : Nat) : Option String :=
  layout.fields.findSome? fun (field, places) =>
    if places.contains (i, false) then some field else none

/-- The root of a tree as a node; `name` is the name that a production gives it. -/
def Reader.nodeInfo (r : Reader) (root : Root) (field name : Option String) : NodeInfo :=
  let a := r.language.appearance root.label
  { kind := name.getD a.name
    named := name.isSome || a.named
    field
    text := r.source.slice root.start root.stop
    start := r.source.position root.start
    stop := r.source.position root.stop
    isError := root.label == .error
    isMissing := root.missing
    hasError := root.cost > 0 }

mutual

/-- A tree as a syntax tree. -/
def Reader.toNode (r : Reader) (field name : Option String) : Tree → Node
  | .node root children =>
    .node (r.nodeInfo root field name) (r.toNodes (r.language.layout root.layout) none 0 children)

/-- Children from the place `i` of a production on, in the given surrounding field. -/
def Reader.toNodes (r : Reader) (layout : Layout) (around : Option String) (i : Nat) :
    List Tree → List Node
  | [] => []
  | .node root children :: rest =>
    let name := if root.extra then none else (layout.names[i]?).join
    let field := if root.extra then none else directField layout i <|> around
    let here :=
      if name.isSome || r.language.visible root.label then
        [.node (r.nodeInfo root field name)
          (r.toNodes (r.language.layout root.layout) none 0 children)]
      else r.toNodes (r.language.layout root.layout) field 0 children
    here ++ r.toNodes layout around (if root.extra then i else i + 1) rest

end

/-- Read a text in a language. -/
def parse (language : Language) (text : String) : Node :=
  let r := Reader.make language text
  r.toNode none none r.read

end GoReach.Parse
