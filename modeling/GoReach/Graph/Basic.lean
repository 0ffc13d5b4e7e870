import Std.Data.HashMap
import GoReach.Declaration

/-!
# Reference graphs

The nodes of a reference graph are declarations; an edge says that one declaration refers to
another.  Nodes are numbered in the order in which they came, and a table finds the number of a
declaration.  There is at most one edge from one node to another, and none from a node to itself.
-/

namespace GoReach

structure ReferenceGraph where
  nodes : Array Declaration := #[]
  /-- The number of every node. -/
  numbers : Std.HashMap Declaration.Key Nat := ∅
  /-- The edges in the order in which they came, by the numbers of their ends. -/
  edges : Array (Nat × Nat) := #[]
  /-- For every node the nodes that it refers to, the latest one first. -/
  successors : Array (List Nat) := #[]
deriving Inhabited

namespace ReferenceGraph

def empty : ReferenceGraph := {}

variable (g : ReferenceGraph)

/-- The number of a declaration, if it is a node. -/
def number? (d : Declaration) : Option Nat := g.numbers[d.key]?

def containsNode (d : Declaration) : Bool := (g.number? d).isSome

/-- The nodes that a node refers to, the latest one first. -/
def successorsOf (i : Nat) : List Nat := g.successors.getD i []

def containsEdge (a b : Declaration) : Bool :=
  match g.number? a, g.number? b with
  | some i, some j => (g.successorsOf i).contains j
  | _, _ => false

/-- Add a declaration that is not yet a node. -/
def insertNode (d : Declaration) : ReferenceGraph :=
  { g with
    nodes := g.nodes.push d
    numbers := g.numbers.insert d.key g.nodes.size
    successors := g.successors.push [] }

/-- Add a node, and say whether it is new. -/
def addNode (d : Declaration) : Bool × ReferenceGraph :=
  if g.containsNode d then (false, g) else (true, g.insertNode d)

/-- The number of a declaration, which becomes a node if it is none. -/
def numberOf (d : Declaration) : Nat × ReferenceGraph :=
  match g.number? d with
  | some i => (i, g)
  | none => (g.nodes.size, g.insertNode d)

/-- Add an edge between two nodes. -/
def insertEdge (i j : Nat) : ReferenceGraph :=
  { g with
    edges := g.edges.push (i, j)
    successors := g.successors.modify i (j :: ·) }

/-- Add an edge, and say whether it is new.  Its ends become nodes. -/
def addEdge (a b : Declaration) : Bool × ReferenceGraph :=
  if a.same b || g.containsEdge a b then (false, g)
  else
    let (i, g) := g.numberOf a
    let (j, g) := g.numberOf b
    (true, g.insertEdge i j)

/-- The declarations with the given numbers. -/
def declarations (numbers : List Nat) : List Declaration := numbers.filterMap (g.nodes[·]?)

/-- The declarations at the ends of an edge. -/
def ends? (e : Nat × Nat) : Option (Declaration × Declaration) :=
  match g.nodes[e.1]?, g.nodes[e.2]? with
  | some a, some b => some (a, b)
  | _, _ => none

/-- The edges as pairs of declarations, in the order in which they came. -/
def edgeList : List (Declaration × Declaration) := g.edges.toList.filterMap g.ends?

/-- What a declaration refers to, the latest one first. -/
def targets (d : Declaration) : List Declaration :=
  match g.number? d with
  | some i => g.declarations (g.successorsOf i)
  | none => []

end ReferenceGraph

end GoReach
