import GoReach.Parse.Tree

/-!
# The forking stack

A text may have several readings at once.  Each reading in progress is a *version*: a stack of
states with trees between them.  Versions share what they have in common, so the stacks form a
graph.  Its nodes are numbered; a node has links to the nodes below it, each with the tree that
lies between them.  Two versions in the same state at the same place are joined, and the links of
the one go to the other.

A link without a tree marks the place where a version lost its way.
-/

namespace GoReach.Parse

open GoReach.Grammar

structure Link where
  node : Nat
  tree : Option Tree
deriving Inhabited

structure StackNode where
  state : Nat
  /-- The place in the text that the versions through this node have reached. -/
  place : Nat
  links : List Link := []
  /-- Sums over the trees of the best way down. -/
  cost : Nat := 0
  weight : Int := 0
  size : Nat := 0
deriving Inhabited

/-- A state below a version, where it was, and how many trees lie above it. -/
structure Below where
  place : Nat
  depth : Nat
  state : Nat
deriving Inhabited

inductive Status where
  | active
  /-- The token does not fit; to be looked at again when no version can go on. -/
  | paused (token : Tree)
  | halted
deriving Inhabited

def Status.isActive : Status → Bool
  | .active => true
  | _ => false

def Status.isPaused : Status → Bool
  | .paused _ => true
  | _ => false

def Status.isHalted : Status → Bool
  | .halted => true
  | _ => false

/-- The top of a version. -/
structure Head where
  node : Nat
  status : Status := .active
  /-- The size of the version when it last met an error. -/
  sizeAtError : Nat := 0
  /-- The states below, recorded when the version lost its way. -/
  below : Option (List Below) := none
deriving Inhabited

structure Machine where
  nodes : Array StackNode
  heads : Array Head
  /-- The best reading of the whole text so far. -/
  finished : Option Tree := none
  /-- How many readings have reached the end. -/
  accepted : Nat := 0
  /-- The last token read. -/
  lastToken : Option Tree := none
deriving Inhabited

namespace Machine

/-- A machine before the first character, in the given state. -/
def start (state : Nat) : Machine :=
  { nodes := #[{ state, place := 0 }], heads := #[{ node := 0 }] }

variable (m : Machine)

def node (i : Nat) : StackNode := m.nodes.getD i default

def head (v : Nat) : Head := m.heads.getD v default

/-- The node on top of a version. -/
def top (v : Nat) : StackNode := m.node (m.head v).node

def versions : Nat := m.heads.size

def modifyHead (v : Nat) (f : Head → Head) : Machine := { m with heads := m.heads.modify v f }

def removeVersion (v : Nat) : Machine := { m with heads := m.heads.eraseIdxIfInBounds v }

def halt (v : Nat) : Machine := m.modifyHead v fun h => { h with status := .halted }

/-- Put a tree on top of a version and go to a state.  No tree marks an error. -/
def push (v : Nat) (tree : Option Tree) (state : Nat) : Machine :=
  let below := (m.head v).node
  let n := m.node below
  let link : Link := ⟨below, tree⟩
  let fresh : StackNode := match tree with
    | some t =>
      { state, place := t.root.stop, links := [link], cost := n.cost + t.cost
        weight := n.weight + t.weight, size := n.size + t.size }
    | none => { n with state, links := [link] }
  let id := m.nodes.size
  let m := { m with nodes := m.nodes.push fresh }
  m.modifyHead v fun h =>
    { h with node := id, sizeAtError := if tree.isNone then fresh.size else h.sizeAtError }

/-- What a version has cost so far. -/
def cost (v : Nat) : Nat :=
  let n := m.top v
  let lost := n.state == 0 && match n.links.head? with
    | some l => l.tree.isNone
    | none => false
  n.cost + if (m.head v).status.isPaused || lost then costOfRepair else 0

/-- How much a version has grown since it last met an error. -/
def growth (v : Nat) : Nat := (m.top v).size - (m.head v).sizeAtError

/-- A version that has shrunk since it last met an error is measured from its present size. -/
def measureAnew (v : Nat) : Machine :=
  let size := (m.top v).size
  m.modifyHead v fun h => { h with sizeAtError := min h.sizeAtError size }

/-! ## Ways down the stack -/

end Machine

/-- A way down from the top of a version. -/
structure Way where
  node : Nat
  /-- The trees on the way, the lowest one first. -/
  trees : List Tree := []
  /-- Number of trees that are not extra, and of errors. -/
  depth : Nat := 0
deriving Inhabited

/-- One link further down. -/
def Way.down (w : Way) (l : Link) : Way :=
  match l.tree with
  | some t => ⟨l.node, t :: w.trees, if t.extra then w.depth else w.depth + 1⟩
  | none => ⟨l.node, w.trees, w.depth + 1⟩

/-- The most ways that are followed at a time. -/
def wayLimit : Nat := 64

namespace Machine

/-- One round: every way goes one link down, or stops.  The first link of a node continues the way
in its place, the others come after all ways that there are. -/
def round {σ : Type} (m : Machine) (visit : σ → Way → σ × Bool) :
    List Way → List Way → List Way → σ → List Way × σ
  | [], continued, branched, s => (continued.reverse ++ branched.reverse, s)
  | w :: rest, continued, branched, s =>
    let (s, stop) := visit s w
    match stop, (m.node w.node).links with
    | false, first :: others =>
      let room := wayLimit - (continued.length + 1 + rest.length + branched.length)
      let branches := (others.take room).map w.down
      round m visit rest (w.down first :: continued) (branches.reverse ++ branched) s
    | _, _ => round m visit rest continued branched s

def rounds {σ : Type} (m : Machine) (visit : σ → Way → σ × Bool) : Nat → List Way → σ → σ
  | 0, _, s => s
  | _, [], s => s
  | fuel + 1, ways, s =>
    let (ways, s) := round m visit ways [] [] s
    rounds m visit fuel ways s

/-- Follow all ways down from a version, each until `visit` says to stop. -/
def descend {σ : Type} (m : Machine) (v : Nat) (visit : σ → Way → σ × Bool) (s : σ) : σ :=
  rounds m visit (m.nodes.size + 1) [{ node := (m.head v).node }] s

/-- The ways down over exactly `count` trees. -/
def waysOver (m : Machine) (v count : Nat) : List Way :=
  (m.descend v
    (fun found w => if w.depth == count then (w :: found, true) else (found, false)) []).reverse

/-- The ways down to the bottom. -/
def waysToBottom (m : Machine) (v : Nat) : List Way :=
  (m.descend v
    (fun found w =>
      if (m.node w.node).links.isEmpty then (w :: found, true) else (found, false)) []).reverse

/-- The first way down over one tree that is an error. -/
def wayOverError? (m : Machine) (v : Nat) : Option Way :=
  m.descend v
    (fun found w =>
      match w.trees.getLast? with
      | none => (found, false)
      | some t => (if found.isNone && t.isError then some w else found, true))
    none

/-- The deepest that states below a version are recorded. -/
def depthLimit : Nat := 16

/-- Whether a state is already recorded at a depth; the list is the latest first. -/
def recorded (depth state : Nat) : List Below → Bool
  | [] => false
  | b :: rest =>
    if b.depth < depth then false
    else (b.depth == depth && b.state == state) || recorded depth state rest

/-- Record the states below a version. -/
def recordBelow (m : Machine) (v : Nat) : Machine :=
  let found := m.descend v
    (fun (found : List Below) w =>
      let n := m.node w.node
      if w.depth > depthLimit then (found, true)
      else if recorded w.depth n.state found then (found, false)
      else (⟨n.place, w.depth, n.state⟩ :: found, false))
    []
  m.modifyHead v fun h => { h with below := some found.reverse }

/-! ## Versions -/

/-- Ways grouped by the node that they lead to, in the order in which the nodes are first met. -/
def groupByNode (ways : List Way) : List (Nat × List (List Tree)) :=
  (withoutCopies (ways.map (·.node))).map fun n =>
    (n, ways.filterMap fun w => if w.node == n then some w.trees else none)

/-- A new version on top of a node, with the history of another one. -/
def fork (m : Machine) (v node : Nat) : Machine :=
  { m with heads := m.heads.push { node, sizeAtError := (m.head v).sizeAtError } }

/-- Move a version to the place of another one. -/
def renumber (m : Machine) (v w : Nat) : Machine :=
  if v == w then m
  else
    let source := m.head v
    let target := m.head w
    let merged := { source with below := source.below <|> target.below }
    (m.modifyHead w fun _ => merged).removeVersion v

def swapVersions (m : Machine) (v w : Nat) : Machine :=
  let a := m.head v
  let b := m.head w
  (m.modifyHead v fun _ => b).modifyHead w fun _ => a

def canMerge (m : Machine) (v w : Nat) : Bool :=
  let a := m.top v
  let b := m.top w
  (m.head v).status.isActive && (m.head w).status.isActive &&
    a.state == b.state && a.place == b.place && a.cost == b.cost

/-- Whether two trees between the same states are taken for the same. -/
def interchangeable : Option Tree → Option Tree → Bool
  | none, none => true
  | some s, some t =>
    let a := s.root
    let b := t.root
    a.label == b.label &&
      ((a.cost > 0 && b.cost > 0) ||
        (a.start - a.origin == b.start - b.origin && a.stop - a.start == b.stop - b.start &&
          s.children.length == t.children.length && a.extra == b.extra))
  | _, _ => false

def Link.weightOf (m : Machine) (l : Link) : Int :=
  (m.node l.node).weight + match l.tree with
    | some t => t.weight
    | none => 0

def Link.sizeOf (m : Machine) (l : Link) : Nat :=
  (m.node l.node).size + match l.tree with
    | some t => t.size
    | none => 0

/-- The most links that a node keeps. -/
def linkLimit : Nat := 8

/-- What to do with a link that comes to a node, as the node's links tell. -/
inductive Arrival where
  /-- A link to the same node with the same tree is there already, at the given place. -/
  | known (i : Nat)
  /-- A link with the same tree leads to a node that can be joined with the new one. -/
  | mergeable (i : Nat)
  | fresh

def arrival (m : Machine) (links : List Link) (l : Link) : Arrival :=
  let verdict (e : Link) : Option Bool :=
    if !interchangeable e.tree l.tree then none
    else if e.node == l.node then some true
    else
      let a := m.node e.node
      let b := m.node l.node
      if a.state == b.state && a.place == b.place && a.cost == b.cost then some false else none
  match links.findIdx? fun e => (verdict e).isSome with
  | none => .fresh
  | some i =>
    if (links[i]?.bind verdict).getD false then .known i else .mergeable i

def setNode (m : Machine) (i : Nat) (n : StackNode) : Machine :=
  { m with nodes := m.nodes.setIfInBounds i n }

/-- Add a link to a node.  Nodes that two like trees lead to are joined in turn. -/
def addLink : Nat → Machine → Nat → Link → Machine
  | 0, m, _, _ => m
  | fuel + 1, m, i, l =>
    if l.node == i then m
    else
      let n := m.node i
      let weight := Link.weightOf m l
      match m.arrival n.links l with
      | .known k =>
        let old : Int := ((n.links[k]?.bind (·.tree)).map (·.weight)).getD 0
        let new : Int := (l.tree.map (·.weight)).getD 0
        if new > old then m.setNode i { n with links := n.links.set k l, weight } else m
      | .mergeable k =>
        let below := ((n.links[k]?).map (·.node)).getD 0
        let m := (m.node l.node).links.foldl (fun m l => addLink fuel m below l) m
        let n := m.node i
        m.setNode i { n with weight := max n.weight weight }
      | .fresh =>
        if n.links.length ≥ linkLimit then m
        else
          m.setNode i { n with
            links := n.links ++ [l]
            size := max n.size (Link.sizeOf m l)
            weight := max n.weight weight }

/-- Join the second version to the first, if they are in the same state at the same place. -/
def merge? (m : Machine) (v w : Nat) : Option Machine :=
  if m.canMerge v w then
    let target := (m.head v).node
    let m := (m.top w).links.foldl (fun m l => addLink (m.nodes.size + 1) m target l) m
    let n := m.node target
    let m := if n.state == 0 then m.modifyHead v fun h => { h with sizeAtError := n.size } else m
    some (m.removeVersion w)
  else none

end Machine

end GoReach.Parse
