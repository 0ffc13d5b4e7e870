import GoReach.Grammar.Language
import GoReach.Parse.Source

/-!
# Trees under construction

While a text is being read, every stretch of it that has been understood is a tree.  A tree carries
sums over its parts that decide between readings:

* its **cost**: how much had to be repaired.  A token that was made up costs a fixed amount; text
  that was passed over costs by its characters, lines and visible trees;
* its **weight**: how much the grammar prefers it;
* its **size**: how many nodes it has, which measures progress.
-/

namespace GoReach.Parse

open GoReach.Grammar

/-- The root of a tree, with sums over the whole tree.  Places are numbers of characters. -/
structure Root where
  label : Label
  /-- Where the blanks before the tree begin. -/
  origin : Nat
  start : Nat
  stop : Nat
  /-- The tree may stand anywhere; it is no part of a production. -/
  extra : Bool := false
  /-- A token that is not in the text. -/
  missing : Bool := false
  layout : Nat := 0
  cost : Nat := 0
  weight : Int := 0
  size : Nat := 1
  /-- Number of visible trees right below, or below hidden trees. -/
  visible : Nat := 0
  /-- The token's text begins with a keyword. -/
  keywordLike : Bool := false
  /-- The state for which a token was read. -/
  state : Nat := 0
deriving Inhabited

inductive Tree where
  | node (root : Root) (children : List Tree)
deriving Inhabited

namespace Tree

def root : Tree → Root
  | .node r _ => r

def children : Tree → List Tree
  | .node _ cs => cs

def mapRoot (f : Root → Root) : Tree → Tree
  | .node r cs => .node (f r) cs

def label (t : Tree) : Label := t.root.label
def cost (t : Tree) : Nat := t.root.cost
def weight (t : Tree) : Int := t.root.weight
def size (t : Tree) : Nat := t.root.size
def extra (t : Tree) : Bool := t.root.extra

def isError (t : Tree) : Bool := t.label == .error

end Tree

/-! ## Costs -/

/-- The cost of each repair. -/
def costOfRepair : Nat := 500
/-- The cost of each token that was made up, beside the repair. -/
def costOfMissing : Nat := 110
/-- The cost of each visible tree that was passed over. -/
def costOfTree : Nat := 100
/-- The cost of each byte that was passed over. -/
def costOfByte : Nat := 1
/-- The cost of each line that was passed over. -/
def costOfLine : Nat := 30

/-- A text to be read in a language. -/
structure Reader where
  language : Language
  source : Source
  /-- The class of every character. -/
  classes : Array Nat
deriving Inhabited

namespace Reader

def make (language : Language) (text : String) : Reader :=
  let source := Source.ofString text
  { language, source
    classes := source.chars.map fun c => language.scanner.alphabet.classOf c.toNat }

variable (r : Reader)

/-- The cost of the characters between two places. -/
def costBetween (i j : Nat) : Nat :=
  costOfByte * (r.source.offset j - r.source.offset i) +
    costOfLine * (r.source.line j - r.source.line i)

/-- A token. -/
def token (terminal origin start stop : Nat) : Tree :=
  .node { label := .symbol (.terminal terminal), origin, start, stop
          extra := terminal == r.language.endOfInput } []

/-- A token that is not in the text. -/
def missingToken (terminal place : Nat) : Tree :=
  .node { label := .symbol (.terminal terminal), origin := place, start := place, stop := place
          missing := true, cost := costOfMissing + costOfRepair } []

/-- What one child adds to the root of a tree; `name` is the name that the production gives it. -/
def addChild (root : Root) (name : Option String) (child : Tree) : Root :=
  let c := child.root
  let isVisible := (name.isSome && !c.extra) || r.language.visible c.label
  { root with
    stop := c.stop
    cost := root.cost + if c.label == .passed then 0 else c.cost
    weight := root.weight + c.weight
    size := root.size + c.size
    visible := root.visible + if isVisible then 1 else c.visible }

/-- Go through the children with the names that the production gives; extras take none. -/
def addChildren (root : Root) : List (Option String) → List Tree → Root
  | _, [] => root
  | names, c :: rest =>
    let root := r.addChild root names.head?.join c
    addChildren root (if c.extra then names else names.drop 1) rest

/-- The cost of a child of a tree that is passed over as a whole. -/
def costOfPassed (child : Tree) : Nat :=
  if child.extra || (child.isError && child.children.isEmpty) then 0
  else if r.language.visible child.label then costOfTree
  else costOfTree * child.root.visible

/-- A tree with the given children; without children it is empty and stands at `place`. -/
def node (label : Label) (children : List Tree) (layout place : Nat) : Tree :=
  let first := match children.head? with
    | some c =>
      { label, origin := c.root.origin, start := c.root.start, stop := c.root.stop, layout }
    | none => { label, origin := place, start := place, stop := place, layout : Root }
  let root := r.addChildren first (r.language.layout layout).names children
  let repair :=
    if label == .error || label == .passed then
      costOfRepair + r.costBetween root.start root.stop +
        children.foldl (fun sum c => sum + r.costOfPassed c) 0
    else 0
  .node { root with cost := root.cost + repair } children

end Reader

/-! ## Comparing readings -/

mutual

/-- Compare two trees by their labels, numbers of children and children in order. -/
def compareTrees (l : Language) : Tree → Tree → Ordering
  | .node a as, .node b bs =>
    (compare (l.order a.label) (l.order b.label)).then <|
      (compare as.length bs.length).then (compareForests l as bs)

def compareForests (l : Language) : List Tree → List Tree → Ordering
  | a :: as, b :: bs => (compareTrees l a b).then (compareForests l as bs)
  | _, _ => .eq

end

/-- Whether the second of two readings of the same text is to be preferred: by cost, then by
weight, then by the order of labels. -/
def prefersSecond (l : Language) (a b : Tree) : Bool :=
  if b.cost != a.cost then b.cost < a.cost
  else if b.weight != a.weight then b.weight > a.weight
  else a.cost > 0 || compareTrees l a b == .gt

end GoReach.Parse
