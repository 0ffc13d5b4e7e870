import GoReach.Text.Position

/-!
# Syntax trees

A syntax tree says how a text is put together: every node has a kind, the text that it covers, and
its parts as children.  Words and signs that only hold a construction together are nodes too, but
they are not *named*.  A child may stand in a *field* of its parent, which says what part it plays.

A text that does not follow the grammar still has a tree.  What does not fit is in nodes marked as
errors, and what had to be made up is in nodes marked as missing.
-/

namespace GoReach.Syntax

/-- What a node says about itself. -/
structure NodeInfo where
  /-- Tells the node apart from all others of its tree. -/
  id : Nat := 0
  kind : String
  named : Bool := true
  /-- The field of the parent in which the node stands. -/
  field : Option String := none
  text : String := ""
  start : Position := ⟨1, 1⟩
  /-- Just after the last byte. -/
  stop : Position := ⟨1, 1⟩
  isError : Bool := false
  isMissing : Bool := false
  /-- There is an error or something missing in the node or below it. -/
  hasError : Bool := false
deriving BEq, DecidableEq, Repr, Inhabited

inductive Node where
  | node (info : NodeInfo) (children : List Node)
deriving Repr, Inhabited

namespace Node

def info : Node → NodeInfo
  | .node i _ => i

def children : Node → List Node
  | .node _ cs => cs

def kind (n : Node) : String := n.info.kind
def text (n : Node) : String := n.info.text
def isNamed (n : Node) : Bool := n.info.named

/-- The node does not fit, or it is not in the text. -/
def isFault (n : Node) : Bool := n.info.isError || n.info.isMissing

def namedChildren (n : Node) : List Node := n.children.filter (·.isNamed)

/-- The children in a field, in order. -/
def childrenInField (n : Node) (field : String) : List Node :=
  n.children.filter fun c => c.info.field == some field

/-- The first child in a field. -/
def childInField? (n : Node) (field : String) : Option Node :=
  n.children.find? fun c => c.info.field == some field

/-- The first child of a kind. -/
def childOfKind? (n : Node) (kind : String) : Option Node :=
  n.children.find? fun c => c.kind == kind

mutual

/-- Number of nodes. -/
def size : Node → Nat
  | .node _ cs => 1 + sizeOfList cs

def sizeOfList : List Node → Nat
  | [] => 0
  | c :: rest => c.size + sizeOfList rest

end

theorem size_le_sizeOfList {c : Node} {cs : List Node} (h : c ∈ cs) : c.size ≤ sizeOfList cs := by
  induction cs with
  | nil => simp at h
  | cons d rest ih =>
    simp only [List.mem_cons] at h
    simp only [sizeOfList]
    rcases h with rfl | h
    · omega
    · have := ih h
      omega

/-- A child is smaller than its parent. -/
theorem size_lt_of_mem {c n : Node} (h : c ∈ n.children) : c.size < n.size := by
  obtain ⟨info, cs⟩ := n
  have := size_le_sizeOfList h
  simp only [size, children] at this ⊢
  omega

/-! ## Identity -/

mutual

/-- Number the nodes in the order of the text, starting at `n`. -/
def numberFrom (n : Nat) : Node → Node
  | .node info cs => .node { info with id := n } (numberAllFrom (n + 1) cs)

def numberAllFrom (n : Nat) : List Node → List Node
  | [] => []
  | c :: rest => c.numberFrom n :: numberAllFrom (n + c.size) rest

end

/-! ## The first fault -/

mutual

/-- Follow the first children in which something is wrong, down to a fault. -/
def fault : Node → Node
  | .node info cs =>
    if info.isError || info.isMissing then .node info cs
    else (faultAmong cs).getD (.node info cs)

def faultAmong : List Node → Option Node
  | [] => none
  | c :: rest =>
    if c.info.hasError || c.info.isMissing then some (fault c) else faultAmong rest

end

/-- The first node that does not fit or is missing, if there is one in the tree. -/
def firstFault? (root : Node) : Option Node :=
  if root.info.hasError then some (fault root) else none

end Node

end GoReach.Syntax
