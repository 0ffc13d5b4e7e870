import GoReach.Syntax.Node

/-!
# Walking through a syntax tree

A cursor is a place in a tree.  It knows the node there, the siblings after it, and every ancestor
with the siblings after that, so it can move down, sideways and up.  `Node.walk` moves a cursor
through the whole tree: down if it can, else to the next sibling, else up until there is one.  The
visitor is told the ancestors of every node, and stops the walk by failing.

The walk keeps the ancestors on a stack of its own: a node is put on it on the way down, and taken
off on the way up.
-/

namespace GoReach.Syntax

structure Cursor where
  focus : Node
  /-- The siblings after the focus. -/
  after : List Node
  /-- The way back up: every ancestor, the nearest one first, with the siblings after it. -/
  path : List (Node × List Node)

namespace Cursor

def ofRoot (root : Node) : Cursor := ⟨root, [], []⟩

def firstChild? (c : Cursor) : Option Cursor :=
  match c.focus.children with
  | [] => none
  | child :: rest => some ⟨child, rest, (c.focus, c.after) :: c.path⟩

def nextSibling? (c : Cursor) : Option Cursor :=
  match c.after with
  | [] => none
  | sibling :: rest => some ⟨sibling, rest, c.path⟩

def parent? (c : Cursor) : Option Cursor :=
  match c.path with
  | [] => none
  | (parent, after) :: path => some ⟨parent, after, path⟩

/-! ## What a move does -/

theorem firstChild?_eq_none_iff {c : Cursor} : c.firstChild? = none ↔ c.focus.children = [] := by
  cases h : c.focus.children <;> simp [firstChild?, h]

theorem firstChild?_eq_some_iff {c d : Cursor} :
    c.firstChild? = some d ↔
      c.focus.children = d.focus :: d.after ∧ (c.focus, c.after) :: c.path = d.path := by
  obtain ⟨focus, after, path⟩ := d
  cases h : c.focus.children <;> simp [firstChild?, h, and_assoc]

theorem nextSibling?_eq_none_iff {c : Cursor} : c.nextSibling? = none ↔ c.after = [] := by
  cases h : c.after <;> simp [nextSibling?, h]

theorem nextSibling?_eq_some_iff {c d : Cursor} :
    c.nextSibling? = some d ↔ c.after = d.focus :: d.after ∧ c.path = d.path := by
  obtain ⟨focus, after, path⟩ := d
  cases h : c.after <;> simp [nextSibling?, h, and_assoc]

theorem parent?_eq_none_iff {c : Cursor} : c.parent? = none ↔ c.path = [] := by
  cases h : c.path <;> simp [parent?, h]

theorem parent?_eq_some_iff {c p : Cursor} :
    c.parent? = some p ↔ c.path = (p.focus, p.after) :: p.path := by
  obtain ⟨focus, after, path⟩ := p
  cases h : c.path <;> simp [parent?, h, Prod.ext_iff, and_assoc]

/-! ## The walk -/

/-- The next sibling, or that of the nearest ancestor that has one.  An ancestor is taken off the
stack with every step up. -/
def beyond? (c : Cursor) (ancestors : Array Node) : Option (Cursor × Array Node) :=
  match c.nextSibling? with
  | some d => some (d, ancestors)
  | none =>
    match _h : c.parent? with
    | none => none
    | some p => p.beyond? ancestors.pop
termination_by c.path.length
decreasing_by simp [parent?_eq_some_iff.1 _h]

/-- The next place in the walk, and the stack there. -/
def next? (c : Cursor) (ancestors : Array Node) : Option (Cursor × Array Node) :=
  match c.firstChild? with
  | some d => some (d, ancestors.push c.focus)
  | none => c.beyond? ancestors

/-- Number of nodes on the way up that are still to come. -/
def pendingAbove : List (Node × List Node) → Nat
  | [] => 0
  | (_, after) :: path => Node.sizeOfList after + pendingAbove path

/-- Number of nodes that are still to come, the focus included. -/
def pending (c : Cursor) : Nat := c.focus.size + Node.sizeOfList c.after + pendingAbove c.path

theorem pending_beyond? {c d : Cursor} {ancestors rest : Array Node}
    (h : c.beyond? ancestors = some (d, rest)) :
    d.pending = Node.sizeOfList c.after + pendingAbove c.path := by
  fun_induction beyond? c ancestors with
  | case1 c ancestors e he =>
    obtain ⟨hafter, hpath⟩ := nextSibling?_eq_some_iff.1 he
    simp only [Option.some.injEq, Prod.mk.injEq] at h
    rw [← h.1, pending, hafter, hpath]
    simp [Node.sizeOfList]
  | case2 c ancestors he hp => simp at h
  | case3 c ancestors he p hp ih =>
    rw [ih h, nextSibling?_eq_none_iff.1 he, parent?_eq_some_iff.1 hp]
    simp [pendingAbove, Node.sizeOfList]

/-- Every step of the walk leaves one node behind. -/
theorem pending_next? {c d : Cursor} {ancestors rest : Array Node}
    (h : c.next? ancestors = some (d, rest)) : d.pending + 1 = c.pending := by
  have hsize : c.focus.size = 1 + Node.sizeOfList c.focus.children := by
    cases c.focus with
    | node info children => simp [Node.size, Node.children]
  rw [next?] at h
  split at h
  next e he =>
    obtain ⟨hchildren, hpath⟩ := firstChild?_eq_some_iff.1 he
    simp only [Option.some.injEq, Prod.mk.injEq] at h
    rw [← h.1, pending, pending, hsize, hchildren, ← hpath]
    simp only [pendingAbove, Node.sizeOfList]
    omega
  next he =>
    rw [pending_beyond? h, pending, hsize, firstChild?_eq_none_iff.1 he]
    simp only [Node.sizeOfList]
    omega

/-- Visit the focus and all that comes after it. -/
def walk {σ ε : Type} (visit : σ → List Node → Node → Except ε σ) (c : Cursor)
    (ancestors : Array Node) (s : σ) : Except ε σ :=
  match visit s ancestors.toList c.focus with
  | .error e => .error e
  | .ok s =>
    match _h : c.next? ancestors with
    | none => .ok s
    | some (d, ancestors) => walk visit d ancestors s
termination_by c.pending
decreasing_by
  have := pending_next? _h
  omega

end Cursor

/-- Visit all nodes of a tree, each with its ancestors, the root first. -/
def Node.walk {σ ε : Type} (visit : σ → List Node → Node → Except ε σ) (root : Node) (s : σ) :
    Except ε σ :=
  (Cursor.ofRoot root).walk visit #[] s

end GoReach.Syntax
