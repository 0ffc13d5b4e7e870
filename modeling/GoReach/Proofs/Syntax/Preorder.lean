import Mathlib.Data.List.Chain
import Mathlib.Data.List.Nodup
import GoReach.Syntax.Cursor

/-!
# The walk in order of the text

`Node.visits` lists the nodes of a tree by plain recursion: a node before its children, the children
from left to right, each with its ancestors from the root down.  `Node.walk_eq_foldlM` says that the
walk with a cursor calls its visitor on exactly this list, and stops where the visitor fails.

Two things carry the induction.  One is the list of visits that are still to come
(`Cursor.remaining`): a cursor's own, those of the siblings after it, and those of the siblings
after each ancestor.  Every step of the cursor takes the first of them away
(`Cursor.remaining_eq_cons`).  The other is that the stack of the walk holds the ancestors of the
cursor, which every step keeps (`Cursor.ancestors_next?`): what goes down puts one node on the
stack, and what goes up takes one off.

A visit is a way from the root down to a node (`Node.mem_visits_iff`); so the ancestors of a node
and the children of a node are visited as well.

The numbers that `Node.numberFrom` gives to the nodes are consecutive in this order
(`ids_numberFrom`), so no two nodes of a numbered tree share one.
-/

namespace GoReach.Syntax

namespace Node

mutual

/-- The nodes of a tree in the order of its text, each with its ancestors, the root first. -/
def visits (above : List Node) : Node → List (List Node × Node)
  | .node info cs => (above, .node info cs) :: visitsAll (above ++ [.node info cs]) cs

def visitsAll (above : List Node) : List Node → List (List Node × Node)
  | [] => []
  | c :: rest => c.visits above ++ visitsAll above rest

end

/-- All nodes of a tree, in the order of its text. -/
def nodes (t : Node) : List Node := (t.visits []).map Prod.snd

/-- A node is visited before what is below it. -/
lemma visits_eq_cons (above : List Node) (t : Node) :
    t.visits above = (above, t) :: visitsAll (above ++ [t]) t.children := by
  obtain ⟨info, cs⟩ := t
  rw [visits, children]

end Node

/-! ## The walk -/

namespace Cursor

/-- The ancestors of the focus, the root first. -/
def ancestors (c : Cursor) : List Node := (c.path.map Prod.fst).reverse

/-! ### The stack -/

/-- When the cursor has moved on, the stack holds what is above it. -/
lemma ancestors_beyond? {c d : Cursor} {stack rest : Array Node}
    (hstack : stack.toList = c.ancestors) (h : c.beyond? stack = some (d, rest)) :
    rest.toList = d.ancestors := by
  fun_induction beyond? c stack with
  | case1 c stack e he =>
      obtain ⟨-, hpath⟩ := nextSibling?_eq_some_iff.1 he
      simp only [Option.some.injEq, Prod.mk.injEq] at h
      rw [← h.1, ← h.2, hstack, ancestors, ancestors, hpath]
  | case2 c stack he hp => simp at h
  | case3 c stack he p hp ih =>
      -- one step up, one ancestor less
      have hparent : c.ancestors = p.ancestors ++ [p.focus] := by
        simp [ancestors, parent?_eq_some_iff.1 hp]
      apply ih _ h
      rw [Array.toList_pop, hstack, hparent, List.dropLast_concat]

/-- After every step of the cursor the stack holds the ancestors of the focus. -/
lemma ancestors_next? {c d : Cursor} {stack rest : Array Node} (hstack : stack.toList = c.ancestors)
    (h : c.next? stack = some (d, rest)) : rest.toList = d.ancestors := by
  rw [next?] at h
  split at h
  next e he =>
    obtain ⟨-, hpath⟩ := firstChild?_eq_some_iff.1 he
    simp only [Option.some.injEq, Prod.mk.injEq] at h
    rw [← h.1, ← h.2, Array.toList_push, hstack, ancestors, ancestors, ← hpath]
    simp
  next => exact ancestors_beyond? hstack h

/-! ### The visits to come -/

/-- The visits to the siblings after each ancestor. -/
def remainingAbove : List (Node × List Node) → List (List Node × Node)
  | [] => []
  | (_, after) :: path => Node.visitsAll (path.map Prod.fst).reverse after ++ remainingAbove path

/-- The visits that are still to come, the focus first. -/
def remaining (c : Cursor) : List (List Node × Node) :=
  c.focus.visits c.ancestors ++ Node.visitsAll c.ancestors c.after ++ remainingAbove c.path

/-- Going up and on leaves the visits of the siblings that were passed by on the way down. -/
lemma remaining_beyond? (c : Cursor) (stack : Array Node) :
    (c.beyond? stack).elim [] (fun p => p.1.remaining)
      = Node.visitsAll c.ancestors c.after ++ remainingAbove c.path := by
  fun_induction beyond? c stack with
  | case1 c stack d hd =>
      obtain ⟨hafter, hpath⟩ := nextSibling?_eq_some_iff.1 hd
      simp [remaining, ancestors, Node.visitsAll, hafter, hpath]
  | case2 c stack hd hp =>
      simp [remainingAbove, Node.visitsAll, nextSibling?_eq_none_iff.1 hd, parent?_eq_none_iff.1 hp]
  | case3 c stack hd p hp ih =>
      rw [ih]
      simp [remainingAbove, ancestors, Node.visitsAll, nextSibling?_eq_none_iff.1 hd,
        parent?_eq_some_iff.1 hp]

/-- A step of the cursor takes the visit to the focus away and keeps all others. -/
lemma remaining_eq_cons (c : Cursor) (stack : Array Node) :
    c.remaining = (c.ancestors, c.focus) :: (c.next? stack).elim [] fun p => p.1.remaining := by
  rw [remaining, Node.visits_eq_cons, next?]
  split
  next d hd =>
    obtain ⟨hchildren, hpath⟩ := firstChild?_eq_some_iff.1 hd
    simp [remaining, remainingAbove, ancestors, Node.visitsAll, hchildren, ← hpath]
  next hd =>
    rw [remaining_beyond?, firstChild?_eq_none_iff.1 hd, Node.visitsAll]
    rfl

/-- The walk from a cursor visits what remains, in order, up to the first failure. -/
lemma walk_eq_foldlM {σ ε : Type} (visit : σ → List Node → Node → Except ε σ) (c : Cursor)
    (stack : Array Node) (s : σ) (hstack : stack.toList = c.ancestors) :
    c.walk visit stack s = c.remaining.foldlM (fun s v => visit s v.1 v.2) s := by
  fun_induction walk visit c stack s with
  | case1 c stack s e he =>
      rw [remaining_eq_cons c stack, List.foldlM_cons, ← hstack, he]
      rfl
  | case2 c stack s s' hs hnext =>
      rw [remaining_eq_cons c stack, List.foldlM_cons, ← hstack, hs, hnext]
      rfl
  | case3 c stack s s' hs d rest hnext ih =>
      rw [ih (ancestors_next? hstack hnext), remaining_eq_cons c stack, List.foldlM_cons, ← hstack,
        hs, hnext]
      rfl

end Cursor

/-- **The walk is the recursive traversal.**  The visitor is called on the nodes in the order of the
text, each with its ancestors, up to the first node on which it fails. -/
theorem Node.walk_eq_foldlM {σ ε : Type} (visit : σ → List Node → Node → Except ε σ) (root : Node)
    (s : σ) : root.walk visit s = (root.visits []).foldlM (fun s v => visit s v.1 v.2) s := by
  have hempty : (#[] : Array Node).toList = (Cursor.ofRoot root).ancestors := rfl
  rw [Node.walk, Cursor.walk_eq_foldlM visit (Cursor.ofRoot root) #[] s hempty]
  simp [Cursor.remaining, Cursor.ofRoot, Cursor.ancestors, Cursor.remainingAbove, Node.visitsAll]

/-! ## Ways down the tree -/

namespace Node

/-- What is visited among trees is visited in one of them. -/
lemma mem_visitsAll_iff {above ts : List Node} {v : List Node × Node} :
    v ∈ visitsAll above ts ↔ ∃ c ∈ ts, v ∈ c.visits above := by
  induction ts with
  | nil => simp [visitsAll]
  | cons t ts ih => simp [visitsAll, ih]

/-- A visit comes with the way from the root to the node. -/
lemma exists_way_of_mem_visits {above : List Node} {t : Node} {v : List Node × Node}
    (hv : v ∈ t.visits above) :
    ∃ way, v.1 ++ [v.2] = above ++ t :: way ∧ (t :: way).IsChain fun a b => b ∈ a.children := by
  rw [visits_eq_cons, List.mem_cons] at hv
  rcases hv with rfl | hv
  · exact ⟨[], rfl, .singleton t⟩
  · obtain ⟨c, hc, hv⟩ := mem_visitsAll_iff.1 hv
    obtain ⟨way, hway, hchain⟩ := exists_way_of_mem_visits hv
    refine ⟨c :: way, ?_, .cons_cons hc hchain⟩
    rw [hway, List.append_assoc, List.singleton_append]
termination_by t.size
decreasing_by exact size_lt_of_mem hc

/-- Every way from the root leads to a visit. -/
lemma mem_visits_of_way {above way : List Node} {t : Node} {v : List Node × Node}
    (hway : v.1 ++ [v.2] = above ++ t :: way)
    (hchain : (t :: way).IsChain fun a b => b ∈ a.children) : v ∈ t.visits above := by
  rw [visits_eq_cons, List.mem_cons]
  induction way generalizing above t with
  | nil =>
      obtain ⟨habove, hlast⟩ := List.append_inj' hway rfl
      exact Or.inl (Prod.ext habove (List.singleton_inj.1 hlast))
  | cons c way ih =>
      obtain ⟨hc, hrest⟩ := List.isChain_cons_cons.1 hchain
      refine Or.inr (mem_visitsAll_iff.2 ⟨c, hc, ?_⟩)
      rw [visits_eq_cons, List.mem_cons]
      refine ih ?_ hrest
      rw [hway, List.append_assoc, List.singleton_append]

/-- The visits are the ways from the root down, from each node to one of its children. -/
lemma mem_visits_iff {t : Node} {v : List Node × Node} :
    v ∈ t.visits [] ↔
      ∃ way, v.1 ++ [v.2] = t :: way ∧ (t :: way).IsChain fun a b => b ∈ a.children :=
  ⟨exists_way_of_mem_visits, fun ⟨_, hway, hchain⟩ => mem_visits_of_way hway hchain⟩

/-- The nodes of a tree are those that are visited. -/
lemma mem_nodes_iff {t n : Node} : n ∈ t.nodes ↔ ∃ above, (above, n) ∈ t.visits [] := by
  simp [nodes]

/-- Whoever comes by an ancestor has visited it. -/
lemma mem_visits_of_ancestor {t a n : Node} {above below : List Node}
    (h : (above ++ a :: below, n) ∈ t.visits []) : (above, a) ∈ t.visits [] := by
  obtain ⟨way, hway, hchain⟩ := mem_visits_iff.1 h
  rw [← hway, List.append_assoc, List.cons_append] at hchain
  have hupper := (List.isChain_split.1 hchain).1
  cases above with
  | nil =>
      obtain ⟨rfl, -⟩ := List.cons.inj hway
      exact mem_visits_iff.2 ⟨[], rfl, hupper⟩
  | cons r above =>
      obtain ⟨rfl, -⟩ := List.cons.inj hway
      exact mem_visits_iff.2 ⟨above ++ [a], rfl, hupper⟩

/-- Children are visited below their parent, ... -/
lemma mem_visits_of_child {t n c : Node} {above : List Node} (h : (above, n) ∈ t.visits [])
    (hc : c ∈ n.children) : (above ++ [n], c) ∈ t.visits [] := by
  obtain ⟨way, hway, hchain⟩ := mem_visits_iff.1 h
  refine mem_visits_iff.2 ⟨way ++ [c], ?_, ?_⟩
  · rw [hway, List.cons_append]
  · rw [← List.cons_append, ← hway, List.append_assoc, List.singleton_append]
    exact List.isChain_append_cons_cons.2 ⟨hway ▸ hchain, hc, .singleton c⟩

/-- ... and what is visited below a node is its child. -/
lemma mem_children_of_mem_visits {t p n : Node} {above : List Node}
    (h : (above ++ [p], n) ∈ t.visits []) : n ∈ p.children := by
  obtain ⟨way, hway, hchain⟩ := mem_visits_iff.1 h
  rw [← hway, List.append_assoc, List.singleton_append] at hchain
  exact (List.isChain_append_cons_cons.1 hchain).2.1

lemma mem_nodes_of_mem_ancestors {t : Node} {v : List Node × Node} (hv : v ∈ t.visits [])
    {a : Node} (ha : a ∈ v.1) : a ∈ t.nodes := by
  obtain ⟨above, below, heq⟩ := List.append_of_mem ha
  have hvisit : (above ++ a :: below, v.2) ∈ t.visits [] := heq ▸ hv
  exact mem_nodes_iff.2 ⟨above, mem_visits_of_ancestor hvisit⟩

lemma mem_nodes_of_mem_children {t n c : Node} (hn : n ∈ t.nodes) (hc : c ∈ n.children) :
    c ∈ t.nodes := by
  obtain ⟨above, habove⟩ := mem_nodes_iff.1 hn
  exact mem_nodes_iff.2 ⟨above ++ [n], mem_visits_of_child habove hc⟩

lemma mem_nodes_self (t : Node) : t ∈ t.nodes :=
  mem_nodes_iff.2 ⟨[], mem_visits_iff.2 ⟨[], rfl, .singleton t⟩⟩

/-! ## Numbers -/

/-- No two nodes of a tree have the same number. -/
def DistinctIds (t : Node) : Prop := (t.nodes.map fun n => n.info.id).Nodup

/-- In such a tree the number tells which node it is. -/
lemma DistinctIds.eq_of_id_eq {t a b : Node} (h : t.DistinctIds) (ha : a ∈ t.nodes)
    (hb : b ∈ t.nodes) (hab : a.info.id = b.info.id) : a = b :=
  List.inj_on_of_nodup_map h ha hb hab

mutual

/-- Nodes are numbered in the order of the visits. -/
lemma ids_visits_numberFrom (above : List Node) (n : Nat) :
    ∀ t : Node, ((t.numberFrom n).visits above).map (fun v => v.2.info.id)
      = List.range' n t.size
  | .node info cs => by
      rw [numberFrom, visits, List.map_cons, ids_visitsAll_numberAllFrom, size,
        Nat.add_comm 1, List.range'_succ]
      rfl

lemma ids_visitsAll_numberAllFrom (above : List Node) (n : Nat) :
    ∀ ts : List Node, (visitsAll above (numberAllFrom n ts)).map (fun v => v.2.info.id)
      = List.range' n (sizeOfList ts)
  | [] => by
      rw [numberAllFrom, visitsAll, sizeOfList]
      rfl
  | t :: ts => by
      rw [numberAllFrom, visitsAll, List.map_append, ids_visits_numberFrom,
        ids_visitsAll_numberAllFrom, sizeOfList, ← List.range'_append_1]

end

/-- The numbers of a numbered tree are consecutive. -/
lemma ids_numberFrom (n : Nat) (t : Node) :
    (t.numberFrom n).nodes.map (fun n => n.info.id) = List.range' n t.size := by
  rw [nodes, List.map_map]
  exact ids_visits_numberFrom [] n t

/-- So no two nodes of a numbered tree have one number. -/
lemma distinctIds_numberFrom (n : Nat) (t : Node) : (t.numberFrom n).DistinctIds := by
  rw [DistinctIds, ids_numberFrom]
  exact List.nodup_range'

end Node

end GoReach.Syntax
