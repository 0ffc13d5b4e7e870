import Mathlib.Data.List.Basic
import GoReach.Graph.Basic
import GoReach.Proofs.Order

/-!
# The tables of a reference graph

A graph keeps its nodes, their numbers, its edges and the successors of every node in four tables,
and what `addNode` and `addEdge` promise depends on the tables agreeing with each other.

**Agreement.**  `Consistent` says that the table of numbers finds exactly the nodes, that edges join
nodes, and that the successors of a node are the targets of its edges, the latest one first.  Under
it, the views `containsNode`, `containsEdge` and `targets` can be read off the lists of nodes and
edges (`Consistent.containsNode_iff`, `Consistent.containsEdge_iff`, `Consistent.targets_eq`).

**Steps.**  `Consistent.addEdge_cases` says all that a call of `addEdge` can do: nothing, or append
what is missing of its two ends to the nodes and one pair to the edges.  Neither step looks at the
kinds and spans of declarations: a node is never replaced by an equal one.
-/

namespace GoReach

namespace ReferenceGraph

/-- The tables of a graph agree with each other. -/
structure Consistent (g : ReferenceGraph) : Prop where
  /-- The table of numbers finds exactly the nodes. -/
  numbers_iff : ∀ (k : Declaration.Key) (i : Nat),
    g.numbers[k]? = some i ↔ ∃ d : Declaration, g.nodes[i]? = some d ∧ d.key = k
  /-- Edges join nodes. -/
  edges_lt : ∀ e ∈ g.edges.toList, e.1 < g.nodes.size ∧ e.2 < g.nodes.size
  successors_size : g.successors.size = g.nodes.size
  /-- The successors of a node are the targets of its edges, the latest one first. -/
  successors_eq : ∀ i,
    g.successorsOf i = ((g.edges.toList.filter fun e => e.1 == i).map Prod.snd).reverse

lemma consistent_empty : Consistent empty where
  numbers_iff k i := by simp [empty]
  edges_lt e he := by simp [empty] at he
  successors_size := rfl
  successors_eq i := by simp [empty, successorsOf]

lemma ends?_eq_some_iff {g : ReferenceGraph} {e : Nat × Nat} {a b : Declaration} :
    g.ends? e = some (a, b) ↔ g.nodes[e.1]? = some a ∧ g.nodes[e.2]? = some b := by
  rw [ends?]
  split
  next x y hx hy => simp [hx, hy]
  next hnone =>
    refine iff_of_false (by simp) ?_
    rintro ⟨ha, hb⟩
    exact hnone a b ha hb

/-- An edge joins the nodes at its two numbers. -/
lemma mem_edgeList_iff {g : ReferenceGraph} {a b : Declaration} :
    (a, b) ∈ g.edgeList ↔
      ∃ i j : Nat, (i, j) ∈ g.edges.toList ∧ g.nodes[i]? = some a ∧ g.nodes[j]? = some b := by
  simp only [edgeList, List.mem_filterMap, Prod.exists, ends?_eq_some_iff]

lemma mem_nodes_iff {g : ReferenceGraph} {d : Declaration} :
    d ∈ g.nodes.toList ↔ ∃ i : Nat, g.nodes[i]? = some d := by
  rw [List.mem_iff_getElem?]
  simp only [Array.getElem?_toList]

/-- The ends of edges are nodes. -/
lemma mem_nodes_of_mem_edgeList {g : ReferenceGraph} {e : Declaration × Declaration}
    (he : e ∈ g.edgeList) : e.1 ∈ g.nodes.toList ∧ e.2 ∈ g.nodes.toList := by
  obtain ⟨i, j, _, hi, hj⟩ := mem_edgeList_iff.1 he
  exact ⟨mem_nodes_iff.2 ⟨i, hi⟩, mem_nodes_iff.2 ⟨j, hj⟩⟩

/-- A new edge comes last. -/
lemma edgeList_insertEdge {g : ReferenceGraph} {i j : Nat} {a b : Declaration}
    (ha : g.nodes[i]? = some a) (hb : g.nodes[j]? = some b) :
    (g.insertEdge i j).edgeList = g.edgeList ++ [(a, b)] := by
  have hends : g.ends? (i, j) = some (a, b) := ends?_eq_some_iff.2 ⟨ha, hb⟩
  have hsame : (g.insertEdge i j).ends? = g.ends? := rfl
  rw [edgeList, hsame, insertEdge, Array.toList_push, List.filterMap_append,
    List.filterMap_cons_some hends]
  rfl

/-- A declaration becomes a node unless it is one. -/
def withNode (nodes : List Declaration) (d : Declaration) : List Declaration :=
  if nodes.any d.same then nodes else nodes ++ [d]

/-! ## What the tables say when they agree -/

namespace Consistent

variable {g : ReferenceGraph} (h : Consistent g)

include h

/-- A declaration is found at the node with its key. -/
lemma number?_eq_some_iff {d : Declaration} {i : Nat} :
    g.number? d = some i ↔ ∃ n : Declaration, g.nodes[i]? = some n ∧ n.key = d.key :=
  h.numbers_iff d.key i

/-- No two nodes are the same declaration. -/
lemma number_unique {i j : Nat} {a b : Declaration} (ha : g.nodes[i]? = some a)
    (hb : g.nodes[j]? = some b) (hab : a.key = b.key) : i = j := by
  have hi : g.number? a = some i := h.number?_eq_some_iff.2 ⟨a, ha, rfl⟩
  have hj : g.number? a = some j := h.number?_eq_some_iff.2 ⟨b, hb, hab.symm⟩
  rw [hi] at hj
  exact Option.some.inj hj

/-- No two nodes have one key. -/
lemma nodup_keys : (g.nodes.toList.map Declaration.key).Nodup := by
  rw [List.Nodup, List.pairwise_map, List.pairwise_iff_getElem]
  intro i j hi hj hij hkey
  rw [Array.length_toList] at hi hj
  exact Nat.ne_of_lt hij (h.number_unique (by simp [hi]) (by simp [hj]) hkey)

/-- A declaration is a node if some node has its key. -/
lemma containsNode_iff {d : Declaration} :
    g.containsNode d = true ↔ ∃ n ∈ g.nodes.toList, n.key = d.key := by
  rw [containsNode, Option.isSome_iff_exists]
  constructor
  · rintro ⟨i, hi⟩
    obtain ⟨n, hn, hkey⟩ := h.number?_eq_some_iff.1 hi
    exact ⟨n, mem_nodes_iff.2 ⟨i, hn⟩, hkey⟩
  · rintro ⟨n, hn, hkey⟩
    obtain ⟨i, hi⟩ := mem_nodes_iff.1 hn
    exact ⟨i, h.number?_eq_some_iff.2 ⟨n, hi, hkey⟩⟩

/-- The successors of a node are the ends of its edges. -/
lemma mem_successorsOf_iff {i j : Nat} : j ∈ g.successorsOf i ↔ (i, j) ∈ g.edges.toList := by
  rw [h.successors_eq, List.mem_reverse, List.mem_map]
  constructor
  · rintro ⟨⟨x, y⟩, he, rfl⟩
    obtain ⟨he, hx⟩ := List.mem_filter.1 he
    rw [← beq_iff_eq.1 hx]
    exact he
  · intro he
    exact ⟨(i, j), List.mem_filter.2 ⟨he, beq_self_eq_true i⟩, rfl⟩

/-- There is an edge between two declarations if some edge has their keys. -/
lemma containsEdge_iff {a b : Declaration} :
    g.containsEdge a b = true ↔ ∃ e ∈ g.edgeList, e.1.key = a.key ∧ e.2.key = b.key := by
  have hnum : g.containsEdge a b = true ↔
      ∃ i j, g.number? a = some i ∧ g.number? b = some j ∧ j ∈ g.successorsOf i := by
    rw [containsEdge]
    split
    next i j hi hj => simp [hi, hj]
    next hnone =>
      refine iff_of_false Bool.false_ne_true ?_
      rintro ⟨i, j, hi, hj, _⟩
      exact hnone i j hi hj
  rw [hnum]
  constructor
  · rintro ⟨i, j, hi, hj, hij⟩
    obtain ⟨m, hm, hma⟩ := h.number?_eq_some_iff.1 hi
    obtain ⟨n, hn, hnb⟩ := h.number?_eq_some_iff.1 hj
    exact ⟨(m, n), mem_edgeList_iff.2 ⟨i, j, h.mem_successorsOf_iff.1 hij, hm, hn⟩, hma, hnb⟩
  · rintro ⟨⟨m, n⟩, he, hma, hnb⟩
    obtain ⟨i, j, hij, hm, hn⟩ := mem_edgeList_iff.1 he
    exact ⟨i, j, h.number?_eq_some_iff.2 ⟨m, hm, hma⟩, h.number?_eq_some_iff.2 ⟨n, hn, hnb⟩,
      h.mem_successorsOf_iff.2 hij⟩

/-- Of edges between nodes, those that start at the declaration with the number `i` are those whose
first number is `i`. -/
lemma targets_of_edges {d n : Declaration} {i : Nat} (hi : g.nodes[i]? = some n)
    (hkey : n.key = d.key) (es : List (Nat × Nat))
    (hes : ∀ e ∈ es, e.1 < g.nodes.size ∧ e.2 < g.nodes.size) :
    ((es.filterMap g.ends?).filter fun e => e.1.same d).map Prod.snd
      = g.declarations ((es.filter fun e => e.1 == i).map Prod.snd) := by
  induction es with
  | nil => rfl
  | cons e es ih =>
      obtain ⟨x, y⟩ := e
      obtain ⟨hx, hy⟩ := hes _ List.mem_cons_self
      have ih := ih fun e he => hes e (List.mem_cons_of_mem _ he)
      have hx' : g.nodes[x]? = some g.nodes[x] := Array.getElem?_eq_getElem hx
      have hy' : g.nodes[y]? = some g.nodes[y] := Array.getElem?_eq_getElem hy
      rw [List.filterMap_cons_some (ends?_eq_some_iff.2 ⟨hx', hy'⟩)]
      by_cases hxi : x = i
      · subst hxi
        have hsame : g.nodes[x].key = d.key := by
          rw [hx', Option.some.injEq] at hi
          rw [hi, hkey]
        rw [List.filter_cons_of_pos (by exact Declaration.same_iff.2 hsame),
          List.filter_cons_of_pos (by exact beq_self_eq_true x), List.map_cons, List.map_cons, ih,
          declarations, declarations, List.filterMap_cons_some hy']
      · have hother : g.nodes[x].key ≠ d.key := by
          rw [← hkey]
          exact fun heq => hxi (h.number_unique hx' hi heq)
        rw [List.filter_cons_of_neg (by simpa using hother),
          List.filter_cons_of_neg (by simpa using hxi), ih]

/-- What a declaration refers to, by the list of edges. -/
lemma targets_eq (d : Declaration) :
    g.targets d = ((g.edgeList.filter fun e => e.1.same d).map Prod.snd).reverse := by
  rw [targets]
  split
  next i hi =>
    obtain ⟨n, hn, hkey⟩ := h.number?_eq_some_iff.1 hi
    rw [edgeList, h.targets_of_edges hn hkey _ h.edges_lt, h.successors_eq, declarations,
      declarations, List.filterMap_reverse]
  next hnone =>
    have hnil : (g.edgeList.filter fun e => e.1.same d) = [] := by
      refine List.filter_eq_nil_iff.2 fun e he hsame => ?_
      obtain ⟨i, hi⟩ := mem_nodes_iff.1 (mem_nodes_of_mem_edgeList he).1
      have hnum : g.number? d = some i :=
        h.number?_eq_some_iff.2 ⟨e.1, hi, Declaration.same_iff.1 hsame⟩
      rw [hnone] at hnum
      cases hnum
    rw [hnil]
    rfl

/-! ## Steps -/

/-- A new node changes no edge. -/
lemma edgeList_insertNode (d : Declaration) : (g.insertNode d).edgeList = g.edgeList := by
  refine List.filterMap_congr fun e he => ?_
  obtain ⟨hx, hy⟩ := h.edges_lt e he
  simp only [ends?, insertNode, Array.getElem?_push_lt hx, Array.getElem?_push_lt hy,
    Array.getElem?_eq_getElem hx, Array.getElem?_eq_getElem hy]

/-- A graph stays consistent with a new node, ... -/
lemma insertNode {d : Declaration} (hd : g.number? d = none) : Consistent (g.insertNode d) where
  numbers_iff k i := by
    simp only [ReferenceGraph.insertNode, Std.HashMap.getElem?_insert, Array.getElem?_push]
    by_cases hk : d.key = k
    · subst hk
      by_cases hi : i = g.nodes.size
      · simp [hi]
      · have hnone : ¬ ∃ n : Declaration, g.nodes[i]? = some n ∧ n.key = d.key :=
          fun hex => by simp [h.number?_eq_some_iff.2 hex] at hd
        simp only [beq_self_eq_true, if_true, if_neg hi, Option.some.injEq]
        exact iff_of_false (Ne.symm hi) hnone
    · have hlt : ∀ j, g.numbers[k]? = some j → j ≠ g.nodes.size := by
        rintro j hj rfl
        obtain ⟨n, hn, _⟩ := (h.numbers_iff k _).1 hj
        simp at hn
      rw [if_neg (by simpa using hk), h.numbers_iff]
      by_cases hi : i = g.nodes.size
      · simp [hi, hk]
      · rw [if_neg hi]
  edges_lt e he := by
    obtain ⟨hx, hy⟩ := h.edges_lt e he
    simp only [ReferenceGraph.insertNode, Array.size_push]
    exact ⟨Nat.lt_succ_of_lt hx, Nat.lt_succ_of_lt hy⟩
  successors_size := by simp [ReferenceGraph.insertNode, h.successors_size]
  successors_eq i := by
    have hold := h.successors_eq i
    simp only [successorsOf, Array.getD_eq_getD_getElem?] at hold ⊢
    simp only [ReferenceGraph.insertNode, Array.getElem?_push, ← hold]
    by_cases hi : i = g.successors.size
    · simp [hi]
    · rw [if_neg hi]

/-- ... and with a new edge between nodes. -/
lemma insertEdge {i j : Nat} (hi : i < g.nodes.size) (hj : j < g.nodes.size) :
    Consistent (g.insertEdge i j) where
  numbers_iff := h.numbers_iff
  edges_lt e he := by
    simp only [ReferenceGraph.insertEdge, Array.toList_push, List.mem_append,
      List.mem_singleton] at he
    rcases he with he | rfl
    · exact h.edges_lt e he
    · exact ⟨hi, hj⟩
  successors_size := by simp [ReferenceGraph.insertEdge, h.successors_size]
  successors_eq k := by
    have hold := h.successors_eq k
    simp only [successorsOf, Array.getD_eq_getD_getElem?] at hold ⊢
    simp only [ReferenceGraph.insertEdge, Array.getElem?_modify, Array.toList_push,
      List.filter_append, List.map_append, List.reverse_append]
    by_cases hik : i = k
    · subst hik
      obtain ⟨js, hjs⟩ : ∃ js, g.successors[i]? = some js :=
        ⟨_, Array.getElem?_eq_getElem (h.successors_size.symm ▸ hi)⟩
      rw [hjs] at hold ⊢
      simp [← hold]
    · rw [if_neg hik, hold, List.filter_cons_of_neg (by simpa using hik)]
      rfl

lemma any_same_iff {d : Declaration} :
    g.nodes.toList.any d.same = true ↔ g.containsNode d = true := by
  rw [h.containsNode_iff, List.any_eq_true]
  exact exists_congr fun n => and_congr_right fun _ => Declaration.same_iff.trans eq_comm

/-- Looking up a number adds at most a node at the end, and moves no other. -/
lemma numberOf_spec (d : Declaration) :
    Consistent (g.numberOf d).2 ∧
      (∃ n : Declaration, (g.numberOf d).2.nodes[(g.numberOf d).1]? = some n ∧ n.key = d.key) ∧
      (g.numberOf d).2.nodes.toList = withNode g.nodes.toList d ∧
      (g.numberOf d).2.edgeList = g.edgeList ∧
      ∀ (i : Nat) (n : Declaration), g.nodes[i]? = some n →
        (g.numberOf d).2.nodes[i]? = some n := by
  have hany := h.any_same_iff (d := d)
  rw [numberOf, withNode]
  split
  next i hi =>
    have hmem : g.containsNode d = true := by rw [containsNode, hi]; rfl
    rw [if_pos (hany.2 hmem)]
    exact ⟨h, h.number?_eq_some_iff.1 hi, rfl, rfl, fun _ _ hn => hn⟩
  next hnone =>
    have hmem : ¬ g.containsNode d = true := by rw [containsNode, hnone]; simp
    rw [if_neg (fun hc => hmem (hany.1 hc))]
    refine ⟨h.insertNode hnone, ⟨d, ?_, rfl⟩, ?_, h.edgeList_insertNode d, fun i n hn => ?_⟩
    · simp [ReferenceGraph.insertNode]
    · simp [ReferenceGraph.insertNode]
    · obtain ⟨hi, rfl⟩ := Array.getElem?_eq_some_iff.1 hn
      simp only [ReferenceGraph.insertNode]
      rw [Array.getElem?_push_lt hi]

/-- All that `addEdge` can do: nothing, or append the ends that are missing to the nodes and one
pair of nodes to the edges. -/
lemma addEdge_cases (a b : Declaration) :
    ((a.key = b.key ∨ g.containsEdge a b = true) ∧ g.addEdge a b = (false, g)) ∨
      (a.key ≠ b.key ∧ g.containsEdge a b = false ∧
        ∃ g' m n, g.addEdge a b = (true, g') ∧ Consistent g' ∧
          g'.nodes.toList = withNode (withNode g.nodes.toList a) b ∧
          g'.edgeList = g.edgeList ++ [(m, n)] ∧ m.key = a.key ∧ n.key = b.key) := by
  rw [addEdge]
  split
  next hc =>
    left
    rw [Bool.or_eq_true, Declaration.same_iff] at hc
    exact ⟨hc, rfl⟩
  next hc =>
    right
    rw [Bool.or_eq_true, Declaration.same_iff, not_or, Bool.not_eq_true] at hc
    refine ⟨hc.1, hc.2, ?_⟩
    obtain ⟨h₁, ⟨m, hm, hma⟩, hnodes₁, hedges₁, -⟩ := h.numberOf_spec a
    obtain ⟨h₂, ⟨n, hn, hnb⟩, hnodes₂, hedges₂, hkeep⟩ := h₁.numberOf_spec b
    have hm' := hkeep _ m hm
    refine ⟨((g.numberOf a).2.numberOf b).2.insertEdge (g.numberOf a).1
      ((g.numberOf a).2.numberOf b).1, m, n, rfl, h₂.insertEdge ?_ ?_, ?_, ?_, hma, hnb⟩
    · exact (Array.getElem?_eq_some_iff.1 hm').1
    · exact (Array.getElem?_eq_some_iff.1 hn).1
    · rw [← hnodes₁, ← hnodes₂]
      rfl
    · rw [edgeList_insertEdge hm' hn, hedges₂, hedges₁]

end Consistent

end ReferenceGraph

end GoReach
