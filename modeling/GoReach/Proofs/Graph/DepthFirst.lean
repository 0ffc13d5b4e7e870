import Mathlib.Data.List.Basic
import GoReach.Proofs.Graph.Reachability

/-!
# The order in which the search goes

The search keeps a stack, on which a node may lie several times, also after it has been visited.
All the same it goes through a graph as a recursion does: `visitAll` takes one declaration after
another, reports it unless it is no node or has been reported, and turns to what it refers to before
it goes on, the oldest edge first.

**From the stack to the recursion.**  What is below on the stack waits until all that is above is
done (`Search.run_append`), and entries that have been marked in the meantime do no harm, so it
makes no difference that only unmarked successors are pushed (`Search.run_filter`).  Hence the run
from the numbers of declarations follows `visitAll` on the declarations themselves
(`tracks_visitAll`).

**What the order is like.**  By the recursion, nothing is reported twice (`pairwise_preorder`), and
what is reported was given as a root or comes after something that refers to it (`exists_cause`).
-/

namespace GoReach

namespace ReferenceGraph

/-! ## The search as a recursion -/

variable (g : ReferenceGraph)

/-- What a declaration refers to, in the order in which the edges came. -/
def outgoing (d : Declaration) : List Declaration :=
  (g.edgeList.filter fun e => e.1.same d).map Prod.snd

/-- The nodes that have not been reported. -/
def unreported (reported : List Declaration) : List Declaration :=
  g.nodes.toList.filter fun n => !reported.any n.same

/-- The node that a declaration is, if it has not been reported. -/
def fresh? (reported : List Declaration) (d : Declaration) : Option Declaration :=
  (g.unreported reported).find? fun n => n.same d

variable {g}

lemma mem_unreported_iff {reported : List Declaration} {n : Declaration} :
    n ∈ g.unreported reported ↔ n ∈ g.nodes.toList ∧ ∀ m ∈ reported, n.key ≠ m.key := by
  simp [unreported]

lemma fresh_spec {reported : List Declaration} {d n : Declaration}
    (h : g.fresh? reported d = some n) : n ∈ g.unreported reported ∧ n.key = d.key :=
  ⟨List.mem_of_find?_eq_some h, by simpa using List.find?_some h⟩

lemma unreported_sublist {reported all : List Declaration} (h : reported <+: all) :
    (g.unreported all).Sublist (g.unreported reported) := by
  refine List.monotone_filter_right _ fun n hn => ?_
  simp only [Bool.not_eq_true', List.any_eq_false] at hn ⊢
  exact fun m hm => hn m (h.subset hm)

/-- With every report there is one node less to be reported. -/
lemma length_unreported_lt {reported : List Declaration} {d n : Declaration}
    (h : g.fresh? reported d = some n) :
    (g.unreported (reported ++ [n])).length < (g.unreported reported).length := by
  have hsub := unreported_sublist (g := g) (List.prefix_append reported [n])
  refine Nat.lt_of_le_of_ne hsub.length_le fun hlength => ?_
  have hmem := (fresh_spec h).1
  rw [← hsub.eq_of_length hlength] at hmem
  exact (mem_unreported_iff.1 hmem).2 n (by simp) rfl

/-- Go through the declarations from first to last.  One that is a node and has not been reported is
reported, and what it refers to is gone through before the rest. -/
def visitAll (g : ReferenceGraph) (reported todo : List Declaration) :
    { all : List Declaration // reported <+: all } :=
  match todo with
  | [] => ⟨reported, List.prefix_rfl⟩
  | d :: rest =>
    match _h : g.fresh? reported d with
    | none => g.visitAll reported rest
    | some n =>
      let below := g.visitAll (reported ++ [n]) (g.outgoing n)
      let after := g.visitAll below.1 rest
      ⟨after.1, (List.prefix_append reported [n]).trans (below.2.trans after.2)⟩
termination_by ((g.unreported reported).length, todo.length)
decreasing_by
  · exact Prod.Lex.right _ (by simp)
  · exact Prod.Lex.left _ _ (length_unreported_lt _h)
  · exact Prod.Lex.left _ _
      (Nat.lt_of_le_of_lt (unreported_sublist below.2).length_le (length_unreported_lt _h))

/-- The declarations that a recursive search from the roots reports, in order. -/
def preorder (g : ReferenceGraph) (roots : List Declaration) : List Declaration :=
  (g.visitAll [] roots).1

/-- Induction along the recursive search: what holds of all calls is shown for a call of each sort,
from what the calls inside it report. -/
lemma visitAll_induction {motive : (reported todo all : List Declaration) → Prop}
    (nil : ∀ reported, motive reported [] reported)
    (skip : ∀ reported d rest all, g.fresh? reported d = none → motive reported rest all →
      motive reported (d :: rest) all)
    (visit : ∀ reported d rest n below all, g.fresh? reported d = some n →
      reported ++ [n] <+: below → below <+: all → motive (reported ++ [n]) (g.outgoing n) below →
      motive below rest all → motive reported (d :: rest) all)
    (reported todo : List Declaration) : motive reported todo (g.visitAll reported todo).1 := by
  fun_induction visitAll g reported todo with
  | case1 reported => exact nil reported
  | case2 reported d rest hnone ih => exact skip _ _ _ _ hnone ih
  | case3 reported d rest n hn below after ihbelow ihafter =>
      exact visit _ _ _ _ _ _ hn below.2 after.2 ihbelow ihafter

/-- Nothing is reported twice. -/
lemma pairwise_preorder (roots : List Declaration) :
    (g.preorder roots).Pairwise fun a b => ¬ a.same b := by
  refine visitAll_induction (g := g) (motive := fun reported _ all =>
    (reported.Pairwise fun a b : Declaration => ¬ a.same b) →
      all.Pairwise fun a b : Declaration => ¬ a.same b)
    (fun _ h => h) (fun _ _ _ _ _ ih => ih) ?_ [] roots List.Pairwise.nil
  intro reported d rest n below all hn _ _ ihbelow ihrest h
  refine ihrest (ihbelow (List.pairwise_append.2 ⟨h, List.pairwise_singleton _ n, ?_⟩))
  intro a ha b hb hab
  rw [List.mem_singleton.1 hb, Declaration.same_iff] at hab
  exact (mem_unreported_iff.1 (fresh_spec hn).1).2 a ha hab.symm

lemma Consistent.containsEdge_of_mem_outgoing (h : Consistent g) {d n m : Declaration}
    (hm : m ∈ g.outgoing d) (hn : n.same m) : g.containsEdge d n := by
  obtain ⟨e, he, rfl⟩ := List.mem_map.1 hm
  obtain ⟨he, hd⟩ := List.mem_filter.1 he
  exact h.containsEdge_iff.2
    ⟨e, he, Declaration.same_iff.1 hd, (Declaration.same_iff.1 hn).symm⟩

/-- What is reported was given as a root, or there is an edge to it from something that was reported
before. -/
lemma Consistent.exists_cause (h : Consistent g) {roots before after : List Declaration}
    {n : Declaration} (hall : g.preorder roots = before ++ n :: after) :
    (∃ root ∈ roots, n.same root) ∨ ∃ m ∈ before, g.containsEdge m n := by
  refine visitAll_induction (g := g) (motive := fun reported todo all =>
    ∀ before n after, all = before ++ n :: after → reported.length ≤ before.length →
      (∃ root ∈ todo, n.same root) ∨ ∃ m ∈ before, g.containsEdge m n)
    ?_ ?_ ?_ [] roots before n after hall (Nat.zero_le _)
  · intro reported before n after hall hnew
    have hlength := congrArg List.length hall
    simp only [List.length_append, List.length_cons] at hlength
    omega
  · intro reported d rest all _ ih before n after hall hnew
    refine (ih before n after hall hnew).imp_left ?_
    rintro ⟨root, hroot, hsame⟩
    exact ⟨root, List.mem_cons_of_mem d hroot, hsame⟩
  · intro reported d rest k below all hk hbelow hall ihbelow ihrest before n after heq hnew
    by_cases hrest : below.length ≤ before.length
    · -- reported while the rest was gone through
      refine (ihrest before n after heq hrest).imp_left ?_
      rintro ⟨root, hroot, hsame⟩
      exact ⟨root, List.mem_cons_of_mem d hroot, hsame⟩
    -- otherwise it is `k`, or was reported while that to which `k` refers was gone through
    have hn : before ++ [n] <+: below := by
      refine List.prefix_of_prefix_length_le ⟨after, ?_⟩ hall ?_
      · rw [heq, List.append_assoc, List.singleton_append]
      · rw [List.length_append, List.length_singleton]
        omega
    by_cases hlater : (reported ++ [k]).length ≤ before.length
    · have hkbefore : reported ++ [k] <+: before :=
        List.prefix_of_prefix_length_le hbelow ((List.prefix_append before [n]).trans hn) hlater
      obtain ⟨after', hafter'⟩ := hn
      rw [List.append_assoc, List.singleton_append] at hafter'
      refine Or.inr ((ihbelow before n after' hafter'.symm hlater).elim ?_ id)
      rintro ⟨m, hm, hsame⟩
      exact ⟨k, hkbefore.subset (by simp), h.containsEdge_of_mem_outgoing hm hsame⟩
    · have hlength : (reported ++ [k]).length = (before ++ [n]).length := by
        simp only [List.length_append, List.length_singleton] at hlater ⊢
        omega
      have hsame : reported ++ [k] = before ++ [n] :=
        (List.prefix_of_prefix_length_le hbelow hn (Nat.le_of_eq hlength)).eq_of_length hlength
      obtain rfl : k = n := by simpa using (List.append_inj_right' hsame rfl)
      exact Or.inl ⟨d, List.mem_cons_self, Declaration.same_iff.2 (fresh_spec hk).2⟩

end ReferenceGraph

/-! ## The search as a stack -/

namespace Search

variable {g : ReferenceGraph} {s : Search}

lemma run_marked {i : Nat} (h : s.marks[i]? ≠ some false) (rest : List Nat) :
    s.run g (i :: rest) = s.run g rest := by
  rw [run]
  split
  next hfalse => exact absurd hfalse h
  next => rfl

/-- What is below on the stack waits until all that is above is done. -/
lemma run_append (upper lower : List Nat) :
    s.run g (upper ++ lower) = (s.run g upper).run g lower := by
  fun_induction run g s upper with
  | case1 s => rfl
  | case2 s i rest hfalse marks next ih =>
      rw [← ih, List.append_assoc, List.cons_append, run]
      split
      next => rfl
      next hnot => exact absurd hfalse hnot
  | case3 s i rest hnot ih => rw [List.cons_append, run_marked hnot, ih]

/-- What is not to be visited any more stays so. -/
lemma run_keeps {i : Nat} (stack : List Nat) (h : s.marks[i]? ≠ some false) :
    (s.run g stack).marks[i]? ≠ some false := by
  fun_induction run g s stack with
  | case1 s => exact h
  | case2 s j rest hfalse marks next ih =>
      refine ih fun hi => h ?_
      rw [Array.getElem?_setIfInBounds] at hi
      split at hi
      · split at hi <;> cases hi
      · exact hi
  | case3 s j rest hnot ih => exact ih h

/-- What is marked need not be on the stack. -/
lemma run_filter {marks : Array Bool}
    (hmarks : ∀ i : Nat, marks[i]? ≠ some false → s.marks[i]? ≠ some false) (stack : List Nat) :
    s.run g (stack.filter fun i => marks[i]? == some false) = s.run g stack := by
  induction stack generalizing s with
  | nil => rfl
  | cons i stack ih =>
      by_cases hi : marks[i]? = some false
      · have hrest := ih (s := s.run g [i]) fun j hj => run_keeps [i] (hmarks j hj)
        rw [List.filter_cons_of_pos (by simpa using hi), ← List.singleton_append, run_append, hrest,
          ← run_append, List.singleton_append]
      · rw [List.filter_cons_of_neg (by simpa using hi), run_marked (hmarks i hi), ih hmarks]

/-- Visiting a node means to search from all its successors, the oldest first, before the rest. -/
lemma run_unmarked {i : Nat} (h : s.marks[i]? = some false) (rest : List Nat) :
    s.run g (i :: rest) =
      (run g ⟨s.marks.setIfInBounds i true, i :: s.visited⟩
        (g.successorsOf i).reverse).run g rest := by
  rw [run]
  split
  next =>
    rw [run_append, ← List.filter_reverse, run_filter fun _ hj => hj]
  next hnot => exact absurd h hnot

end Search

/-! ## The two searches -/

namespace ReferenceGraph

variable {g : ReferenceGraph}

/-- The search has visited what was reported, and nothing else is marked. -/
structure Tracks (g : ReferenceGraph) (s : Search) (reported : List Declaration) : Prop where
  size_eq : s.marks.size = g.nodes.size
  marked_iff : ∀ i : Nat, s.marks[i]? = some true ↔ i ∈ s.visited
  reported_eq : g.declarations s.visited.reverse = reported

namespace Tracks

variable {s : Search} {reported : List Declaration} (ht : Tracks g s reported)

include ht

/-- What was reported are the nodes with the numbers that have been visited. -/
lemma mem_reported_iff {n : Declaration} :
    n ∈ reported ↔ ∃ i : Nat, g.nodes[i]? = some n ∧ s.marks[i]? = some true := by
  rw [← ht.reported_eq, declarations, List.mem_filterMap]
  simp only [List.mem_reverse, ← ht.marked_iff, and_comm]

/-- A node is marked unless it is yet to be reported. -/
lemma mem_unreported_iff (h : Consistent g) {i : Nat} {n : Declaration}
    (hi : g.nodes[i]? = some n) :
    n ∈ g.unreported reported ↔ s.marks[i]? = some false := by
  have hlt : i < s.marks.size := ht.size_eq ▸ (Array.getElem?_eq_some_iff.1 hi).1
  rw [ReferenceGraph.mem_unreported_iff]
  constructor
  · rintro ⟨-, hnew⟩
    refine Search.getElem?_eq_false hlt fun hmark => ?_
    exact hnew n (ht.mem_reported_iff.2 ⟨i, hi, hmark⟩) rfl
  · intro hmark
    refine ⟨mem_nodes_iff.2 ⟨i, hi⟩, fun m hm hkey => ?_⟩
    obtain ⟨j, hj, hjmark⟩ := ht.mem_reported_iff.1 hm
    rw [h.number_unique hi hj hkey, hjmark] at hmark
    cases hmark

/-- What is no node, or has been reported, has no number that is yet to be visited. -/
lemma marked_of_fresh?_eq_none (h : Consistent g) {d : Declaration}
    (hd : g.fresh? reported d = none) {i : Nat} (hi : g.number? d = some i) :
    s.marks[i]? ≠ some false := by
  obtain ⟨n, hn, hkey⟩ := h.number?_eq_some_iff.1 hi
  intro hmark
  have hsame := List.find?_eq_none.1 hd n ((ht.mem_unreported_iff h hn).2 hmark)
  exact hsame (Declaration.same_iff.2 hkey)

lemma exists_number_of_fresh? (h : Consistent g) {d n : Declaration}
    (hd : g.fresh? reported d = some n) :
    ∃ i, g.number? d = some i ∧ g.nodes[i]? = some n ∧ s.marks[i]? = some false := by
  obtain ⟨hn, hkey⟩ := fresh_spec hd
  obtain ⟨i, hi⟩ := mem_nodes_iff.1 (ReferenceGraph.mem_unreported_iff.1 hn).1
  exact ⟨i, h.number?_eq_some_iff.2 ⟨n, hi, hkey⟩, hi, (ht.mem_unreported_iff h hi).1 hn⟩

lemma visit {i : Nat} {n : Declaration} (hi : g.nodes[i]? = some n) :
    Tracks g ⟨s.marks.setIfInBounds i true, i :: s.visited⟩ (reported ++ [n]) where
  size_eq := by rw [Array.size_setIfInBounds, ht.size_eq]
  marked_iff j := by
    have hlt : i < s.marks.size := ht.size_eq ▸ (Array.getElem?_eq_some_iff.1 hi).1
    rw [Search.getElem?_mark, ht.marked_iff, List.mem_cons]
    tauto
  reported_eq := by
    rw [← ht.reported_eq, List.reverse_cons, declarations, declarations, List.filterMap_append,
      List.filterMap_cons_some hi, List.filterMap_nil]

end Tracks

/-- Nodes have the numbers by which they are found. -/
lemma Consistent.numbers_declarations (h : Consistent g) {numbers : List Nat}
    (hlt : ∀ i ∈ numbers, i < g.nodes.size) :
    (g.declarations numbers).filterMap g.number? = numbers := by
  rw [declarations, List.filterMap_filterMap]
  calc numbers.filterMap (fun i => (g.nodes[i]?).bind g.number?)
      = numbers.filterMap some := by
        refine List.filterMap_congr fun i hi => ?_
        rw [Array.getElem?_eq_getElem (hlt i hi), Option.bind_some]
        exact h.number?_eq_some_iff.2 ⟨_, Array.getElem?_eq_getElem (hlt i hi), rfl⟩
    _ = numbers := List.filterMap_some

/-- The edges of a node lead to its successors. -/
lemma Consistent.numbers_outgoing (h : Consistent g) {i : Nat} {n : Declaration}
    (hi : g.nodes[i]? = some n) :
    (g.outgoing n).filterMap g.number? = (g.successorsOf i).reverse := by
  rw [outgoing, edgeList, h.targets_of_edges hi rfl _ h.edges_lt, h.successors_eq,
    List.reverse_reverse]
  refine h.numbers_declarations fun j hj => ?_
  obtain ⟨e, he, rfl⟩ := List.mem_map.1 hj
  exact (h.edges_lt e (List.mem_filter.1 he).1).2

/-- **The stack follows the recursion.** -/
lemma Consistent.tracks_visitAll (h : Consistent g) (reported todo : List Declaration) :
    ∀ s, Tracks g s reported →
      Tracks g (s.run g (todo.filterMap g.number?)) (g.visitAll reported todo).1 := by
  refine visitAll_induction (g := g) (motive := fun reported todo all =>
    ∀ s, Tracks g s reported → Tracks g (s.run g (todo.filterMap g.number?)) all)
    ?_ ?_ ?_ reported todo
  · intro reported s ht
    rw [List.filterMap_nil, Search.run]
    exact ht
  · intro reported d rest all hnone ih s ht
    cases hd : g.number? d with
    | none =>
        rw [List.filterMap_cons_none hd]
        exact ih s ht
    | some i =>
        rw [List.filterMap_cons_some hd, Search.run_marked (ht.marked_of_fresh?_eq_none h hnone hd)]
        exact ih s ht
  · intro reported d rest n below all hn _ _ ihbelow ihrest s ht
    obtain ⟨i, hd, hi, hmark⟩ := ht.exists_number_of_fresh? h hn
    have hbelow := ihbelow _ (ht.visit hi)
    rw [h.numbers_outgoing hi] at hbelow
    rw [List.filterMap_cons_some hd, Search.run_unmarked hmark]
    exact ihrest _ hbelow

/-- Searching from one root after another is searching from all of them on one stack. -/
lemma foldl_searchRoot (roots : List Declaration) (s : Search) :
    roots.foldl g.searchRoot s = s.run g (roots.filterMap g.number?) := by
  induction roots generalizing s with
  | nil => rw [List.filterMap_nil, Search.run, List.foldl_nil]
  | cons root roots ih =>
      rw [List.foldl_cons, ih, searchRoot]
      cases hroot : g.number? root with
      | none => rw [List.filterMap_cons_none hroot]
      | some i =>
          rw [List.filterMap_cons_some hroot, ← List.singleton_append, Search.run_append]

lemma Consistent.tracks_search (h : Consistent g) (roots : List Declaration) :
    Tracks g (g.search roots) (g.preorder roots) := by
  rw [search_eq_foldl, foldl_searchRoot]
  refine h.tracks_visitAll [] roots _ ⟨Array.size_replicate, fun i => ?_, rfl⟩
  simp [Array.getElem?_replicate]

/-- **The search goes through a graph as a recursion does.**  On every graph that calls can build
and for all roots, the declarations that the search reports are those that the recursive search
reports, in the same order: roots in the order of the list, those that are no nodes or were reported
before left out, and after each node what it refers to, the oldest edge first.  Each node that a
root reaches is reported, once, and nothing else.  What is reported and no root comes after
something reported that has an edge to it. -/
theorem depthFirst_ofCalls (calls : List Call) (roots : List Declaration) :
    let g := ofCalls calls
    g.depthFirst roots = g.preorder roots ∧
    ((g.depthFirst roots).Pairwise fun a b => ¬ a.same b) ∧
    (∀ d, d ∈ g.depthFirst roots ↔
      d ∈ g.nodes.toList ∧ ∃ root ∈ roots, ∃ n ∈ g.nodes.toList, n.same root ∧ g.Reaches n d) ∧
    ∀ before n after, g.depthFirst roots = before ++ n :: after →
      (∃ root ∈ roots, n.same root) ∨ ∃ m ∈ before, g.containsEdge m n := by
  intro g
  have hg : Consistent g := (reflects_ofCalls calls).consistent
  have htracks := hg.tracks_search roots
  have heq : g.depthFirst roots = g.preorder roots := htracks.reported_eq
  refine ⟨heq, ?_, fun d => ?_, fun before n after hall => ?_⟩
  · rw [heq]
    exact pairwise_preorder roots
  · rw [heq, htracks.mem_reported_iff, mem_nodes_iff, ← exists_and_right]
    exact exists_congr fun i => and_congr_right fun hi => hg.marked_iff_reaches roots hi
  · rw [heq] at hall
    exact hg.exists_cause hall

end ReferenceGraph

end GoReach
