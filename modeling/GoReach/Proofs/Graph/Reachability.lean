import Mathlib.Logic.Relation
import GoReach.Graph.Search
import GoReach.Proofs.Graph.Calls
import GoReach.Proofs.Sorted

/-!
# The search finds exactly what can be reached

`Reaches g a b` says that there is a path of references from `a` to `b`.  The search works with the
numbers of nodes, with marks that are kept from one root to the next, and with a stack that starts
anew at every root.

**The invariant.**  `Closed` says that every successor of a marked node is marked or waits on the
stack.  Marks alone are not closed while a search is under way, and the stack alone forgets what
earlier roots have found; the two together are what a step preserves.  When the stack is empty, the
marks are closed under successors, so they hold whatever can be reached from any of them.

**Runs.**  `run_explores` says what a search from one root does to the marks, by induction along
the search, and `marked_search_iff` what the search from all roots has marked in the end: exactly
what some root reaches.
-/

namespace GoReach

open Relation (ReflTransGen)

namespace ReferenceGraph

/-- There is an edge from one declaration to another. -/
def Refers (g : ReferenceGraph) (a b : Declaration) : Prop := (a, b) ∈ g.edgeList

/-- There is a path of zero or more edges from one declaration to another. -/
def Reaches (g : ReferenceGraph) : Declaration → Declaration → Prop := ReflTransGen g.Refers

/-- The same step between the numbers of nodes. -/
def Leads (g : ReferenceGraph) (i j : Nat) : Prop := j ∈ g.successorsOf i

variable {g : ReferenceGraph}

lemma Consistent.lt_of_leads (h : Consistent g) {i j : Nat} (hij : g.Leads i j) :
    j < g.nodes.size :=
  (h.edges_lt _ (h.mem_successorsOf_iff.1 hij)).2

/-- Paths of declarations are paths of their numbers. -/
lemma Consistent.reaches_iff (h : Consistent g) {i j : Nat} {a b : Declaration}
    (ha : g.nodes[i]? = some a) (hb : g.nodes[j]? = some b) :
    g.Reaches a b ↔ ReflTransGen g.Leads i j := by
  constructor
  · intro hab
    induction hab generalizing j with
    | refl => rw [h.number_unique ha hb rfl]
    | @tail c d _ hcd ih =>
        obtain ⟨k, l, hkl, hk, hl⟩ := mem_edgeList_iff.1 hcd
        rw [h.number_unique hb hl rfl]
        exact (ih hk).tail (h.mem_successorsOf_iff.2 hkl)
  · intro hij
    induction hij generalizing b with
    | refl =>
        rw [ha, Option.some.injEq] at hb
        rw [hb]
        exact ReflTransGen.refl
    | @tail k l _ hkl ih =>
        have hmem := h.mem_successorsOf_iff.1 hkl
        have hk : g.nodes[k]? = some _ := Array.getElem?_eq_getElem (h.edges_lt _ hmem).1
        exact (ih hk).tail (mem_edgeList_iff.2 ⟨k, l, hmem, hk, hb⟩)

end ReferenceGraph

/-! ## The search from one root -/

namespace Search

variable {g : ReferenceGraph}

/-- Every successor of a marked node is marked or waits on the stack. -/
def Closed (g : ReferenceGraph) (marks : Array Bool) (stack : List Nat) : Prop :=
  ∀ i j, marks[i]? = some true → g.Leads i j → marks[j]? = some true ∨ j ∈ stack

/-- Closed marks hold all that can be reached from any of them. -/
lemma Closed.marked_of_leads {marks : Array Bool} (h : Closed g marks []) {i j : Nat}
    (hi : marks[i]? = some true) (hij : ReflTransGen g.Leads i j) : marks[j]? = some true := by
  induction hij with
  | refl => exact hi
  | tail _ hkl ih => exact (h _ _ ih hkl).resolve_right List.not_mem_nil

/-- What a search from the nodes on a stack does to the marks. -/
structure Explores (g : ReferenceGraph) (marks : Array Bool) (stack : List Nat)
    (marks' : Array Bool) : Prop where
  size_eq : marks'.size = marks.size
  keeps : ∀ i : Nat, marks[i]? = some true → marks'[i]? = some true
  covers : ∀ i ∈ stack, marks'[i]? = some true
  sound : ∀ i : Nat, marks'[i]? = some true →
    marks[i]? = some true ∨ ∃ k ∈ stack, ReflTransGen g.Leads k i
  closed : Closed g marks' []

lemma getElem?_mark {marks : Array Bool} {i j : Nat} :
    (marks.setIfInBounds i true)[j]? = some true ↔
      marks[j]? = some true ∨ j = i ∧ i < marks.size := by
  rw [Array.getElem?_setIfInBounds]
  by_cases hij : i = j
  · subst hij
    by_cases hi : i < marks.size <;> simp [hi]
  · simp [hij, Ne.symm hij]

/-- A node that is marked when it is taken from the stack is passed over. -/
lemma explores_skip {marks marks' : Array Bool} {i : Nat} {rest : List Nat}
    (hi : marks[i]? = some true) (h : Explores g marks rest marks') :
    Explores g marks (i :: rest) marks' where
  size_eq := h.size_eq
  keeps := h.keeps
  covers j hj := by
    rcases List.mem_cons.1 hj with rfl | hj
    · exact h.keeps j hi
    · exact h.covers j hj
  sound j hj := by
    refine (h.sound j hj).imp_right ?_
    rintro ⟨k, hk, hkj⟩
    exact ⟨k, List.mem_cons_of_mem i hk, hkj⟩
  closed := h.closed

/-- A node that is unmarked is marked, and its unmarked successors are searched before the rest of
the stack. -/
lemma explores_visit {marks marks' : Array Bool} {i : Nat} {rest next : List Nat}
    (hi : i < marks.size) (hnext : ∀ j ∈ next, g.Leads i j)
    (h : Explores g (marks.setIfInBounds i true) (next.reverse ++ rest) marks') :
    Explores g marks (i :: rest) marks' where
  size_eq := by rw [h.size_eq, Array.size_setIfInBounds]
  keeps j hj := h.keeps j (getElem?_mark.2 (Or.inl hj))
  covers j hj := by
    rcases List.mem_cons.1 hj with rfl | hj
    · exact h.keeps j (getElem?_mark.2 (Or.inr ⟨rfl, hi⟩))
    · exact h.covers j (List.mem_append_right _ hj)
  sound j hj := by
    rcases h.sound j hj with hmark | ⟨k, hk, hkj⟩
    · refine (getElem?_mark.1 hmark).imp_right ?_
      rintro ⟨rfl, _⟩
      exact ⟨j, List.mem_cons_self, ReflTransGen.refl⟩
    · right
      rcases List.mem_append.1 hk with hk | hk
      · exact ⟨i, List.mem_cons_self, (hkj.head (hnext k (List.mem_reverse.1 hk)))⟩
      · exact ⟨k, List.mem_cons_of_mem i hk, hkj⟩
  closed := h.closed

/-- A node is marked or unmarked. -/
lemma getElem?_eq_false {marks : Array Bool} {i : Nat} (hi : i < marks.size)
    (h : ¬ marks[i]? = some true) : marks[i]? = some false := by
  rw [Array.getElem?_eq_getElem hi] at h ⊢
  cases hb : marks[i] with
  | false => rfl
  | true => exact absurd (congrArg some hb) h

/-- Marking a node keeps the invariant if its unmarked successors go onto the stack. -/
lemma closed_visit {marks : Array Bool} {i : Nat} {rest : List Nat} (hi : i < marks.size)
    (hlt : ∀ j, g.Leads i j → j < marks.size) (h : Closed g marks (i :: rest)) :
    Closed g (marks.setIfInBounds i true)
      (((g.successorsOf i).filter fun j =>
        (marks.setIfInBounds i true)[j]? == some false).reverse ++ rest) := by
  intro k j hk hkj
  by_cases hj : (marks.setIfInBounds i true)[j]? = some true
  · exact Or.inl hj
  · right
    rcases getElem?_mark.1 hk with hk | ⟨rfl, _⟩
    · rcases h k j hk hkj with hmark | hmem
      · exact absurd (getElem?_mark.2 (Or.inl hmark)) hj
      · rcases List.mem_cons.1 hmem with rfl | hmem
        · exact absurd (getElem?_mark.2 (Or.inr ⟨rfl, hi⟩)) hj
        · exact List.mem_append_right _ hmem
    · have hfalse := getElem?_eq_false (by rw [Array.size_setIfInBounds]; exact hlt j hkj) hj
      exact List.mem_append_left _
        (List.mem_reverse.2 (List.mem_filter.2 ⟨hkj, beq_iff_eq.2 hfalse⟩))

/-- **The search from a stack.**  By induction along the search: what is on the stack lies within
the graph, and the marks and the stack together are closed. -/
lemma run_explores (h : g.Consistent) (s : Search) (stack : List Nat)
    (hsize : s.marks.size = g.nodes.size) (hstack : ∀ i ∈ stack, i < g.nodes.size)
    (hclosed : Closed g s.marks stack) : Explores g s.marks stack (s.run g stack).marks := by
  fun_induction run g s stack with
  | case1 s =>
      exact ⟨rfl, fun _ hi => hi, fun _ hi => absurd hi List.not_mem_nil, fun _ hi => Or.inl hi,
        hclosed⟩
  | case2 s i rest hfalse marks next ih =>
      have hi : i < s.marks.size := (Array.getElem?_eq_some_iff.1 hfalse).1
      have hlead : ∀ j ∈ next, g.Leads i j := fun j hj => (List.mem_filter.1 hj).1
      refine explores_visit hi hlead (ih ?_ ?_ ?_)
      · rw [Array.size_setIfInBounds, hsize]
      · intro j hj
        rcases List.mem_append.1 hj with hj | hj
        · exact h.lt_of_leads (hlead j (List.mem_reverse.1 hj))
        · exact hstack j (List.mem_cons_of_mem i hj)
      · exact closed_visit hi (fun j hj => hsize ▸ h.lt_of_leads hj) hclosed
  | case3 s i rest hnot ih =>
      have hi : i < s.marks.size := hsize ▸ hstack i List.mem_cons_self
      have htrue : s.marks[i]? = some true := by
        by_contra hne
        exact hnot (getElem?_eq_false hi hne)
      refine explores_skip htrue (ih hsize (fun j hj => hstack j (List.mem_cons_of_mem i hj)) ?_)
      intro k j hk hkj
      rcases hclosed k j hk hkj with hmark | hmem
      · exact Or.inl hmark
      · rcases List.mem_cons.1 hmem with rfl | hmem
        · exact Or.inl htrue
        · exact Or.inr hmem

end Search

/-! ## The search from all roots -/

namespace ReferenceGraph

variable {g : ReferenceGraph}

/-- Go on with one more root. -/
def searchRoot (g : ReferenceGraph) (s : Search) (root : Declaration) : Search :=
  match g.number? root with
  | some i => s.run g [i]
  | none => s

lemma search_eq_foldl (roots : List Declaration) :
    g.search roots = roots.foldl g.searchRoot ⟨Array.replicate g.nodes.size false, []⟩ := rfl

/-- Going on with a root keeps the marks closed and adds what the root leads to, if it is a node. -/
lemma marked_searchRoot (h : Consistent g) {s : Search} (hsize : s.marks.size = g.nodes.size)
    (hclosed : Search.Closed g s.marks []) (root : Declaration) :
    (g.searchRoot s root).marks.size = g.nodes.size ∧
      Search.Closed g (g.searchRoot s root).marks [] ∧
      ∀ i : Nat, (g.searchRoot s root).marks[i]? = some true ↔
        s.marks[i]? = some true ∨ ∃ k, g.number? root = some k ∧ ReflTransGen g.Leads k i := by
  rw [searchRoot]
  cases hroot : g.number? root with
  | none => exact ⟨hsize, hclosed, fun i => by simp⟩
  | some k =>
      obtain ⟨n, hn, -⟩ := h.number?_eq_some_iff.1 hroot
      have hk : ∀ i ∈ [k], i < g.nodes.size := by
        simpa using (Array.getElem?_eq_some_iff.1 hn).1
      have hrun := Search.run_explores h s [k] hsize hk
        fun i j hi hij => (hclosed i j hi hij).imp_right fun hj => absurd hj List.not_mem_nil
      refine ⟨hrun.size_eq.trans hsize, hrun.closed, fun i => ⟨fun hi => ?_, ?_⟩⟩
      · refine (hrun.sound i hi).imp_right ?_
        rintro ⟨l, hl, hli⟩
        rw [List.mem_singleton.1 hl] at hli
        exact ⟨k, rfl, hli⟩
      · rintro (hi | ⟨l, hl, hli⟩)
        · exact hrun.keeps i hi
        · rw [Option.some.injEq] at hl
          exact hrun.closed.marked_of_leads (hrun.covers l (List.mem_singleton.2 hl.symm)) hli

/-- Before and after every root the marks are closed, and they hold what the roots so far reach. -/
lemma marked_foldl_searchRoot (h : Consistent g) (roots : List Declaration) (s : Search)
    (hsize : s.marks.size = g.nodes.size) (hclosed : Search.Closed g s.marks []) :
    (roots.foldl g.searchRoot s).marks.size = g.nodes.size ∧
      ∀ i : Nat, (roots.foldl g.searchRoot s).marks[i]? = some true ↔
        s.marks[i]? = some true ∨
          ∃ root ∈ roots, ∃ k, g.number? root = some k ∧ ReflTransGen g.Leads k i := by
  induction roots generalizing s with
  | nil => simp [hsize]
  | cons root roots ih =>
      obtain ⟨hsize₁, hclosed₁, hmarks₁⟩ := marked_searchRoot h hsize hclosed root
      obtain ⟨hsize₂, hmarks₂⟩ := ih (g.searchRoot s root) hsize₁ hclosed₁
      refine ⟨hsize₂, fun i => ?_⟩
      rw [List.foldl_cons, hmarks₂, hmarks₁, or_assoc, List.exists_mem_cons_iff]

/-- The search marks exactly the numbers that some root leads to. -/
lemma marked_search_iff (h : Consistent g) (roots : List Declaration) :
    (g.search roots).marks.size = g.nodes.size ∧
      ∀ i : Nat, (g.search roots).marks[i]? = some true ↔
        ∃ root ∈ roots, ∃ k, g.number? root = some k ∧ ReflTransGen g.Leads k i := by
  have hnone : ∀ i : Nat, ¬ (Array.replicate g.nodes.size false)[i]? = some true := by
    intro i
    simp [Array.getElem?_replicate]
  obtain ⟨hsize, hmarks⟩ := marked_foldl_searchRoot h roots
    ⟨Array.replicate g.nodes.size false, []⟩ Array.size_replicate
    fun i _ hi => absurd hi (hnone i)
  rw [search_eq_foldl]
  exact ⟨hsize, fun i => (hmarks i).trans (or_iff_right (hnone i))⟩

/-! ## What is not reached -/

lemma mem_unreachable_iff_number (roots : List Declaration) (d : Declaration) :
    d ∈ g.unreachable roots ↔
      ∃ i : Nat, g.nodes[i]? = some d ∧ (g.search roots).marks[i]? = some false := by
  simp only [unreachable, Sorted.mem_sort, declarations, List.mem_filterMap, List.mem_filter,
    List.mem_range, beq_iff_eq]
  constructor
  · rintro ⟨i, ⟨_, hmark⟩, hd⟩
    exact ⟨i, hd, hmark⟩
  · rintro ⟨i, hd, hmark⟩
    exact ⟨i, ⟨(Array.getElem?_eq_some_iff.1 hd).1, hmark⟩, hd⟩

/-- A node is marked exactly if a root that is a node reaches it. -/
lemma Consistent.marked_iff_reaches (h : Consistent g) (roots : List Declaration) {i : Nat}
    {d : Declaration} (hi : g.nodes[i]? = some d) :
    (g.search roots).marks[i]? = some true ↔
      ∃ root ∈ roots, ∃ n ∈ g.nodes.toList, n.same root ∧ g.Reaches n d := by
  rw [(marked_search_iff h roots).2]
  refine exists_congr fun root => and_congr_right fun _ => ?_
  constructor
  · rintro ⟨k, hk, hlead⟩
    obtain ⟨n, hn, hkey⟩ := h.number?_eq_some_iff.1 hk
    exact ⟨n, mem_nodes_iff.2 ⟨k, hn⟩, Declaration.same_iff.2 hkey, (h.reaches_iff hn hi).2 hlead⟩
  · rintro ⟨n, hn, hsame, hreach⟩
    obtain ⟨k, hk⟩ := mem_nodes_iff.1 hn
    exact ⟨k, h.number?_eq_some_iff.2 ⟨n, hk, Declaration.same_iff.1 hsame⟩,
      (h.reaches_iff hk hi).1 hreach⟩

/-- A node is listed exactly if no root reaches it. -/
lemma Consistent.mem_unreachable_iff (h : Consistent g) {roots : List Declaration}
    {d : Declaration} :
    d ∈ g.unreachable roots ↔
      d ∈ g.nodes.toList ∧
        ¬ ∃ root ∈ roots, ∃ n ∈ g.nodes.toList, n.same root ∧ g.Reaches n d := by
  rw [mem_unreachable_iff_number, mem_nodes_iff]
  constructor
  · rintro ⟨i, hi, hmark⟩
    refine ⟨⟨i, hi⟩, fun hreach => ?_⟩
    rw [(h.marked_iff_reaches roots hi).2 hreach] at hmark
    cases hmark
  · rintro ⟨⟨i, hi⟩, hnot⟩
    have hlt : i < (g.search roots).marks.size := by
      rw [(marked_search_iff h roots).1]
      exact (Array.getElem?_eq_some_iff.1 hi).1
    exact ⟨i, hi, Search.getElem?_eq_false hlt
      fun hmark => hnot ((h.marked_iff_reaches roots hi).1 hmark)⟩

/-- What is not reached is listed once, in order. -/
lemma Consistent.strict_unreachable (h : Consistent g) (roots : List Declaration) :
    Sorted.Strict Declaration.compare (g.unreachable roots) := by
  refine Sorted.strict_sort ?_
  rw [declarations, List.pairwise_filterMap]
  refine ((List.pairwise_lt_range).filter _).imp fun {i j} hij a ha b hb hab => ?_
  exact Nat.ne_of_lt hij (h.number_unique ha hb (Declaration.compare_eq_iff.1 hab))

/-- **The search is exact.**  On every graph that calls can build and for all roots, nodes or not,
the unreachable declarations are exactly the nodes to which no path leads from a root that is a
node.  They are listed in strict order, so none is listed twice. -/
theorem unreachable_ofCalls (calls : List Call) (roots : List Declaration) :
    let g := ofCalls calls
    (∀ d, d ∈ g.unreachable roots ↔
      d ∈ g.nodes.toList ∧
        ¬ ∃ root ∈ roots, ∃ n ∈ g.nodes.toList, n.same root ∧ g.Reaches n d) ∧
    (g.unreachable roots).Pairwise fun a b => a.compare b = .lt := by
  intro g
  have hg : Consistent g := (reflects_ofCalls calls).consistent
  exact ⟨fun d => hg.mem_unreachable_iff, hg.strict_unreachable roots⟩

end ReferenceGraph

end GoReach
