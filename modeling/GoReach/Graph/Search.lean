import GoReach.Graph.Basic
import GoReach.Sorted

/-!
# Searching a reference graph

A depth-first search keeps a stack of nodes to be visited.  A node is marked when it is taken from
the stack, so it may lie there several times; it is visited only the first time.  Its unmarked
successors go onto the stack, the latest one first, so that the oldest one is visited next.  Marks
are kept from one root to the next.
-/

namespace GoReach

/-- Which nodes have been visited, and in what order, the latest one first. -/
structure Search where
  marks : Array Bool
  visited : List Nat := []

namespace Search

/-- Number of nodes that have not been visited. -/
def unmarked (marks : Array Bool) : Nat := marks.toList.countP (· == false)

theorem unmarked_set_lt {marks : Array Bool} {i : Nat} (h : marks[i]? = some false) :
    unmarked (marks.setIfInBounds i true) < unmarked marks := by
  obtain ⟨l⟩ := marks
  simp only [unmarked, List.setIfInBounds_toArray, List.getElem?_toArray] at h ⊢
  induction l generalizing i with
  | nil => simp at h
  | cons b rest ih =>
    cases i with
    | zero =>
      simp only [List.getElem?_cons_zero, Option.some.injEq] at h
      subst h
      simp
    | succ i =>
      simp only [List.getElem?_cons_succ] at h
      simp only [List.set_cons_succ, List.countP_cons]
      have := ih h
      omega

/-- Visit what is on the stack and all that can be reached from there through unmarked nodes. -/
def run (g : ReferenceGraph) (s : Search) (stack : List Nat) : Search :=
  match stack with
  | [] => s
  | i :: rest =>
    match _h : s.marks[i]? with
    | some false =>
      let marks := s.marks.setIfInBounds i true
      let next := (g.successorsOf i).filter fun j => marks[j]? == some false
      run g ⟨marks, i :: s.visited⟩ (next.reverse ++ rest)
    | _ => run g s rest
termination_by (unmarked s.marks, stack.length)
decreasing_by
  · exact Prod.Lex.left _ _ (unmarked_set_lt _h)
  · exact Prod.Lex.right _ (by simp)

end Search

namespace ReferenceGraph

/-- Search from one root after another; a root that is no node is passed over. -/
def search (g : ReferenceGraph) (roots : List Declaration) : Search :=
  roots.foldl
    (fun s root => match g.number? root with
      | some i => s.run g [i]
      | none => s)
    ⟨Array.replicate g.nodes.size false, []⟩

/-- The declarations that can be reached from the roots, in the order of the search. -/
def depthFirst (g : ReferenceGraph) (roots : List Declaration) : List Declaration :=
  g.declarations (g.search roots).visited.reverse

/-- The nodes that cannot be reached from the roots, in order. -/
def unreachable (g : ReferenceGraph) (roots : List Declaration) : List Declaration :=
  let marks := (g.search roots).marks
  let unmarked := (List.range g.nodes.size).filter fun i => marks[i]? == some false
  Sorted.sort Declaration.compare (g.declarations unmarked)

end ReferenceGraph

end GoReach
