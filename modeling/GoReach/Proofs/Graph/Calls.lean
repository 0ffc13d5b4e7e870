import Mathlib.Data.List.Induction
import GoReach.Proofs.Graph.Consistency

/-!
# Graphs as histories of calls

A graph is built from the empty one by calls of `addNode` and `addEdge`.  Every call *offers*
declarations and links: `addNode d` offers `d`, `addEdge a b` offers both ends and the link between
them, unless they are the same declaration, in which case it offers nothing.

`reflects_ofCalls` is the run lemma.  After any calls, the nodes are the offered declarations and
the edges the offered links, each in the order of its first offer.  It follows by induction on the
calls from `reflects_call`, which is what one call preserves.
-/

namespace GoReach

/-! ## Keeping the first of equal elements -/

/-- The last element of a list is kept exactly if no kept one before it is equal. -/
lemma eraseDupsBy_concat {α : Type} (r : α → α → Bool) (as : List α) (a : α) :
    (as ++ [a]).eraseDupsBy r
      = if (as.eraseDupsBy r).any (r a) then as.eraseDupsBy r else as.eraseDupsBy r ++ [a] := by
  have hloop : ∀ bs as : List α, List.eraseDupsBy.loop r (as ++ [a]) bs
      = if (List.eraseDupsBy.loop r as bs).any (r a) then List.eraseDupsBy.loop r as bs
        else List.eraseDupsBy.loop r as bs ++ [a] := by
    intro bs as
    induction as generalizing bs with
    | nil =>
        simp only [List.nil_append, List.eraseDupsBy.loop, List.any_reverse]
        cases bs.any (r a) <;> simp
    | cons b as ih =>
        rw [List.cons_append, List.eraseDupsBy.loop, List.eraseDupsBy.loop]
        split
        next => exact ih bs
        next => exact ih (b :: bs)
  exact hloop [] as

/-- What is kept was there. -/
lemma mem_of_mem_eraseDupsBy {α : Type} {r : α → α → Bool} {as : List α} {x : α}
    (h : x ∈ as.eraseDupsBy r) : x ∈ as := by
  induction as using List.reverseRecOn with
  | nil => exact h
  | append_singleton as a ih =>
      rw [eraseDupsBy_concat] at h
      split at h
      · exact List.mem_append_left [a] (ih h)
      · exact List.mem_append.2 ((List.mem_append.1 h).imp_left ih)

/-- Of every element the list keeps one that is equal to it. -/
lemma exists_mem_eraseDupsBy {α : Type} {r : α → α → Bool} (hr : ∀ a, r a a = true) {as : List α}
    {x : α} (h : x ∈ as) : ∃ y ∈ as.eraseDupsBy r, r x y = true := by
  induction as using List.reverseRecOn with
  | nil => cases h
  | append_singleton as a ih =>
      rw [eraseDupsBy_concat]
      rcases List.mem_append.1 h with h | h
      · obtain ⟨y, hy, hxy⟩ := ih h
        refine ⟨y, ?_, hxy⟩
        split
        · exact hy
        · exact List.mem_append_left [a] hy
      · rw [List.mem_singleton.1 h]
        split
        next hany => exact List.any_eq_true.1 hany
        next => exact ⟨a, List.mem_append_right _ List.mem_cons_self, hr a⟩

lemma nodup_eraseDups {α : Type} [BEq α] [LawfulBEq α] (as : List α) : as.eraseDups.Nodup := by
  induction as using List.reverseRecOn with
  | nil => exact List.nodup_nil
  | append_singleton as a ih =>
      rw [List.eraseDups, eraseDupsBy_concat]
      split
      next => exact ih
      next hany =>
        refine List.nodup_append.2 ⟨ih, List.pairwise_singleton _ a, fun x hx y hy hxy => hany ?_⟩
        rw [List.mem_singleton.1 hy] at hxy
        exact List.any_eq_true.2 ⟨x, hx, beq_iff_eq.2 hxy.symm⟩

namespace ReferenceGraph

/-- A call on a graph. -/
inductive Call where
  | node (d : Declaration)
  | edge (a b : Declaration)
deriving DecidableEq, Repr, Inhabited

namespace Call

/-- Carry out a call. -/
def run (g : ReferenceGraph) : Call → Bool × ReferenceGraph
  | .node d => g.addNode d
  | .edge a b => g.addEdge a b

/-- The declarations that a call offers as nodes. -/
def offered : Call → List Declaration
  | .node d => [d]
  | .edge a b => if a.same b then [] else [a, b]

/-- The link that a call offers as an edge. -/
def links : Call → List (Declaration.Key × Declaration.Key)
  | .node _ => []
  | .edge a b => if a.same b then [] else [(a.key, b.key)]

end Call

/-- The graph that calls build from the empty one. -/
def ofCalls (calls : List Call) : ReferenceGraph :=
  calls.foldl (fun g c => (c.run g).2) empty

lemma ofCalls_concat (calls : List Call) (c : Call) :
    ofCalls (calls ++ [c]) = (c.run (ofCalls calls)).2 := by
  rw [ofCalls, List.foldl_append]
  rfl

/-- What joins two declarations, by what makes them the ones they are. -/
def linkOf (e : Declaration × Declaration) : Declaration.Key × Declaration.Key :=
  (e.1.key, e.2.key)

/-- A graph holds what calls have offered. -/
structure Reflects (g : ReferenceGraph) (calls : List Call) : Prop where
  consistent : Consistent g
  nodes_eq : g.nodes.toList = (calls.flatMap Call.offered).eraseDupsBy Declaration.same
  links_eq : g.edgeList.map linkOf = (calls.flatMap Call.links).eraseDups

/-- A node is added as the last element of a list is kept. -/
lemma withNode_eraseDupsBy (ds : List Declaration) (d : Declaration) :
    withNode (ds.eraseDupsBy Declaration.same) d = (ds ++ [d]).eraseDupsBy Declaration.same :=
  (eraseDupsBy_concat _ ds d).symm

/-- What is a node already does not become one again. -/
lemma withNode_of_containsNode {g : ReferenceGraph} (h : Consistent g) {d : Declaration}
    (hd : g.containsNode d = true) : withNode g.nodes.toList d = g.nodes.toList :=
  if_pos (h.any_same_iff.2 hd)

/-- An edge is added as the last element of a list is kept. -/
lemma links_concat {g : ReferenceGraph} {links : List (Declaration.Key × Declaration.Key)}
    (h : Consistent g) (hlinks : g.edgeList.map linkOf = links.eraseDups) (a b : Declaration) :
    (links ++ [(a.key, b.key)]).eraseDups
      = if g.containsEdge a b then g.edgeList.map linkOf
        else g.edgeList.map linkOf ++ [(a.key, b.key)] := by
  have hany : links.eraseDups.any ((a.key, b.key) == ·) = true ↔ g.containsEdge a b = true := by
    rw [← hlinks, h.containsEdge_iff, List.any_map, List.any_eq_true]
    refine exists_congr fun e => and_congr_right fun _ => ?_
    rw [Function.comp_apply, beq_iff_eq, linkOf, Prod.mk.injEq]
    exact and_congr eq_comm eq_comm
  rw [List.eraseDups, eraseDupsBy_concat, ← List.eraseDups, hlinks]
  by_cases hc : g.containsEdge a b = true
  · rw [if_pos hc, if_pos (hany.2 hc)]
  · rw [if_neg hc, if_neg fun hx => hc (hany.1 hx)]

/-- A node that is offered, ... -/
lemma reflects_addNode {g : ReferenceGraph} {calls : List Call} (h : Reflects g calls)
    (d : Declaration) : Reflects (g.addNode d).2 (calls ++ [.node d]) := by
  obtain ⟨hg, hnodes, hlinks⟩ := h
  have hlinks' : g.edgeList.map linkOf
      = ((calls ++ [Call.node d]).flatMap Call.links).eraseDups := by
    simpa [Call.links] using hlinks
  have hnodes' : withNode g.nodes.toList d
      = ((calls ++ [Call.node d]).flatMap Call.offered).eraseDupsBy Declaration.same := by
    rw [hnodes, withNode_eraseDupsBy]
    simp [Call.offered]
  rw [addNode]
  split
  next hd =>
    rw [withNode_of_containsNode hg hd] at hnodes'
    exact ⟨hg, hnodes', hlinks'⟩
  next hd =>
    have hnone : g.number? d = none := by simpa [containsNode] using hd
    rw [withNode, if_neg fun hx => hd (hg.any_same_iff.1 hx)] at hnodes'
    refine ⟨hg.insertNode hnone, ?_, ?_⟩
    · rw [← hnodes', insertNode, Array.toList_push]
    · rw [hg.edgeList_insertNode d, hlinks']

/-- The ends of an edge that is there are nodes already. -/
lemma withNode_of_containsEdge {g : ReferenceGraph} (h : Consistent g) {a b : Declaration}
    (hedge : g.containsEdge a b = true) :
    withNode (withNode g.nodes.toList a) b = g.nodes.toList := by
  obtain ⟨e, he, hea, heb⟩ := h.containsEdge_iff.1 hedge
  obtain ⟨h1, h2⟩ := mem_nodes_of_mem_edgeList he
  rw [withNode_of_containsNode h (h.containsNode_iff.2 ⟨e.1, h1, hea⟩),
    withNode_of_containsNode h (h.containsNode_iff.2 ⟨e.2, h2, heb⟩)]

/-- ... and an edge with its ends. -/
lemma reflects_addEdge {g : ReferenceGraph} {calls : List Call} (h : Reflects g calls)
    (a b : Declaration) : Reflects (g.addEdge a b).2 (calls ++ [.edge a b]) := by
  obtain ⟨hg, hnodes, hlinks⟩ := h
  by_cases hab : a.same b = true
  · -- An edge from a declaration to itself is not added, and offers nothing.
    have heq : g.addEdge a b = (false, g) := by simp [addEdge, hab]
    rw [heq]
    exact ⟨hg, by simpa [Call.offered, hab] using hnodes, by simpa [Call.links, hab] using hlinks⟩
  have hoffered : ((calls ++ [Call.edge a b]).flatMap Call.offered).eraseDupsBy Declaration.same
      = withNode (withNode g.nodes.toList a) b := by
    rw [hnodes, withNode_eraseDupsBy, withNode_eraseDupsBy]
    simp [Call.offered, hab]
  have hlinked : ((calls ++ [Call.edge a b]).flatMap Call.links).eraseDups
      = if g.containsEdge a b then g.edgeList.map linkOf
        else g.edgeList.map linkOf ++ [(a.key, b.key)] := by
    rw [← links_concat hg hlinks a b]
    simp [Call.links, hab]
  rcases hg.addEdge_cases a b with
    ⟨hc, heq⟩ | ⟨-, hno, g', m, n, heq, hg', hnodes', hedges', hm, hn⟩
  · have hedge : g.containsEdge a b = true :=
      hc.resolve_left fun hx => hab (Declaration.same_iff.2 hx)
    rw [heq]
    refine ⟨hg, ?_, ?_⟩
    · rw [hoffered, withNode_of_containsEdge hg hedge]
    · rw [hlinked, if_pos hedge]
  · rw [heq]
    refine ⟨hg', ?_, ?_⟩
    · rw [hnodes', hoffered]
    · rw [hedges', List.map_append, List.map_singleton, linkOf, hm, hn, hlinked, hno,
        if_neg Bool.false_ne_true]

/-- A call keeps a graph in step with the calls. -/
lemma reflects_call {g : ReferenceGraph} {calls : List Call} (h : Reflects g calls) (c : Call) :
    Reflects (c.run g).2 (calls ++ [c]) := by
  cases c with
  | node d => exact reflects_addNode h d
  | edge a b => exact reflects_addEdge h a b

/-- **After any calls, a graph holds exactly what they offered.** -/
lemma reflects_ofCalls (calls : List Call) : Reflects (ofCalls calls) calls := by
  induction calls using List.reverseRecOn with
  | nil => exact ⟨consistent_empty, rfl, rfl⟩
  | append_singleton calls c ih =>
      rw [ofCalls_concat]
      exact reflects_call ih c

/-! ## What the views say after calls -/

/-- Every node is literally one of the declarations that the calls offered. -/
lemma mem_offered_of_mem_nodes {calls : List Call} {n : Declaration}
    (h : n ∈ (ofCalls calls).nodes.toList) : n ∈ calls.flatMap Call.offered := by
  rw [(reflects_ofCalls calls).nodes_eq] at h
  exact mem_of_mem_eraseDupsBy h

/-- The nodes are what was offered, by their keys. -/
lemma containsNode_ofCalls_iff {calls : List Call} {d : Declaration} :
    (ofCalls calls).containsNode d = true ↔ ∃ e ∈ calls.flatMap Call.offered, e.key = d.key := by
  obtain ⟨hg, hnodes, -⟩ := reflects_ofCalls calls
  rw [hg.containsNode_iff]
  constructor
  · rintro ⟨n, hn, hkey⟩
    exact ⟨n, mem_offered_of_mem_nodes hn, hkey⟩
  · rintro ⟨e, he, hkey⟩
    obtain ⟨n, hn, hen⟩ :=
      exists_mem_eraseDupsBy (fun a => Declaration.same_iff.2 (rfl : a.key = a.key)) he
    rw [← hnodes] at hn
    exact ⟨n, hn, (Declaration.same_iff.1 hen).symm.trans hkey⟩

/-- The edges are the links, by the keys of their ends. -/
lemma containsEdge_ofCalls_iff {calls : List Call} {a b : Declaration} :
    (ofCalls calls).containsEdge a b = true ↔ (a.key, b.key) ∈ calls.flatMap Call.links := by
  obtain ⟨hg, -, hlinks⟩ := reflects_ofCalls calls
  rw [hg.containsEdge_iff, ← List.mem_eraseDups, ← hlinks, List.mem_map]
  refine exists_congr fun e => and_congr_right fun _ => ?_
  rw [linkOf, Prod.mk.injEq]

lemma mem_offered_iff {calls : List Call} {e : Declaration} :
    e ∈ calls.flatMap Call.offered ↔
      Call.node e ∈ calls ∨
        ∃ a b, Call.edge a b ∈ calls ∧ a.key ≠ b.key ∧ (e = a ∨ e = b) := by
  rw [List.mem_flatMap]
  constructor
  · rintro ⟨c, hc, he⟩
    cases c with
    | node d => exact Or.inl (List.mem_singleton.1 he ▸ hc)
    | edge a b =>
        right
        rw [Call.offered] at he
        split at he
        next => cases he
        next hab =>
          refine ⟨a, b, hc, fun h => hab (Declaration.same_iff.2 h), ?_⟩
          simpa using he
  · rintro (h | ⟨a, b, h, hab, he⟩)
    · exact ⟨_, h, List.mem_singleton_self e⟩
    · refine ⟨_, h, ?_⟩
      rw [Call.offered, if_neg fun hx => hab (Declaration.same_iff.1 hx)]
      simpa using he

/-- A link joins the different ends of an edge. -/
lemma mem_links_iff {calls : List Call} {k l : Declaration.Key} :
    (k, l) ∈ calls.flatMap Call.links ↔
      k ≠ l ∧ ∃ a b, Call.edge a b ∈ calls ∧ a.key = k ∧ b.key = l := by
  rw [List.mem_flatMap]
  constructor
  · rintro ⟨c, hc, he⟩
    cases c with
    | node d => cases he
    | edge a b =>
        rw [Call.links] at he
        split at he
        next => cases he
        next hab =>
          obtain ⟨rfl, rfl⟩ := Prod.mk.inj (List.mem_singleton.1 he)
          exact ⟨fun h => hab (Declaration.same_iff.2 h), a, b, hc, rfl, rfl⟩
  · rintro ⟨hne, a, b, hc, rfl, rfl⟩
    refine ⟨_, hc, ?_⟩
    rw [Call.links, if_neg fun hx => hne (Declaration.same_iff.1 hx)]
    exact List.mem_singleton_self _

/-- `addNode` says whether the set of nodes has changed; if not, nothing has. -/
lemma addNode_changes (calls : List Call) (d : Declaration) :
    (((ofCalls calls).addNode d).1 = true ↔
        ∃ x, ((ofCalls calls).addNode d).2.containsNode x ≠ (ofCalls calls).containsNode x) ∧
      (((ofCalls calls).addNode d).1 = false →
        ((ofCalls calls).addNode d).2 = ofCalls calls) := by
  have hafter : ((ofCalls calls).addNode d).2.containsNode d = true := by
    have hcall : ((ofCalls calls).addNode d).2 = ofCalls (calls ++ [.node d]) :=
      (ofCalls_concat calls (.node d)).symm
    rw [hcall, containsNode_ofCalls_iff]
    exact ⟨d, mem_offered_iff.2 (Or.inl (by simp)), rfl⟩
  rw [addNode] at hafter ⊢
  split
  next => simp
  next hd =>
    rw [if_neg hd] at hafter
    refine ⟨iff_of_true rfl ⟨d, ?_⟩, nofun⟩
    rw [hafter]
    exact Ne.symm hd

/-- `addEdge` says whether the set of edges has changed; if not, nothing has. -/
lemma addEdge_changes (calls : List Call) (a b : Declaration) :
    (((ofCalls calls).addEdge a b).1 = true ↔
        ∃ x y, ((ofCalls calls).addEdge a b).2.containsEdge x y
          ≠ (ofCalls calls).containsEdge x y) ∧
      (((ofCalls calls).addEdge a b).1 = false →
        ((ofCalls calls).addEdge a b).2 = ofCalls calls) := by
  rcases (reflects_ofCalls calls).consistent.addEdge_cases a b with
    ⟨-, heq⟩ | ⟨-, hno, g', m, n, heq, hg', -, hedges, hm, hn⟩
  · rw [heq]
    simp
  · rw [heq]
    refine ⟨iff_of_true rfl ⟨a, b, ?_⟩, nofun⟩
    have hafter : g'.containsEdge a b = true := by
      rw [hg'.containsEdge_iff, hedges]
      exact ⟨(m, n), by simp, hm, hn⟩
    rw [hafter, hno]
    exact fun h => Bool.noConfusion h

/-- **A graph after any calls.**  No two nodes are the same declaration, and they stand in the order
of their first offers, as they were first offered.  A declaration is a node if it was given to
`addNode` or was an end of an edge between two different declarations; there is an edge if `addEdge`
was given its ends and they differ.  Edges are listed once, in the order of their first offers, and
join nodes; the targets of a declaration are those of its edges, the latest one first.  A further
call says whether it changes the set of nodes or of edges, and if not, the graph stays as it is. -/
theorem ofCalls_views (calls : List Call) :
    let g := ofCalls calls
    (g.nodes.toList.Pairwise fun a b => ¬ a.same b) ∧
    g.nodes.toList = (calls.flatMap Call.offered).eraseDupsBy Declaration.same ∧
    (∀ d, g.containsNode d ↔
      (∃ e, Call.node e ∈ calls ∧ e.same d) ∨
        ∃ a b, Call.edge a b ∈ calls ∧ ¬ a.same b ∧ (a.same d ∨ b.same d)) ∧
    (∀ a b, g.containsEdge a b ↔
      ¬ a.same b ∧ ∃ x y, Call.edge x y ∈ calls ∧ x.same a ∧ y.same b) ∧
    (g.edgeList.Pairwise fun e f => ¬ (e.1.same f.1 ∧ e.2.same f.2)) ∧
    g.edgeList.map linkOf = (calls.flatMap Call.links).eraseDups ∧
    (∀ e ∈ g.edgeList, e.1 ∈ g.nodes.toList ∧ e.2 ∈ g.nodes.toList) ∧
    (∀ d, g.targets d = ((g.edgeList.filter fun e => e.1.same d).map Prod.snd).reverse) ∧
    (∀ d, ((g.addNode d).1 = true ↔ ∃ x, (g.addNode d).2.containsNode x ≠ g.containsNode x) ∧
      ((g.addNode d).1 = false → (g.addNode d).2 = g)) ∧
    (∀ a b, ((g.addEdge a b).1 = true ↔
        ∃ x y, (g.addEdge a b).2.containsEdge x y ≠ g.containsEdge x y) ∧
      ((g.addEdge a b).1 = false → (g.addEdge a b).2 = g)) := by
  intro g
  obtain ⟨hg, hnodes, hlinks⟩ := reflects_ofCalls calls
  refine ⟨?_, hnodes, fun d => ?_, fun a b => ?_, ?_, hlinks,
    fun e he => mem_nodes_of_mem_edgeList he, hg.targets_eq, addNode_changes calls,
    addEdge_changes calls⟩
  · simp only [Declaration.same_iff]
    exact List.pairwise_map.1 hg.nodup_keys
  · rw [containsNode_ofCalls_iff]
    simp only [mem_offered_iff, Declaration.same_iff]
    constructor
    · rintro ⟨e, h | ⟨a, b, h, hab, rfl | rfl⟩, hkey⟩
      · exact Or.inl ⟨e, h, hkey⟩
      · exact Or.inr ⟨e, b, h, hab, Or.inl hkey⟩
      · exact Or.inr ⟨a, e, h, hab, Or.inr hkey⟩
    · rintro (⟨e, h, hkey⟩ | ⟨a, b, h, hab, hkey | hkey⟩)
      · exact ⟨e, Or.inl h, hkey⟩
      · exact ⟨a, Or.inr ⟨a, b, h, hab, Or.inl rfl⟩, hkey⟩
      · exact ⟨b, Or.inr ⟨a, b, h, hab, Or.inr rfl⟩, hkey⟩
  · rw [containsEdge_ofCalls_iff, mem_links_iff]
    simp only [Declaration.same_iff, ne_eq]
  · have hnodup : (g.edgeList.map linkOf).Nodup := by
      rw [hlinks]
      exact nodup_eraseDups _
    refine (List.pairwise_map.1 hnodup).imp fun {e f} hne hsame => hne ?_
    rw [linkOf, linkOf, Declaration.same_iff.1 hsame.1, Declaration.same_iff.1 hsame.2]

end ReferenceGraph

end GoReach
