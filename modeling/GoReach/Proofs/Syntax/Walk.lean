import GoReach.Proofs.Syntax.Preorder

/-!
# What a walk calls

The walk moves a cursor and keeps a stack.  Here it is compared with two things that know neither.

**Recursion.**  `Node.traverse` visits a node and then its children, by plain recursion.

**Places.**  A place in a tree is the list of the numbers of the children through which it is
reached, so the places of a tree are ordered like the words in a dictionary: a node comes before
what is below it, and all that is below a child comes before the next child.  `Node.visitAt?` goes
down to a place and remembers the nodes that it passes.  The visits of a tree are those at its
places, in this order (`inPreorder_visits`).

What the visitor was called on is seen from a visitor that notes down its calls (`Node.noting`).
Its notes are the visits, up to the first one on which the visitor fails (`calls_noting`).
-/

namespace GoReach.Syntax.Node

/-! ## Recursion -/

section Recursion

variable {σ ε : Type}

mutual

/-- Visit a node, and then all that is below it. -/
def traverse (visit : σ → List Node → Node → Except ε σ) (above : List Node) :
    Node → σ → Except ε σ
  | .node info cs, s => do
    let s ← visit s above (.node info cs)
    traverseAll visit (above ++ [.node info cs]) cs s

/-- Visit nodes with all that is below them, from the first to the last. -/
def traverseAll (visit : σ → List Node → Node → Except ε σ) (above : List Node) :
    List Node → σ → Except ε σ
  | [], s => .ok s
  | c :: rest, s => do
    let s ← c.traverse visit above s
    traverseAll visit above rest s

end

/-- Call a visitor on nodes, one after the other. -/
def callAll (visit : σ → List Node → Node → Except ε σ) (s : σ) (visits : List (List Node × Node)) :
    Except ε σ :=
  visits.foldlM (fun s v => visit s v.1 v.2) s

mutual

/-- The recursion calls the visitor on the visits of the tree. -/
lemma traverse_eq_callAll (visit : σ → List Node → Node → Except ε σ) (above : List Node) :
    ∀ (t : Node) (s : σ), t.traverse visit above s = callAll visit s (t.visits above)
  | .node info cs, s => by
      rw [traverse, visits, callAll, List.foldlM_cons]
      congr 1
      funext s'
      exact traverseAll_eq_callAll visit (above ++ [.node info cs]) cs s'

lemma traverseAll_eq_callAll (visit : σ → List Node → Node → Except ε σ) (above : List Node) :
    ∀ (ts : List Node) (s : σ), traverseAll visit above ts s = callAll visit s (visitsAll above ts)
  | [], s => by
      rw [traverseAll, visitsAll]
      rfl
  | t :: ts, s => by
      rw [traverseAll, visitsAll, callAll, List.foldlM_append, traverse_eq_callAll visit above t s]
      congr 1
      funext s'
      exact traverseAll_eq_callAll visit above ts s'

end

/-! ## Notes of the calls -/

/-- A visitor that notes down on what it is called before it answers.  The notes are kept even if it
fails. -/
def noting (visit : σ → List Node → Node → Except ε σ) (s : σ × List (List Node × Node))
    (above : List Node) (n : Node) :
    Except (ε × List (List Node × Node)) (σ × List (List Node × Node)) :=
  match visit s.1 above n with
  | .ok s' => .ok (s', s.2 ++ [(above, n)])
  | .error e => .error (e, s.2 ++ [(above, n)])

/-- The calls end in one of two ways: the visitor answers to all of them, or it fails on one after
it has answered to all before.  What it has noted are the calls up to then. -/
lemma calls_noting (visit : σ → List Node → Node → Except ε σ) (s : σ)
    (visits noted : List (List Node × Node)) :
    (∃ s', callAll visit s visits = .ok s' ∧
      callAll (noting visit) (s, noted) visits = .ok (s', noted ++ visits)) ∨
    ∃ before v after s' e, visits = before ++ v :: after ∧ callAll visit s before = .ok s' ∧
      visit s' v.1 v.2 = .error e ∧ callAll visit s visits = .error e ∧
      callAll (noting visit) (s, noted) visits = .error (e, noted ++ (before ++ [v])) := by
  induction visits generalizing s noted with
  | nil => exact Or.inl ⟨s, rfl, by simp [callAll, pure, Except.pure]⟩
  | cons v visits ih =>
      simp only [callAll, List.foldlM_cons] at ih ⊢
      cases hv : visit s v.1 v.2 with
      | error e =>
          refine Or.inr ⟨[], v, visits, s, e, rfl, rfl, hv, ?_, ?_⟩
          · simp [bind, Except.bind]
          · simp [noting, hv, bind, Except.bind]
      | ok s₁ =>
          have hnoted : noting visit (s, noted) v.1 v.2 = .ok (s₁, noted ++ [v]) := by
            simp [noting, hv]
          rw [hnoted]
          rcases ih s₁ (noted ++ [v]) with
            ⟨s', hcall, hnote⟩ | ⟨before, w, after, s', e, rfl, hcall, hw, herror, hnote⟩
          · refine Or.inl ⟨s', hcall, ?_⟩
            simpa [bind, Except.bind] using hnote
          · refine Or.inr ⟨v :: before, w, after, s', e, rfl, ?_, hw, herror, ?_⟩
            · simpa [List.foldlM_cons, hv, bind, Except.bind] using hcall
            · simpa [bind, Except.bind] using hnote

end Recursion

/-! ## Places -/

/-- Go down to a place: the nodes that are passed on the way, and the node there. -/
def visitAt? (above : List Node) (t : Node) : List Nat → Option (List Node × Node)
  | [] => some (above, t)
  | i :: place => t.children[i]?.bind fun c => c.visitAt? (above ++ [t]) place

mutual

/-- The places of a tree, as the recursion comes by them. -/
def places : Node → List (List Nat)
  | .node _ cs => [] :: placesFrom 0 cs

/-- The places below children that are numbered from `i` on. -/
def placesFrom (i : Nat) : List Node → List (List Nat)
  | [] => []
  | c :: rest => c.places.map (i :: ·) ++ placesFrom (i + 1) rest

end

/-- Visits are in pre-order: they are those at the places of the tree, every place once, in the
order of places. -/
structure InPreorder (t : Node) (places : List (List Nat)) (visits : List (List Node × Node)) :
    Prop where
  increasing : places.Pairwise (List.Lex (· < ·))
  complete : ∀ place, place ∈ places ↔ ∃ v, t.visitAt? [] place = some v
  visits : places.map (t.visitAt? []) = visits.map some

/-- A place among children begins with the number of a child, and goes on with a place below it. -/
lemma mem_placesFrom_iff {i : Nat} {ts : List Node} {place : List Nat} :
    place ∈ placesFrom i ts ↔
      ∃ j c rest, ts[j]? = some c ∧ place = (i + j) :: rest ∧ rest ∈ c.places := by
  induction ts generalizing i with
  | nil => simp [placesFrom]
  | cons t ts ih =>
      rw [placesFrom, List.mem_append, List.mem_map, ih]
      constructor
      · rintro (⟨rest, hrest, rfl⟩ | ⟨j, c, rest, hc, rfl, hrest⟩)
        · exact ⟨0, t, rest, by simp, by simp, hrest⟩
        · exact ⟨j + 1, c, rest, by simpa using hc, by simp; omega, hrest⟩
      · rintro ⟨j, c, rest, hc, rfl, hrest⟩
        cases j with
        | zero =>
            obtain rfl : t = c := by simpa using hc
            exact Or.inl ⟨rest, hrest, by simp⟩
        | succ j => exact Or.inr ⟨j, c, rest, by simpa using hc, by simp; omega, hrest⟩

/-- The places are those that one can go down to. -/
lemma mem_places_iff {above : List Node} {t : Node} {place : List Nat} :
    place ∈ t.places ↔ ∃ v, t.visitAt? above place = some v := by
  induction place generalizing above t with
  | nil =>
      obtain ⟨info, cs⟩ := t
      simp [places, visitAt?]
  | cons i place ih =>
      obtain ⟨info, cs⟩ := t
      simp only [places, List.mem_cons, mem_placesFrom_iff, visitAt?, children,
        Option.bind_eq_some_iff, reduceCtorEq, false_or, List.cons.injEq, Nat.zero_add]
      constructor
      · rintro ⟨j, c, rest, hc, ⟨rfl, rfl⟩, hrest⟩
        obtain ⟨v, hv⟩ := ih.1 hrest
        exact ⟨v, c, hc, hv⟩
      · rintro ⟨v, c, hc, hv⟩
        exact ⟨i, c, place, hc, ⟨rfl, rfl⟩, ih.2 ⟨v, hv⟩⟩

mutual

/-- A node comes before all that is below it, and what is below a child before what is below later
ones. -/
lemma increasing_places : ∀ t : Node, t.places.Pairwise (List.Lex (· < ·))
  | .node info cs => by
      rw [places, List.pairwise_cons]
      refine ⟨?_, increasing_placesFrom 0 cs⟩
      intro place hplace
      obtain ⟨j, c, rest, -, rfl, -⟩ := mem_placesFrom_iff.1 hplace
      exact .nil

lemma increasing_placesFrom (i : Nat) : ∀ ts : List Node,
    (placesFrom i ts).Pairwise (List.Lex (· < ·))
  | [] => by simp [placesFrom]
  | t :: ts => by
      rw [placesFrom, List.pairwise_append, List.pairwise_map]
      refine ⟨(increasing_places t).imp .cons, increasing_placesFrom (i + 1) ts, ?_⟩
      -- below the first child the number is `i`, and below all others it is greater
      intro place hplace other hother
      obtain ⟨rest, -, rfl⟩ := List.mem_map.1 hplace
      obtain ⟨j, c, rest', -, rfl, -⟩ := mem_placesFrom_iff.1 hother
      exact .rel (by omega)

end

mutual

/-- What is found at the places are the visits, in the same order. -/
lemma map_visitAt?_places (above : List Node) : ∀ t : Node,
    t.places.map (t.visitAt? above) = (t.visits above).map some
  | .node info cs => by
      rw [places, visits, List.map_cons, List.map_cons]
      congr 1
      exact map_visitAt?_placesFrom above (.node info cs) 0 cs rfl

/-- The same for the children from number `i` on. -/
lemma map_visitAt?_placesFrom (above : List Node) (t : Node) (i : Nat) : ∀ ts : List Node,
    t.children.drop i = ts →
      (placesFrom i ts).map (t.visitAt? above) = (visitsAll (above ++ [t]) ts).map some
  | [], _ => by simp [placesFrom, visitsAll]
  | c :: ts, hts => by
      have hc : t.children[i]? = some c := by
        rw [← List.head?_drop, hts]
        rfl
      have hrest : t.children.drop (i + 1) = ts := by
        rw [← List.tail_drop, hts]
        rfl
      have hchild : (fun place => t.visitAt? above (i :: place)) = c.visitAt? (above ++ [t]) := by
        funext place
        simp [visitAt?, hc]
      rw [placesFrom, visitsAll, List.map_append, List.map_append, List.map_map,
        map_visitAt?_placesFrom above t (i + 1) ts hrest, ← map_visitAt?_places (above ++ [t]) c,
        ← hchild]
      rfl

end

/-- The visits are those of the recursion, in pre-order. -/
lemma inPreorder_visits (t : Node) : t.InPreorder t.places (t.visits []) :=
  ⟨increasing_places t, fun _ => mem_places_iff, map_visitAt?_places [] t⟩

/-! ## The walk -/

/-- **The walk calls its visitor in pre-order.**  It does what the recursion does.  The visitor is
called on all visits of the tree, each once and in order, unless it fails; then the walk fails with
its error, and the visitor has been called up to the first node on which it failed. -/
theorem walk_in_preorder {σ ε : Type} (visit : σ → List Node → Node → Except ε σ) (t : Node)
    (s : σ) :
    ∃ places visits, t.InPreorder places visits ∧
      t.walk visit s = t.traverse visit [] s ∧
      ((∃ s', callAll visit s visits = .ok s' ∧ t.walk visit s = .ok s' ∧
          t.walk (noting visit) (s, []) = .ok (s', visits)) ∨
        ∃ before v after s' e, visits = before ++ v :: after ∧ callAll visit s before = .ok s' ∧
          visit s' v.1 v.2 = .error e ∧ t.walk visit s = .error e ∧
          t.walk (noting visit) (s, []) = .error (e, before ++ [v])) := by
  refine ⟨t.places, t.visits [], inPreorder_visits t, ?_, ?_⟩
  · rw [walk_eq_foldlM, traverse_eq_callAll, callAll]
  · rw [walk_eq_foldlM, walk_eq_foldlM]
    rcases calls_noting visit s (t.visits []) [] with ⟨s', hcall, hnote⟩ | ⟨before, v, after, s', e,
      hvisits, hcall, hv, herror, hnote⟩
    · exact Or.inl ⟨s', hcall, hcall, hnote⟩
    · exact Or.inr ⟨before, v, after, s', e, hvisits, hcall, hv, herror, hnote⟩

end GoReach.Syntax.Node
