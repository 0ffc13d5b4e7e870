import GoReach.Proofs.Completion

/-!
# The first fault of a tree

`Node.fault` never looks back: at every level it commits itself to the first child in which
something is said to be wrong, and goes down into it.  That finds the first fault in the order of
the text if all nodes are right about what is below them (`Node.FlagsThroughout`): then a child is
passed by only if there is no fault in it, and there is one in the child that is taken.

So what an error reports is the place of the first fault (`check_first_fault`).
-/

namespace GoReach

namespace Syntax.Node

/-! ## Nodes below nodes -/

mutual

/-- What is above a tree does not matter for the nodes in it. -/
lemma map_snd_visits (above above' : List Node) : ∀ t : Node,
    (t.visits above).map Prod.snd = (t.visits above').map Prod.snd
  | .node info cs => by
      simp [visits, map_snd_visitsAll (above ++ [.node info cs]) (above' ++ [.node info cs]) cs]

lemma map_snd_visitsAll (above above' : List Node) : ∀ ts : List Node,
    (visitsAll above ts).map Prod.snd = (visitsAll above' ts).map Prod.snd
  | [] => by simp [visitsAll]
  | t :: ts => by
      simp [visitsAll, map_snd_visits above above' t, map_snd_visitsAll above above' ts]

end

lemma map_snd_visitsAll_eq_flatMap (above ts : List Node) :
    (visitsAll above ts).map Prod.snd = ts.flatMap nodes := by
  induction ts with
  | nil => simp [visitsAll]
  | cons t ts ih => simp [visitsAll, ih, nodes, map_snd_visits above [] t]

/-- The nodes of a tree are its root and then those of its children. -/
@[simp] lemma nodes_node (info : NodeInfo) (cs : List Node) :
    (node info cs).nodes = node info cs :: cs.flatMap nodes := by
  rw [nodes, visits, List.map_cons, map_snd_visitsAll_eq_flatMap]

/-! ## Looking for faults -/

/-- Every node of a tree says that there is an error exactly if it or a node below it is a fault. -/
def FlagsThroughout (t : Node) : Prop := ∀ n ∈ t.nodes, Disk.FlagsFaults n

/-- No node that comes before this fault in the text is one. -/
def IsFirstFault (t n : Node) : Prop :=
  ∃ before after, t.nodes = before ++ n :: after ∧ n.isFault = true ∧
    ∀ m ∈ before, m.isFault = false

/-- A node is looked into exactly if there is a fault in it. -/
lemma looked_into_iff {t : Node} (h : Disk.FlagsFaults t) :
    (t.info.hasError || t.info.isMissing) = true ↔ ∃ n ∈ t.nodes, n.isFault = true := by
  rw [Bool.or_eq_true]
  constructor
  · rintro (herror | hmissing)
    · exact h.1 herror
    · exact ⟨t, mem_nodes_self t, by simp [isFault, hmissing]⟩
  · intro hfault
    exact Or.inl (h.2 hfault)

mutual

/-- A tree in which there is a fault: going down ends at the first one. -/
lemma find?_nodes : ∀ t : Node, (∀ n ∈ t.nodes, Disk.FlagsFaults n) →
    (∃ n ∈ t.nodes, n.isFault = true) → t.nodes.find? isFault = some t.fault
  | .node info cs, hflags, hfault => by
      have hdown : fault (.node info cs) = if (node info cs).isFault then .node info cs
          else (faultAmong cs).getD (.node info cs) := by
        rw [fault]
        rfl
      rw [nodes_node] at hflags hfault ⊢
      rw [hdown]
      by_cases hself : (node info cs).isFault = true
      · rw [if_pos hself, List.find?_cons_of_pos hself]
      · have hbelow : ∃ n ∈ cs.flatMap nodes, n.isFault = true := by
          obtain ⟨n, hn, hnfault⟩ := hfault
          rcases List.mem_cons.1 hn with rfl | hn
          · exact absurd hnfault hself
          · exact ⟨n, hn, hnfault⟩
        rw [if_neg hself, List.find?_cons_of_neg hself,
          faultAmong_eq_find? cs fun n hn => hflags n (List.mem_cons_of_mem _ hn)]
        obtain ⟨n, hn⟩ := Option.isSome_iff_exists.1 (List.find?_isSome.2 hbelow)
        rw [hn]
        rfl

/-- Among trees whose flags tell of their faults, the search finds the first fault of all nodes,
although it looks only into flagged children. -/
lemma faultAmong_eq_find? : ∀ ts : List Node, (∀ n ∈ ts.flatMap nodes, Disk.FlagsFaults n) →
    faultAmong ts = (ts.flatMap nodes).find? isFault
  | [], _ => by simp [faultAmong]
  | t :: ts, hflags => by
      rw [List.flatMap_cons] at hflags ⊢
      have hfirst : ∀ n ∈ t.nodes, Disk.FlagsFaults n := fun n hn =>
        hflags n (List.mem_append_left _ hn)
      have hlooked := looked_into_iff (hfirst t (mem_nodes_self t))
      rw [faultAmong, List.find?_append]
      by_cases hfault : ∃ n ∈ t.nodes, n.isFault = true
      · rw [if_pos (hlooked.2 hfault), find?_nodes t hfirst hfault]
        rfl
      · have hnone : t.nodes.find? isFault = none := by simpa using hfault
        rw [if_neg (mt hlooked.1 hfault), hnone,
          faultAmong_eq_find? ts fun n hn => hflags n (List.mem_append_right _ hn)]
        rfl

end

/-- The first fault of a tree is the first node that is one. -/
lemma firstFault?_eq_find? {t : Node} (h : t.FlagsThroughout) :
    t.firstFault? = t.nodes.find? isFault := by
  have hroot : t.info.hasError = true ↔ ∃ n ∈ t.nodes, n.isFault = true := h t (mem_nodes_self t)
  rw [firstFault?]
  split
  next herror => rw [find?_nodes t h (hroot.1 herror)]
  next herror =>
    have hnone : ¬ ∃ n ∈ t.nodes, n.isFault = true := mt hroot.2 herror
    symm
    simpa using hnone

lemma firstFault?_eq_none_iff {t : Node} (h : t.FlagsThroughout) :
    t.firstFault? = none ↔ ∀ n ∈ t.nodes, n.isFault = false := by
  simp [firstFault?_eq_find? h]

/-- A node is reported exactly if it is the first fault. -/
lemma firstFault?_eq_some_iff {t n : Node} (h : t.FlagsThroughout) :
    t.firstFault? = some n ↔ t.IsFirstFault n := by
  rw [firstFault?_eq_find? h, List.find?_eq_some_iff_append]
  constructor
  · rintro ⟨hfault, before, after, hnodes, hbefore⟩
    exact ⟨before, after, hnodes, hfault, by simpa using hbefore⟩
  · rintro ⟨before, after, hnodes, hfault, hbefore⟩
    exact ⟨hfault, before, after, hnodes, by simpa using hbefore⟩

end Syntax.Node

/-! ## What an error reports -/

/-- Where the text is not accepted. -/
def SyntaxFault.place : SyntaxFault → Position
  | .unexpected place => place
  | .missing _ place => place

/-- A place of a text does not come after another one. -/
def Position.NotAfter (p q : Position) : Prop :=
  p.line < q.line ∨ p.line = q.line ∧ p.column ≤ q.column

namespace Go.SourceFile

open GoReach.Syntax (Node)

/-- A missing node is reported with its kind, any other fault only with its position. -/
lemma syntaxFault?_eq_some_iff {t : Node} (h : t.FlagsThroughout) {fault : SyntaxFault} :
    syntaxFault? t = some fault ↔
      ∃ n, t.IsFirstFault n ∧
        fault =
          if n.info.isMissing then .missing n.kind n.info.start
          else .unexpected n.info.start := by
  rw [syntaxFault?, Option.map_eq_some_iff]
  simp only [Node.firstFault?_eq_some_iff h]
  exact exists_congr fun n => and_congr_right fun _ => eq_comm

/-- A file is refused for its syntax exactly if its tree has a fault. -/
lemma check_eq_syntactic_iff {path : Path} {t : Node} {fault : SyntaxFault} :
    check path t = .error (.syntactic path fault) ↔ syntaxFault? t = some fault := by
  simp [check_eq_error_iff]

/-- In a tree whose nodes start one after the other, a fault does not start before the first one. -/
lemma notAfter_of_isFirstFault {t n m : Node} (hn : t.IsFirstFault n)
    (hstarts : t.nodes.Pairwise fun a b => a.info.start.NotAfter b.info.start) (hm : m ∈ t.nodes)
    (hfault : m.isFault = true) : n.info.start.NotAfter m.info.start := by
  obtain ⟨before, after, hnodes, -, hbefore⟩ := hn
  rw [hnodes] at hstarts hm
  rcases List.mem_append.1 hm with hm | hm
  · rw [hbefore m hm] at hfault
    cases hfault
  · rcases List.mem_cons.1 hm with rfl | hm
    · exact Or.inr ⟨rfl, Nat.le_refl _⟩
    · exact (List.pairwise_cons.1 (List.pairwise_append.1 hstarts).2.1).1 m hm

/-- **The first fault is reported.**  If all nodes of a tree are right about what is below them,
nothing is found exactly if there is no fault, and otherwise the first one in the order of the text.
An error of syntax then reports where that node starts; no fault starts before, if the nodes start
one after the other. -/
theorem check_first_fault (path : Path) {t : Node} (hflags : t.FlagsThroughout) :
    (t.firstFault? = none ↔ ∀ n ∈ t.nodes, n.isFault = false) ∧
    (∀ n, t.firstFault? = some n ↔ t.IsFirstFault n) ∧
    (∀ fault, check path t = .error (.syntactic path fault) ↔
      ∃ n, t.IsFirstFault n ∧
        fault = if n.info.isMissing then .missing n.kind n.info.start
          else .unexpected n.info.start) ∧
    ((t.nodes.Pairwise fun a b => a.info.start.NotAfter b.info.start) →
      ∀ fault, check path t = .error (.syntactic path fault) →
        ∀ m ∈ t.nodes, m.isFault = true → fault.place.NotAfter m.info.start) := by
  have hchecked : ∀ fault, check path t = .error (.syntactic path fault) ↔
      ∃ n, t.IsFirstFault n ∧
        fault = if n.info.isMissing then .missing n.kind n.info.start
          else .unexpected n.info.start := by
    intro fault
    rw [check_eq_syntactic_iff, syntaxFault?_eq_some_iff hflags]
  refine ⟨Node.firstFault?_eq_none_iff hflags, fun n => Node.firstFault?_eq_some_iff hflags,
    hchecked, ?_⟩
  intro hstarts fault hfault m hm hmfault
  obtain ⟨n, hn, rfl⟩ := (hchecked fault).1 hfault
  have hplace : SyntaxFault.place
      (if n.info.isMissing then .missing n.kind n.info.start else .unexpected n.info.start)
        = n.info.start := by
    split <;> rfl
  rw [hplace]
  exact notAfter_of_isFirstFault hn hstarts hm hmfault

namespace Sample

/-- A call in which a bracket is missing, after one in which nothing is wrong and before something
that does not fit. -/
def faulty : Node :=
  .node { kind := "source_file", hasError := true } [
    .node { kind := "call_expression" } [.node { kind := ")", named := false } []],
    .node { kind := "call_expression", start := ⟨2, 1⟩, hasError := true } [
      .node { kind := "identifier", start := ⟨2, 1⟩ } [],
      .node
        { kind := ")", named := false, start := ⟨2, 3⟩, isMissing := true, hasError := true } []],
    .node { kind := "ERROR", start := ⟨3, 1⟩, isError := true, hasError := true } []]

end Sample

/-- The missing bracket comes before the unexpected text. -/
theorem check_first_fault_sample :
    Sample.faulty.FlagsThroughout ∧
    check ⟨"/p/a.go"⟩ Sample.faulty = .error (.syntactic ⟨"/p/a.go"⟩ (.missing ")" ⟨2, 3⟩)) ∧
    ∀ m ∈ Sample.faulty.nodes, m.isFault = true → Position.NotAfter ⟨2, 3⟩ m.info.start := by
  have hflags : Sample.faulty.FlagsThroughout := by
    simp [Node.FlagsThroughout, Disk.FlagsFaults, Sample.faulty, Node.info, Node.isFault]
  have hstarts : Sample.faulty.nodes.Pairwise fun a b => a.info.start.NotAfter b.info.start := by
    simp [Sample.faulty, Node.info, Position.NotAfter]
  obtain ⟨-, -, hchecked, hplace⟩ := check_first_fault ⟨"/p/a.go"⟩ hflags
  have hfault : check ⟨"/p/a.go"⟩ Sample.faulty
      = .error (.syntactic ⟨"/p/a.go"⟩ (.missing ")" ⟨2, 3⟩)) := by
    exact (hchecked _).2 ⟨_, (Node.firstFault?_eq_some_iff hflags).1 rfl, rfl⟩
  exact ⟨hflags, hfault, hplace hstarts _ hfault⟩

end Go.SourceFile

end GoReach
