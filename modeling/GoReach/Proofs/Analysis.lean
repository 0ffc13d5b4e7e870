import GoReach.Proofs.Disk.Project
import GoReach.Proofs.Graph.Reachability
import GoReach.Proofs.Resolution

/-!
# What an analysis says

`Analysis.Describes` relates an analysis to the files that were analyzed: the graph holds their
declarations and references, the entrypoints are the declarations that count as such, along with the
file roots that refer to something, and what is reported as unreachable is what no entrypoint
reaches.

**Drafting.**  A draft keeps in step with a list of calls on its graph and a list of declarations
that were marked as entrypoints (`Draft.Records`).  Each addition appends to the two lists, and so
does a whole fold of additions (`Draft.Records.foldl`).

**Describing.**  After all files and references have been added, the two lists are known
(`records_draftOf`), and with them the nodes, the edges and the entrypoints.  What is unreachable
follows from the search.  `Assembled` holds what is known of an analysis by then, and each of its
lemmas gives one part of the description.

**Disks.**  An analysis of a disk is one of the files that were read from it, with the root and the
module that were found there, so the description holds of it too (`describes_files`).
-/

namespace GoReach

open GoReach.Go (SourceFile)
open GoReach.Go.SourceFile (MethodsAtTop)
open ReferenceGraph (Call ofCalls)

namespace Analysis

/-! ## Drafting -/

namespace Draft

/-- A draft after calls on its graph, in which the given declarations were marked. -/
structure Records (b : Draft) (calls : List Call) (marked : List Declaration) : Prop where
  graph_eq : b.graph = ofCalls calls
  mem_marked : ∀ e ∈ b.entrypoints, e ∈ marked
  exists_entrypoint : ∀ d ∈ marked, ∃ e ∈ b.entrypoints, e.key = d.key
  strict : Sorted.Strict Declaration.compare b.entrypoints

namespace Records

lemma empty : Records {} [] [] where
  graph_eq := rfl
  mem_marked _ he := he
  exists_entrypoint _ hd := absurd hd List.not_mem_nil
  strict := List.Pairwise.nil

variable {b : Draft} {calls : List Call} {marked : List Declaration}

/-- An entrypoint is marked. -/
lemma addEntrypoint (h : Records b calls marked) (d : Declaration) :
    Records (b.addEntrypoint d) calls (marked ++ [d]) where
  graph_eq := h.graph_eq
  mem_marked e he := by
    rcases Sorted.mem_of_mem_insert he with rfl | he
    · exact List.mem_append_right marked (List.mem_singleton_self e)
    · exact List.mem_append_left [d] (h.mem_marked e he)
  exists_entrypoint x hx := by
    rcases List.mem_append.1 hx with hx | hx
    · obtain ⟨e, he, hkey⟩ := h.exists_entrypoint x hx
      exact ⟨e, Sorted.mem_insert_of_mem he, hkey⟩
    · obtain ⟨e, he, hcompare⟩ : ∃ e ∈ Sorted.insert Declaration.compare d b.entrypoints,
          d.compare e = .eq := Sorted.exists_mem_insert_eq d b.entrypoints
      rw [List.mem_singleton.1 hx]
      exact ⟨e, he, (Declaration.compare_eq_iff.1 hcompare).symm⟩
  strict := Sorted.strict_insert h.strict

/-- A call changes the graph only. -/
lemma call (h : Records b calls marked) (c : Call) :
    Records { b with graph := (c.run b.graph).2 } (calls ++ [c]) marked where
  graph_eq := by
    rw [ReferenceGraph.ofCalls_concat, ← h.graph_eq]
  mem_marked := h.mem_marked
  exists_entrypoint := h.exists_entrypoint
  strict := h.strict

/-- A declaration becomes a node, and may be an entrypoint. -/
lemma addDeclaration (h : Records b calls marked) (package : String) (d : Declaration) :
    Records (b.addDeclaration package d) (calls ++ [.node d])
      (marked ++ if d.isEntrypoint package then [d] else []) := by
  have hnode := h.call (.node d)
  rw [Draft.addDeclaration]
  split
  · exact hnode.addEntrypoint d
  · rw [List.append_nil]
    exact hnode

/-- A reference becomes an edge, and makes a file root that it comes from an entrypoint. -/
lemma addReference (h : Records b calls marked) (r : Reference) :
    Records (b.addReference r) (calls ++ [.edge r.source r.target])
      (marked ++ if r.source.isFileRoot then [r.source] else []) := by
  rw [Draft.addReference]
  split
  · exact (h.addEntrypoint r.source).call (.edge r.source r.target)
  · rw [List.append_nil]
    exact h.call (.edge r.source r.target)

/-- What each addition appends, a fold of additions appends in order. -/
lemma foldl {α : Type} {step : Draft → α → Draft} {made : α → List Call}
    {marks : α → List Declaration}
    (hstep : ∀ {b calls marked}, Records b calls marked → ∀ a,
      Records (step b a) (calls ++ made a) (marked ++ marks a))
    (h : Records b calls marked) (as : List α) :
    Records (as.foldl step b) (calls ++ as.flatMap made) (marked ++ as.flatMap marks) := by
  induction as generalizing b calls marked with
  | nil =>
      rw [List.flatMap_nil, List.flatMap_nil, List.append_nil, List.append_nil]
      exact h
  | cons a as ih =>
      rw [List.foldl_cons, List.flatMap_cons, List.flatMap_cons, ← List.append_assoc,
        ← List.append_assoc]
      exact ih (hstep h a)

lemma addFile (h : Records b calls marked) (f : SourceFile) :
    Records (b.addFile f) (calls ++ f.declarations.flatMap fun d => [.node d])
      (marked ++ f.declarations.flatMap fun d => if d.isEntrypoint f.package then [d] else []) :=
  h.foldl (fun h d => h.addDeclaration f.package d) f.declarations

end Records

end Draft

/-! ## Describing -/

/-- The project in which the analysis resolved references. -/
def scope (a : Analysis) : Scope := ⟨a.root, a.rootModule, a.table⟩

/-- The reference is among those that are resolved for the file. -/
def Resolves (a : Analysis) (f : SourceFile) (r : Reference) : Prop :=
  ∃ refs, a.scope.resolve f = .ok refs ∧ r ∈ refs

/-- The declaration was extracted from one of the files. -/
def Extracted (files : List SourceFile) (d : Declaration) : Prop :=
  ∃ f ∈ files, d ∈ f.declarations

/-- The declaration is the root of a file that refers to something outside of its declarations. -/
def ActiveRoot (a : Analysis) (files : List SourceFile) (d : Declaration) : Prop :=
  ∃ f ∈ files, d = .fileRoot f.path ∧ ∃ r, a.Resolves f r ∧ r.source = d

/-- The declaration was extracted from one of the files and is an entrypoint in its package. -/
def ExtractedEntrypoint (files : List SourceFile) (d : Declaration) : Prop :=
  ∃ f ∈ files, d ∈ f.declarations ∧ d.isEntrypoint f.package = true

/-- What an analysis says about the files that were analyzed. -/
structure Describes (a : Analysis) (files : List SourceFile) : Prop where
  table_eq : NameTable.ofFiles a.root a.rootModule files = .ok a.table
  resolved : ∀ f ∈ files, ∃ refs, a.scope.resolve f = .ok refs
  /-- The nodes are the extracted declarations and the active file roots. -/
  mem_nodes : ∀ n ∈ a.graph.nodes.toList, Extracted files n ∨ a.ActiveRoot files n
  containsNode_iff : ∀ d, a.graph.containsNode d = true ↔
    ∃ e, (Extracted files e ∨ a.ActiveRoot files e) ∧ e.same d
  /-- The edges are the resolved references. -/
  containsEdge_iff : ∀ x y, a.graph.containsEdge x y = true ↔
    ∃ f ∈ files, ∃ r, a.Resolves f r ∧ r.source.same x ∧ r.target.same y
  /-- The entrypoints are the extracted ones and the active file roots. -/
  mem_entrypoints : ∀ e ∈ a.entrypoints, ExtractedEntrypoint files e ∨ a.ActiveRoot files e
  exists_entrypoint_iff : ∀ d, (∃ e ∈ a.entrypoints, e.same d) ↔
    ∃ e, (ExtractedEntrypoint files e ∨ a.ActiveRoot files e) ∧ e.same d
  entrypoints_strict : a.entrypoints.Pairwise fun x y => x.compare y = .lt
  containsNode_of_entrypoint : ∀ e ∈ a.entrypoints, a.graph.containsNode e = true
  /-- What is unreachable are the nodes that no entrypoint reaches. -/
  mem_unreachable_iff : ∀ d, d ∈ a.unreachable ↔
    d ∈ a.graph.nodes.toList ∧
      ¬ ∃ e ∈ a.entrypoints, ∃ n ∈ a.graph.nodes.toList, n.same e ∧ a.graph.Reaches n d
  unreachable_strict : a.unreachable.Pairwise fun x y => x.compare y = .lt
  not_same_of_unreachable : ∀ d ∈ a.unreachable, ∀ e ∈ a.entrypoints, ¬ e.same d
  not_fileRoot_of_unreachable : ∀ d ∈ a.unreachable, d.isFileRoot = false

/-- The draft of files with their references. -/
def draftOf (files : List SourceFile) (references : List Reference) : Draft :=
  references.foldl Draft.addReference (files.foldl Draft.addFile {})

/-- The calls by which the graph of files with references is built. -/
def callsOf (files : List SourceFile) (references : List Reference) : List Call :=
  (files.flatMap fun f => f.declarations.flatMap fun d => [.node d]) ++
    references.flatMap fun r => [.edge r.source r.target]

/-- The declarations that are marked as entrypoints. -/
def markedOf (files : List SourceFile) (references : List Reference) : List Declaration :=
  (files.flatMap fun f =>
      f.declarations.flatMap fun d => if d.isEntrypoint f.package then [d] else []) ++
    references.flatMap fun r => if r.source.isFileRoot then [r.source] else []

/-- The draft of an analysis records all calls and all that was marked. -/
lemma records_draftOf (files : List SourceFile) (references : List Reference) :
    (draftOf files references).Records (callsOf files references) (markedOf files references) :=
  (Draft.Records.empty.foldl (fun h f => h.addFile f) files).foldl (fun h r => h.addReference r)
    references

section

variable {files : List SourceFile} {references : List Reference}

lemma node_mem_callsOf {d : Declaration} :
    Call.node d ∈ callsOf files references ↔ Extracted files d := by
  simp [callsOf, Extracted]

lemma edge_mem_callsOf {x y : Declaration} :
    Call.edge x y ∈ callsOf files references ↔ ⟨x, y⟩ ∈ references := by
  simp only [callsOf, List.mem_append, List.mem_flatMap, List.mem_singleton, reduceCtorEq,
    and_false, exists_false, false_or, Call.edge.injEq]
  constructor
  · rintro ⟨r, hr, rfl, rfl⟩
    exact hr
  · intro h
    exact ⟨_, h, rfl, rfl⟩

/-- Marked are the entrypoints among the declarations, and the file roots that refer to something.
-/
lemma mem_markedOf {d : Declaration} :
    d ∈ markedOf files references ↔
      ExtractedEntrypoint files d ∨
        ∃ r ∈ references, r.source.isFileRoot = true ∧ d = r.source := by
  simp only [markedOf, ExtractedEntrypoint, List.mem_append, List.mem_flatMap,
    List.mem_ite_nil_right, List.mem_singleton]
  refine or_congr_left (exists_congr fun f => and_congr_right fun _ => ?_)
  constructor
  · rintro ⟨e, he, hentry, rfl⟩
    exact ⟨he, hentry⟩
  · rintro ⟨hd, hentry⟩
    exact ⟨d, hd, hentry, rfl⟩

end

/-! ## Putting it together -/

/-- An analysis that was put together from the references of files. -/
structure Assembled (a : Analysis) (files : List SourceFile) (references : List Reference) :
    Prop where
  parsed : ∀ f ∈ files, f.Parsed
  table_eq : NameTable.ofFiles a.root a.rootModule files = .ok a.table
  resolved : ∀ f ∈ files, ∃ refs, a.scope.resolve f = .ok refs
  mem_iff : ∀ r, r ∈ references ↔ ∃ f ∈ files, a.Resolves f r
  records : Draft.Records ⟨a.graph, a.entrypoints⟩ (callsOf files references)
    (markedOf files references)
  unreachable_eq : a.unreachable = a.graph.unreachable a.entrypoints

namespace Assembled

variable {a : Analysis} {files : List SourceFile} {references : List Reference}
  (h : a.Assembled files references)

include h

lemma graph_eq : a.graph = ofCalls (callsOf files references) := h.records.graph_eq

lemma consistent : a.graph.Consistent := by
  rw [h.graph_eq]
  exact (ReferenceGraph.reflects_ofCalls _).consistent

/-- A reference goes from the file to something that was extracted, and not to itself. -/
lemma spec_of_resolves {f : SourceFile} (hf : f ∈ files) {r : Reference} (hr : a.Resolves f r) :
    (r.source = .fileRoot f.path ∨ r.source ∈ f.declarations) ∧ Extracted files r.target ∧
      r.source.key ≠ r.target.key := by
  obtain ⟨refs, hrefs, hmem⟩ := hr
  obtain ⟨hsource, -, htarget, hne⟩ := Scope.mem_of_resolve h.parsed hf h.table_eq hrefs hmem
  exact ⟨hsource, htarget, hne⟩

/-- What is resolved in a file are its references among all files. -/
lemma resolves_iff {f : SourceFile} (hf : f ∈ files) {module : String}
    (hmodule : Module.ofFile a.root a.rootModule f.path = .ok module) {r : Reference} :
    a.Resolves f r ↔ r ∈ Scope.referencesOf a.root a.rootModule files module f := by
  obtain ⟨refs, hrefs⟩ := h.resolved f hf
  rw [← Scope.eq_referencesOf h.parsed hf h.table_eq hmodule hrefs]
  constructor
  · rintro ⟨refs', hrefs', hr⟩
    rw [hrefs] at hrefs'
    exact Except.ok.inj hrefs' ▸ hr
  · intro hr
    exact ⟨refs, hrefs, hr⟩

/-- The calls offer the extracted declarations and the active file roots. -/
lemma mem_offered_iff {e : Declaration} :
    e ∈ (callsOf files references).flatMap Call.offered ↔
      Extracted files e ∨ a.ActiveRoot files e := by
  rw [ReferenceGraph.mem_offered_iff, node_mem_callsOf]
  constructor
  · rintro (he | ⟨x, y, hedge, -, he⟩)
    · exact Or.inl he
    · obtain ⟨f, hf, hr⟩ := (h.mem_iff _).1 (edge_mem_callsOf.1 hedge)
      obtain ⟨hsource, htarget, -⟩ := h.spec_of_resolves hf hr
      rcases he with rfl | rfl
      · rcases hsource with hroot | hdeclared
        · exact Or.inr ⟨f, hf, hroot, _, hr, rfl⟩
        · exact Or.inl ⟨f, hf, hdeclared⟩
      · exact Or.inl htarget
  · rintro (he | ⟨f, hf, -, r, hr, rfl⟩)
    · exact Or.inl he
    · -- the root is the source of an edge, and its target is something else
      obtain ⟨-, -, hne⟩ := h.spec_of_resolves hf hr
      have hedge : Call.edge r.source r.target ∈ callsOf files references :=
        edge_mem_callsOf.2 ((h.mem_iff r).2 ⟨f, hf, hr⟩)
      exact Or.inr ⟨r.source, r.target, hedge, hne, Or.inl rfl⟩

/-- Nodes are extracted declarations and active file roots. -/
lemma mem_nodes {n : Declaration} (hn : n ∈ a.graph.nodes.toList) :
    Extracted files n ∨ a.ActiveRoot files n := by
  rw [h.graph_eq] at hn
  exact h.mem_offered_iff.1 (ReferenceGraph.mem_offered_of_mem_nodes hn)

/-- The nodes are the extracted declarations and the active file roots. -/
lemma containsNode_iff (d : Declaration) :
    a.graph.containsNode d = true ↔
      ∃ e, (Extracted files e ∨ a.ActiveRoot files e) ∧ e.same d := by
  rw [h.graph_eq, ReferenceGraph.containsNode_ofCalls_iff]
  simp only [h.mem_offered_iff, Declaration.same_iff]

/-- The edges are the references of the files. -/
lemma containsEdge_iff (x y : Declaration) :
    a.graph.containsEdge x y = true ↔
      ∃ f ∈ files, ∃ r, a.Resolves f r ∧ r.source.same x ∧ r.target.same y := by
  rw [h.graph_eq, ReferenceGraph.containsEdge_ofCalls_iff, ReferenceGraph.mem_links_iff]
  simp only [edge_mem_callsOf, h.mem_iff, Declaration.same_iff]
  constructor
  · rintro ⟨-, s, t, ⟨f, hf, hr⟩, hs, ht⟩
    exact ⟨f, hf, ⟨s, t⟩, hr, hs, ht⟩
  · rintro ⟨f, hf, r, hr, hs, ht⟩
    obtain ⟨-, -, hne⟩ := h.spec_of_resolves hf hr
    rw [← hs, ← ht]
    exact ⟨hne, r.source, r.target, ⟨f, hf, hr⟩, rfl, rfl⟩

/-- Unreachable are the nodes to which no way leads from an entrypoint. -/
lemma mem_unreachable_iff (d : Declaration) :
    d ∈ a.unreachable ↔
      d ∈ a.graph.nodes.toList ∧
        ¬ ∃ e ∈ a.entrypoints, ∃ n ∈ a.graph.nodes.toList, n.same e ∧ a.graph.Reaches n d := by
  rw [h.unreachable_eq]
  exact h.consistent.mem_unreachable_iff

/-- What nothing refers to is unreachable, unless it is an entrypoint. -/
lemma mem_unreachable_of_no_edge {d : Declaration} (hd : d ∈ a.graph.nodes.toList)
    (hedge : ∀ e ∈ a.graph.edgeList, e.2 ≠ d) (hentry : ∀ x ∈ a.entrypoints, ¬ x.same d) :
    d ∈ a.unreachable := by
  refine (h.mem_unreachable_iff d).2 ⟨hd, ?_⟩
  rintro ⟨x, hx, n, hn, hsame, hreach⟩
  -- A way to the declaration ends with an edge to it, or is no way at all.
  rcases Relation.ReflTransGen.cases_tail hreach with rfl | ⟨y, -, hyd⟩
  · exact hentry x hx (Declaration.same_symm hsame)
  · exact hedge (y, d) hyd rfl

/-- An entrypoint that is a node reaches itself. -/
lemma not_same_of_unreachable {d : Declaration} (hd : d ∈ a.unreachable) {e : Declaration}
    (he : e ∈ a.entrypoints) : ¬ e.same d := by
  intro hsame
  obtain ⟨hnode, hunreached⟩ := (h.mem_unreachable_iff d).1 hd
  exact hunreached ⟨e, he, d, hnode,
    Declaration.same_iff.2 (Declaration.same_iff.1 hsame).symm, .refl⟩

variable (hnames : ∀ f ∈ files, ∀ d ∈ f.declarations, d.name ≠ "")

include hnames

/-- The entrypoints among the extracted declarations are marked, and the active file roots.  What
has a name is not taken for a file root. -/
lemma mem_markedOf_iff {d : Declaration} :
    d ∈ markedOf files references ↔ ExtractedEntrypoint files d ∨ a.ActiveRoot files d := by
  rw [mem_markedOf]
  refine or_congr_right ?_
  constructor
  · rintro ⟨r, hr, hempty, rfl⟩
    obtain ⟨f, hf, hr⟩ := (h.mem_iff r).1 hr
    obtain ⟨hroot | hdeclared, -, -⟩ := h.spec_of_resolves hf hr
    · exact ⟨f, hf, hroot, r, hr, rfl⟩
    · exact absurd (String.isEmpty_iff.1 hempty) (hnames f hf _ hdeclared)
  · rintro ⟨f, hf, hroot, r, hr, rfl⟩
    refine ⟨r, (h.mem_iff r).2 ⟨f, hf, hr⟩, ?_, rfl⟩
    rw [hroot]
    rfl

lemma mem_entrypoints {e : Declaration} (he : e ∈ a.entrypoints) :
    ExtractedEntrypoint files e ∨ a.ActiveRoot files e :=
  (h.mem_markedOf_iff hnames).1 (h.records.mem_marked e he)

/-- The entrypoints are those among the declarations, and the active file roots. -/
lemma exists_entrypoint_iff (d : Declaration) :
    (∃ e ∈ a.entrypoints, e.same d) ↔
      ∃ e, (ExtractedEntrypoint files e ∨ a.ActiveRoot files e) ∧ e.same d := by
  constructor
  · rintro ⟨e, he, hsame⟩
    exact ⟨e, h.mem_entrypoints hnames he, hsame⟩
  · rintro ⟨e, he, hsame⟩
    obtain ⟨x, hx, hkey⟩ := h.records.exists_entrypoint e ((h.mem_markedOf_iff hnames).2 he)
    exact ⟨x, hx, Declaration.same_iff.2 (hkey.trans (Declaration.same_iff.1 hsame))⟩

/-- Every entrypoint is a node, because a file root becomes one with its first edge. -/
lemma containsNode_of_entrypoint {e : Declaration} (he : e ∈ a.entrypoints) :
    a.graph.containsNode e = true := by
  refine (h.containsNode_iff e).2 ⟨e, ?_, Declaration.same_iff.2 rfl⟩
  rcases h.mem_entrypoints hnames he with ⟨f, hf, hd, -⟩ | hroot
  · exact Or.inl ⟨f, hf, hd⟩
  · exact Or.inr hroot

/-- A file root that is a node is an entrypoint. -/
lemma not_fileRoot_of_unreachable {d : Declaration} (hd : d ∈ a.unreachable) :
    d.isFileRoot = false := by
  rcases h.mem_nodes ((h.mem_unreachable_iff d).1 hd).1 with ⟨f, hf, hdeclared⟩ | hroot
  · rw [Declaration.isFileRoot, Bool.eq_false_iff]
    exact fun hempty => hnames f hf d hdeclared (String.isEmpty_iff.1 hempty)
  · obtain ⟨e, he, hsame⟩ :=
      (h.exists_entrypoint_iff hnames d).2 ⟨d, Or.inr hroot, Declaration.same_iff.2 rfl⟩
    exact absurd hsame (h.not_same_of_unreachable hd he)

/-- An assembled analysis describes its files. -/
lemma describes : a.Describes files where
  table_eq := h.table_eq
  resolved := h.resolved
  mem_nodes _ := h.mem_nodes
  containsNode_iff := h.containsNode_iff
  containsEdge_iff := h.containsEdge_iff
  mem_entrypoints _ := h.mem_entrypoints hnames
  exists_entrypoint_iff := h.exists_entrypoint_iff hnames
  entrypoints_strict := h.records.strict
  containsNode_of_entrypoint _ := h.containsNode_of_entrypoint hnames
  mem_unreachable_iff := h.mem_unreachable_iff
  unreachable_strict := by
    rw [h.unreachable_eq]
    exact h.consistent.strict_unreachable a.entrypoints
  not_same_of_unreachable _ hd _ := h.not_same_of_unreachable hd
  not_fileRoot_of_unreachable _ := h.not_fileRoot_of_unreachable hnames

end Assembled

section

variable {root : Path} {rootModule : String} {files : List SourceFile} {a : Analysis}
  {t : NameTable}

/-- An analysis is a table, the references that are resolved with it, and the draft that is made of
both. -/
lemma ofFiles_eq_ok_iff :
    ofFiles root rootModule files = .ok a ↔
      ∃ table, NameTable.ofFiles root rootModule files = .ok table ∧
        ∃ references, files.mapM (Scope.resolve ⟨root, rootModule, table⟩) = .ok references ∧
          let draft := draftOf files references.flatten
          a = {
            root, rootModule, table
            graph := draft.graph
            entrypoints := draft.entrypoints
            unreachable := draft.graph.unreachable draft.entrypoints } := by
  rw [ofFiles, bind_eq_ok_iff]
  refine exists_congr fun table => and_congr_right fun _ => ?_
  rw [bind_eq_ok_iff]
  refine exists_congr fun references => and_congr_right fun _ => ?_
  exact ⟨fun h => (Except.ok.inj h).symm, fun h => congrArg Except.ok h.symm⟩

/-- An analysis of parsed files is assembled from them. -/
lemma assembled_of_ofFiles (hparsed : ∀ f ∈ files, f.Parsed)
    (h : ofFiles root rootModule files = .ok a) :
    ∃ references, a.Assembled files references := by
  obtain ⟨table, htable, references, hreferences, rfl⟩ := ofFiles_eq_ok_iff.1 h
  refine ⟨references.flatten, hparsed, htable, fun f hf => ?_, fun r => ?_,
    records_draftOf files references.flatten, rfl⟩
  · obtain ⟨refs, -, hrefs⟩ := exists_of_mem_of_mapM hreferences hf
    exact ⟨refs, hrefs⟩
  · rw [List.mem_flatten]
    constructor
    · rintro ⟨refs, hrefs, hr⟩
      obtain ⟨f, hf, hresolve⟩ := exists_of_mem_result hreferences hrefs
      exact ⟨f, hf, refs, hresolve, hr⟩
    · rintro ⟨f, hf, refs, hresolve, hr⟩
      obtain ⟨refs', hrefs', hresolve'⟩ := exists_of_mem_of_mapM hreferences hf
      obtain rfl : refs = refs' := Except.ok.inj (hresolve.symm.trans hresolve')
      exact ⟨refs, hrefs', hr⟩

/-- An analysis resolves references in the table of its files. -/
lemma scope_of_ofFiles (h : ofFiles root rootModule files = .ok a)
    (htable : NameTable.ofFiles root rootModule files = .ok t) :
    a.scope = ⟨root, rootModule, t⟩ := by
  obtain ⟨table, ht, references, -, rfl⟩ := ofFiles_eq_ok_iff.1 h
  obtain rfl : t = table := Except.ok.inj (htable.symm.trans ht)
  rfl

lemma exists_resolve_of_ofFiles (h : ofFiles root rootModule files = .ok a)
    (htable : NameTable.ofFiles root rootModule files = .ok t) :
    ∀ f ∈ files, ∃ refs, Scope.resolve ⟨root, rootModule, t⟩ f = .ok refs := by
  intro f hf
  obtain ⟨table, ht, references, hreferences, -⟩ := ofFiles_eq_ok_iff.1 h
  obtain rfl : t = table := Except.ok.inj (htable.symm.trans ht)
  obtain ⟨refs, -, hrefs⟩ := exists_of_mem_of_mapM hreferences hf
  exact ⟨refs, hrefs⟩

/-- If every file can be resolved, there is an analysis. -/
lemma exists_ofFiles_of_resolve (htable : NameTable.ofFiles root rootModule files = .ok t)
    (h : ∀ f ∈ files, ∃ refs, Scope.resolve ⟨root, rootModule, t⟩ f = .ok refs) :
    ∃ a, ofFiles root rootModule files = .ok a := by
  obtain ⟨references, hreferences⟩ := mapM_succeeds h
  exact ⟨_, ofFiles_eq_ok_iff.2 ⟨t, htable, references, hreferences, rfl⟩⟩

/-- Parsed files below the root can be analyzed, if they declare their methods at the top level. -/
lemma exists_ofFiles (rootModule : String) (hparsed : ∀ f ∈ files, f.Parsed)
    (hbelow : ∀ f ∈ files, root.components <+: f.path.components)
    (hmethods : ∀ f ∈ files, MethodsAtTop f.tree) :
    ∃ a, ofFiles root rootModule files = .ok a := by
  obtain ⟨table, htable⟩ := NameTable.exists_ofFiles rootModule hbelow
  have hresolve : ∀ f ∈ files, ∃ refs, Scope.resolve ⟨root, rootModule, table⟩ f = .ok refs := by
    intro f hf
    obtain ⟨module, hmodule⟩ := Module.exists_ofFile_iff.2 (hbelow f hf)
    exact Scope.exists_resolve (s := ⟨root, rootModule, table⟩) (hparsed f hf) (hmethods f hf)
      hmodule
  exact exists_ofFiles_of_resolve htable hresolve

end

end Analysis

/-! ## Analyses of disks -/

namespace Disk

variable {parser : Go.Parser} {d : Disk} {o : SearchOptions} {path : Path} {a : Analysis}

/-- The root of an analysis is where the path leads, and its module is that of the root. -/
lemma root_of_analyze (h : d.analyze parser o path = .ok a) :
    d.canonical path = .ok a.root ∧ d.rootModule a.root = .ok a.rootModule := by
  obtain ⟨root, hroot, h⟩ := bind_eq_ok_iff.1 h
  obtain ⟨rootModule, hmodule, h⟩ := bind_eq_ok_iff.1 h
  obtain ⟨paths, -, h⟩ := bind_eq_ok_iff.1 h
  obtain ⟨files, -, h⟩ := bind_eq_ok_iff.1 h
  obtain ⟨table, -, references, -, rfl⟩ := Analysis.ofFiles_eq_ok_iff.1 h
  exact ⟨mapError_eq_ok_iff.1 hroot, hmodule⟩

/-- Whatever an analysis of a project has found and read are the files of the project. -/
lemma Stores.files_eq {root : Path} {rootModule : String} {files files' : List SourceFile}
    (h : d.Stores parser o root rootModule files) (ha : d.analyze parser o root = .ok a)
    {paths : List Path} (hsearch : d.search o a.root = .ok paths)
    (hread : paths.mapM (d.readSource parser) = .ok files') : files' = files := by
  obtain rfl : root = a.root := Except.ok.inj (h.canonical.symm.trans (root_of_analyze ha).1)
  rw [h.search] at hsearch
  rw [← Except.ok.inj hsearch, h.mapM_readSource] at hread
  exact (Except.ok.inj hread).symm

/-- An analysis of a directory is that of the files that were found below it and read. -/
lemma exists_files_of_analyze (h : d.analyze parser o path = .ok a) :
    ∃ paths files,
      d.search o a.root = .ok paths ∧ paths.mapM (d.readSource parser) = .ok files ∧
        files.map SourceFile.path = paths ∧ (∀ f ∈ files, f.Parsed) ∧
        Analysis.ofFiles a.root a.rootModule files = .ok a := by
  obtain ⟨root, hroot, h⟩ := bind_eq_ok_iff.1 h
  obtain ⟨rootModule, hmodule, h⟩ := bind_eq_ok_iff.1 h
  obtain ⟨paths, hpaths, h⟩ := bind_eq_ok_iff.1 h
  obtain ⟨files, hfiles, h⟩ := bind_eq_ok_iff.1 h
  obtain ⟨table, -, references, -, ha⟩ := Analysis.ofFiles_eq_ok_iff.1 h
  obtain rfl : a.root = root := by rw [ha]
  obtain rfl : a.rootModule = rootModule := by rw [ha]
  refine ⟨paths, files, hpaths, hfiles, ?_, fun f hf => ?_, h⟩
  · have heach : List.Forall₂ (fun p f => p = SourceFile.path f) paths files :=
      (mapM_eq_ok_iff.1 hfiles).imp fun _ _ hread => (path_eq_of_readSource hread).1.symm
    exact (List.forall₂_eq_eq_eq ▸ List.forall₂_map_right_iff.2 heach).symm
  · obtain ⟨p, -, hread⟩ := exists_of_mem_result hfiles hf
    exact (path_eq_of_readSource hread).2

end Disk

namespace Analysis

namespace Sample

open Scope.Sample (caller callee)

/-- A function of the small project. -/
def declared (file name : String) : Declaration :=
  { file := ⟨file⟩, name, span := some ⟨1, 1, 1, 1⟩ }

/-- The two files, each with its own path for a text. -/
def tree : List (String × Disk.Entry) :=
  [("a.go", .file "/p/a.go".toUTF8), ("u", .directory [("b.go", .file "/p/u/b.go".toUTF8)])]

lemma stores_tree :
    (Disk.Sample.project tree).Stores (.knowing [caller, callee]) {} ⟨"/p"⟩ "m"
      [caller, callee] where
  toFinds := Disk.Sample.finds_project (by simp +decide [tree, Disk.filesBelow]) (by decide)
  read := Disk.readSource_knowing [["p", "a.go"], ["p", "u", "b.go"]] Scope.Sample.parsed rfl
    (by decide) (by decide) (by decide) rfl

/-- What the files refer to. -/
def references : List Reference :=
  [⟨declared "/p/a.go" "run", declared "/p/u/b.go" "Go"⟩,
    ⟨.fileRoot ⟨"/p/a.go"⟩, declared "/p/a.go" "run"⟩]

/-- What the files declare, and the code outside of it. -/
def nodes : List Declaration :=
  [declared "/p/a.go" "idle", declared "/p/a.go" "run", declared "/p/u/b.go" "Go",
    .fileRoot ⟨"/p/a.go"⟩]

section

variable {a : Analysis} (ha : ofFiles Scope.Sample.root "m" [caller, callee] = .ok a)

include ha

/-- In the small project only the caller refers to something. -/
lemma resolves_iff {r : Reference} :
    (a.Resolves caller r ↔ r ∈ references) ∧ ¬ a.Resolves callee r := by
  obtain ⟨_, hassembled⟩ := assembled_of_ofFiles Scope.Sample.parsed ha
  obtain ⟨_, -, _, -, rfl⟩ := ofFiles_eq_ok_iff.1 ha
  have hcaller : Module.ofFile Scope.Sample.root "m" caller.path = .ok "m" := rfl
  have hcallee : Module.ofFile Scope.Sample.root "m" callee.path = .ok "m/u" := rfl
  have hreferences :
      Scope.referencesOf Scope.Sample.root "m" [caller, callee] "m" caller = references ∧
        Scope.referencesOf Scope.Sample.root "m" [caller, callee] "m/u" callee = [] := by decide
  rw [hassembled.resolves_iff (by simp) hcaller, hassembled.resolves_iff (by simp) hcallee,
    hreferences.1, hreferences.2]
  exact ⟨Iff.rfl, List.not_mem_nil⟩

/-- Only its file root is active. -/
lemma activeRoot_iff {d : Declaration} :
    a.ActiveRoot [caller, callee] d ↔ d = .fileRoot ⟨"/p/a.go"⟩ := by
  simp only [ActiveRoot, List.mem_cons, List.not_mem_nil, or_false, exists_eq_or_imp,
    exists_eq_left, resolves_iff ha, false_and, exists_false, and_false]
  exact ⟨fun h => h.1, fun h => ⟨h, _, List.mem_cons_of_mem _ List.mem_cons_self, h.symm⟩⟩

lemma extracted_or_activeRoot_iff {d : Declaration} :
    Extracted [caller, callee] d ∨ a.ActiveRoot [caller, callee] d ↔ d ∈ nodes := by
  rw [activeRoot_iff ha]
  simp [Extracted, caller, callee, nodes, declared, or_assoc]

lemma extractedEntrypoint_or_activeRoot_iff {d : Declaration} :
    ExtractedEntrypoint [caller, callee] d ∨ a.ActiveRoot [caller, callee] d ↔
      d = .fileRoot ⟨"/p/a.go"⟩ := by
  have hnone : ∀ f ∈ [caller, callee], ∀ d ∈ f.declarations, d.isEntrypoint f.package = false := by
    decide
  rw [activeRoot_iff ha, or_iff_right]
  rintro ⟨f, hf, hd, hentry⟩
  rw [hnone f hf d hd] at hentry
  cases hentry

variable (h : a.Describes [caller, callee])

include h

lemma containsNode_iff (d : Declaration) :
    a.graph.containsNode d = true ↔ ∃ n ∈ nodes, n.same d := by
  simp only [h.containsNode_iff, extracted_or_activeRoot_iff ha]

lemma containsEdge_iff (x y : Declaration) :
    a.graph.containsEdge x y = true ↔
      ∃ r ∈ references, r.source.same x ∧ r.target.same y := by
  simp only [h.containsEdge_iff, List.mem_cons, List.not_mem_nil, or_false, exists_eq_or_imp,
    exists_eq_left, resolves_iff ha, false_and, exists_false]

lemma exists_entrypoint_iff (d : Declaration) :
    (∃ e ∈ a.entrypoints, e.same d) ↔ (Declaration.fileRoot ⟨"/p/a.go"⟩).same d := by
  simp only [h.exists_entrypoint_iff, extractedEntrypoint_or_activeRoot_iff ha, exists_eq_left]

/-- Nothing refers to `idle`, and it is not the entrypoint. -/
lemma exists_unreachable_idle :
    ∃ d ∈ a.unreachable, d.same (declared "/p/a.go" "idle") := by
  obtain ⟨_, hassembled⟩ := assembled_of_ofFiles Scope.Sample.parsed ha
  have hnode : a.graph.containsNode (declared "/p/a.go" "idle") = true :=
    (containsNode_iff ha h _).2 ⟨_, List.mem_cons_self, by decide⟩
  obtain ⟨d, hd, hkey⟩ := hassembled.consistent.containsNode_iff.1 hnode
  have hsame : d.same (declared "/p/a.go" "idle") := Declaration.same_iff.2 hkey
  have hedge : ∀ e ∈ a.graph.edgeList, e.2 ≠ d := by
    intro e he heq
    have hnone : ∀ r ∈ references, ¬ r.target.same (declared "/p/a.go" "idle") := by decide
    obtain ⟨r, hr, -, htarget⟩ := (containsEdge_iff ha h e.1 (declared "/p/a.go" "idle")).1 <|
      hassembled.consistent.containsEdge_iff.2 ⟨e, he, rfl, heq ▸ hkey⟩
    exact hnone r hr htarget
  have hentry : ∀ x ∈ a.entrypoints, ¬ x.same d := by
    intro x hx hxd
    exact absurd ((exists_entrypoint_iff ha h _).1 ⟨x, hx, Declaration.same_trans hxd hsame⟩)
      (by decide)
  exact ⟨d, hassembled.mem_unreachable_of_no_edge hd hedge hentry, hsame⟩

end

end Sample

end Analysis

end GoReach
