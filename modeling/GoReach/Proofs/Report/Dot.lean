import Mathlib.Data.List.Perm.Basic
import Mathlib.Data.List.Nodup
import GoReach.Proofs.Completion
import GoReach.Proofs.Report.Clusters
import GoReach.Proofs.Report.Drawing

/-!
# What is written of a graph

`render` groups the nodes of a graph by their files, sorts every group, and numbers the nodes while
it writes them; edges are written by looking up the numbers of their ends.

`Page.Names` relates the table of names to the keys that have been written.  The run lemmas
`Page.lines_foldl_addNode`, `Page.lines_addClusters` and `Page.lines_foldl_addEdge` say which lines
come out.

Put together, `render_eq` says that what is written is the text of one drawing, and
`depicts_drawingOf` that this drawing shows the analysis.
-/

namespace GoReach

open Std (TransCmp OrientedCmp)
open Sorted (Strict)

namespace Report.Dot

/-! ## The drawing -/

def colourOf (style : Style) (a : Analysis) (d : Declaration) : Colour :=
  match style with
  | .plain => .white
  | .highlighted =>
    if Sorted.contains Declaration.compare d a.entrypoints then .green
    else if Sorted.contains Declaration.compare d a.unreachable then .red
    else .white

/-- A vertex is filled as its colour asks for. -/
lemma request_colourOf (style : Style) (a : Analysis) (d : Declaration) :
    (colourOf style a d).request = fill style a d := by
  cases style with
  | plain => rfl
  | highlighted =>
      rw [colourOf, fill]
      split
      · rfl
      · split <;> rfl

/-- The vertices of declarations, numbered from `start` on. -/
def verticesFrom (style : Style) (a : Analysis) (label : String) (start : Nat) :
    List Declaration → List Vertex
  | [] => []
  | d :: rest =>
    ⟨start, d, if d.isFileRoot then label else d.name, colourOf style a d⟩
      :: verticesFrom style a label (start + 1) rest

/-- The label of a file. -/
def labelOf (root file : Path) : String := ((file.below? root).getD file).text

def labelledOf (root : Path) (c : Cluster) : Labelled :=
  ⟨labelOf root c.file, Sorted.sort Declaration.compare c.declarations⟩

lemma inOrder_cons (root : Path) (c : Cluster) (cs : List Cluster) :
    inOrder (c :: cs) = (labelledOf root c).declarations ++ inOrder cs := rfl

/-- The box of a cluster, with its vertices numbered from `start` on. -/
def boxOf (style : Style) (a : Analysis) (start : Nat) (c : Cluster) : Box :=
  ⟨c.file, (labelledOf a.root c).label, verticesFrom style a (labelledOf a.root c).label start
    (labelledOf a.root c).declarations⟩

/-- The boxes of clusters, with their vertices numbered from `start` on. -/
def boxesFrom (style : Style) (a : Analysis) (start : Nat) : List Cluster → List Box
  | [] => []
  | c :: rest =>
    boxOf style a start c
      :: boxesFrom style a (start + (labelledOf a.root c).declarations.length) rest

/-- The numbers of the ends of an edge, if `keys` have been numbered. -/
def arrowOf (keys : List Declaration.Key) (e : Declaration × Declaration) : Arrow :=
  (keys.idxOf e.1.key, keys.idxOf e.2.key)

def drawingOf (style : Style) (a : Analysis) : Drawing where
  title := a.projectName
  boxes := boxesFrom style a 0 (clusters a.graph)
  arrows := (Sorted.sort compareEdges a.graph.edgeList).map
    (arrowOf ((inOrder (clusters a.graph)).map Declaration.key))

/-! ## Numbers -/

lemma flatMap_of_notMem {x : Char} {e cs : List Char} (h : x ∉ cs) :
    (cs.flatMap fun c => if c == x then e else [c]) = cs := by
  induction cs with
  | nil => rfl
  | cons c cs ih =>
      rw [List.mem_cons, not_or] at h
      rw [List.flatMap_cons, ih h.2, if_neg (by simpa using Ne.symm h.1)]
      rfl

/-- Nothing has to be escaped in a word with a number after it. -/
lemma quoted_numbered {word : String} (hslash : '\\' ∉ word.toList) (hquote : '"' ∉ word.toList)
    (i : Nat) : quoted (word ++ toString i) = "\"" ++ word ++ toString i ++ "\"" := by
  have hdigits : (toString i).toList = Nat.toDigits 10 i := by simp [toString, Nat.repr]
  have hplain : ∀ x : Char, x ∉ word.toList → x.isDigit = false →
      x ∉ (word ++ toString i).toList := by
    intro x hword hdigit hx
    rw [String.toList_append, hdigits] at hx
    rcases List.mem_append.1 hx with hx | hx
    · exact hword hx
    · rw [Nat.isDigit_of_mem_toDigits (by decide) (by decide) hx] at hdigit
      cases hdigit
  have hescape : escape (word ++ toString i) = word ++ toString i := by
    rw [escape, escapeBackslashes, flatMap_of_notMem (hplain _ hslash (by decide)), escapeQuotes,
      flatMap_of_notMem (hplain _ hquote (by decide)), String.ofList_toList]
  rw [quoted, hescape, ← String.append_assoc]

lemma quoted_name (i : Nat) : quoted ("n" ++ toString i) = nameOf i :=
  quoted_numbered (by decide) (by decide) i

namespace Page

/-- The page has given names to these keys, in this order. -/
structure Names (p : Page) (keys : List Declaration.Key) : Prop where
  size : p.ids.size = keys.length
  named : ∀ (i : Nat) (k : Declaration.Key),
    keys[i]? = some k → p.ids[k]? = some ("n" ++ toString i)
  only : ∀ k, k ∈ p.ids → k ∈ keys

variable (style : Style) (a : Analysis) (label : String) {p : Page} {keys : List Declaration.Key}

/-- A new node gets the next number for a name. -/
lemma names_addNode (h : p.Names keys) {d : Declaration} (hd : d.key ∉ keys) :
    (p.addNode style a label d).Names (keys ++ [d.key]) := by
  have hnew : d.key ∉ p.ids := fun hmem => hd (h.only _ hmem)
  refine ⟨?_, ?_, ?_⟩
  · simp [addNode, line, Std.HashMap.size_insert, hnew, h.size]
  · intro i k hk
    by_cases hi : i < keys.length
    · rw [List.getElem?_append_left hi] at hk
      have hne : d.key ≠ k := fun heq => hd (heq ▸ List.mem_of_getElem? hk)
      simp [addNode, line, Std.HashMap.getElem?_insert, hne, h.named i k hk]
    · have hlast : i = keys.length := by
        have hlength := (List.getElem?_eq_some_iff.1 hk).1
        rw [List.length_append, List.length_singleton] at hlength
        omega
      rw [hlast, List.getElem?_concat_length, Option.some.injEq] at hk
      simp [addNode, line, ← hk, hlast, h.size]
  · intro k hk
    simp only [addNode, line, Std.HashMap.mem_insert, beq_iff_eq] at hk
    rcases hk with rfl | hk
    · simp
    · exact List.mem_append_left _ (h.only k hk)

/-- A new node is one more line, that of its vertex. -/
lemma lines_addNode (h : p.Names keys) (d : Declaration) :
    (p.addNode style a label d).lines.toList
      = p.lines.toList ++ (verticesFrom style a label keys.length [d]).map Vertex.line := by
  rw [addNode, h.size, quoted_name]
  simp [line, verticesFrom, Vertex.line, request_colourOf]

/-- The declarations of a cluster are written as vertices, and named. -/
lemma lines_foldl_addNode (h : p.Names keys) (ds : List Declaration)
    (hds : (keys ++ ds.map Declaration.key).Nodup) :
    (ds.foldl (addNode style a label) p).Names (keys ++ ds.map Declaration.key) ∧
      (ds.foldl (addNode style a label) p).lines.toList
        = p.lines.toList ++ (verticesFrom style a label keys.length ds).map Vertex.line := by
  induction ds generalizing p keys with
  | nil => exact ⟨by simpa using h, by simp [verticesFrom]⟩
  | cons d ds ih =>
      have hnew : d.key ∉ keys := by
        intro hmem
        exact List.disjoint_of_nodup_append hds hmem List.mem_cons_self
      rw [List.map_cons, List.append_cons] at hds ⊢
      obtain ⟨hnames, hlines⟩ := ih (names_addNode style a label h hnew) hds
      refine ⟨hnames, ?_⟩
      rw [List.foldl_cons, hlines, lines_addNode style a label h]
      simp [verticesFrom]

lemma Names.line (h : p.Names keys) (text : String) : (p.line text).Names keys :=
  ⟨h.size, h.named, h.only⟩

@[simp] lemma lines_line (p : Page) (text : String) :
    (p.line text).lines.toList = p.lines.toList ++ [text] := by
  simp [Page.line]

/-- A cluster names its nodes in order, and is written as the lines of its box. -/
lemma lines_addCluster (h : p.Names keys) (number : Nat) (c : Cluster)
    (hc : (keys ++ (labelledOf a.root c).declarations.map Declaration.key).Nodup) :
    (p.addCluster style a number (labelledOf a.root c)).Names
        (keys ++ (labelledOf a.root c).declarations.map Declaration.key) ∧
      (p.addCluster style a number (labelledOf a.root c)).lines.toList
        = p.lines.toList ++ (boxOf style a keys.length c).lines number := by
  have hhead := (((h.line ("  subgraph \"cluster_" ++ toString number ++ "\" \x7b")).line
    ("    label=" ++ quoted (labelledOf a.root c).label ++ ";")).line "    style=filled;").line
    "    color=lightgrey;"
  obtain ⟨hnames, hlines⟩ := lines_foldl_addNode style a (labelledOf a.root c).label hhead _ hc
  refine ⟨hnames.line _, ?_⟩
  rw [addCluster, lines_line, hlines]
  simp [Box.lines, boxOf, labelledOf]

/-- Clusters are written as boxes, and their declarations are named. -/
lemma lines_addClusters (h : p.Names keys) (number : Nat) (cs : List Cluster)
    (hcs : (keys ++ (inOrder cs).map Declaration.key).Nodup) :
    (addClusters style a number p (cs.map (labelledOf a.root))).Names
        (keys ++ (inOrder cs).map Declaration.key) ∧
      (addClusters style a number p (cs.map (labelledOf a.root))).lines.toList
        = p.lines.toList ++ Box.linesFrom number (boxesFrom style a keys.length cs) := by
  induction cs generalizing p keys number with
  | nil =>
      exact ⟨by simpa [inOrder, addClusters] using h,
        by simp [addClusters, boxesFrom, Box.linesFrom]⟩
  | cons c cs ih =>
      rw [inOrder_cons a.root, List.map_append, ← List.append_assoc] at hcs ⊢
      obtain ⟨hnames, hlines⟩ := lines_addCluster style a h number c
        (List.Nodup.of_append_left hcs)
      obtain ⟨hnames', hlines'⟩ := ih hnames (number + 1) hcs
      refine ⟨hnames', ?_⟩
      rw [List.map_cons, addClusters, hlines', hlines]
      simp [boxesFrom, Box.linesFrom, labelledOf]

/-- An edge between nodes that have names is written as an arrow between their numbers. -/
lemma lines_addEdge (h : p.Names keys) {e : Declaration × Declaration} (hfrom : e.1.key ∈ keys)
    (hto : e.2.key ∈ keys) : p.addEdge e = p.line (arrowOf keys e).line := by
  have hi := h.named _ _ (List.getElem?_idxOf hfrom)
  have hj := h.named _ _ (List.getElem?_idxOf hto)
  simp only [addEdge, hi, hj, quoted_name]
  rfl

/-- Edges between named declarations are written as arrows; none is left out. -/
lemma lines_foldl_addEdge (h : p.Names keys) (es : List (Declaration × Declaration))
    (hes : ∀ e ∈ es, e.1.key ∈ keys ∧ e.2.key ∈ keys) :
    (es.foldl addEdge p).lines.toList
      = p.lines.toList ++ (es.map (arrowOf keys)).map Arrow.line := by
  induction es generalizing p with
  | nil => simp
  | cons e es ih =>
      obtain ⟨hfrom, hto⟩ := hes e List.mem_cons_self
      rw [List.foldl_cons, lines_addEdge h hfrom hto,
        ih (h.line _) fun e' he' => hes e' (List.mem_cons_of_mem e he')]
      simp

end Page

/-! ## What the drawing shows -/

section Vertices

variable (style : Style) (a : Analysis) (label : String)

@[simp] lemma declarations_verticesFrom (start : Nat) (ds : List Declaration) :
    (verticesFrom style a label start ds).map Vertex.declaration = ds := by
  induction ds generalizing start with
  | nil => rfl
  | cons d ds ih => rw [verticesFrom, List.map_cons, ih]

@[simp] lemma numbers_verticesFrom (start : Nat) (ds : List Declaration) :
    (verticesFrom style a label start ds).map Vertex.number = List.range' start ds.length := by
  induction ds generalizing start with
  | nil => rfl
  | cons d ds ih => rw [verticesFrom, List.map_cons, ih, List.length_cons, List.range'_succ]

/-- Vertices have the label and the colour of their declaration. -/
lemma of_mem_verticesFrom {start : Nat} {ds : List Declaration} {v : Vertex}
    (h : v ∈ verticesFrom style a label start ds) :
    v.label = (if v.declaration.isFileRoot then label else v.declaration.name) ∧
      v.colour = colourOf style a v.declaration := by
  induction ds generalizing start with
  | nil => cases h
  | cons d ds ih =>
      rcases List.mem_cons.1 h with rfl | h
      · exact ⟨rfl, rfl⟩
      · exact ih h

/-- The boxes hold the declarations of the clusters, in order, ... -/
lemma declarations_boxesFrom (start : Nat) (cs : List Cluster) :
    ((boxesFrom style a start cs).flatMap Box.vertices).map Vertex.declaration = inOrder cs := by
  induction cs generalizing start with
  | nil => rfl
  | cons c cs ih =>
      rw [boxesFrom, List.flatMap_cons, List.map_append, ih, boxOf, declarations_verticesFrom,
        inOrder_cons a.root]

/-- ... and number them throughout. -/
lemma numbers_boxesFrom (start : Nat) (cs : List Cluster) :
    ((boxesFrom style a start cs).flatMap Box.vertices).map Vertex.number
      = List.range' start (inOrder cs).length := by
  induction cs generalizing start with
  | nil => rfl
  | cons c cs ih =>
      rw [boxesFrom, List.flatMap_cons, List.map_append, ih, boxOf, numbers_verticesFrom,
        List.range'_append_1, inOrder_cons a.root, List.length_append]

lemma files_boxesFrom (start : Nat) (cs : List Cluster) :
    (boxesFrom style a start cs).map Box.file = cs.map Cluster.file := by
  induction cs generalizing start with
  | nil => rfl
  | cons c cs ih => rw [boxesFrom, List.map_cons, ih, boxOf, List.map_cons]

/-- Every box is that of a cluster. -/
lemma exists_cluster_of_mem_boxesFrom {start : Nat} {cs : List Cluster} {b : Box}
    (h : b ∈ boxesFrom style a start cs) : ∃ c ∈ cs, ∃ i, b = boxOf style a i c := by
  induction cs generalizing start with
  | nil => cases h
  | cons c cs ih =>
      rcases List.mem_cons.1 h with rfl | h
      · exact ⟨c, List.mem_cons_self, start, rfl⟩
      · obtain ⟨c', hc', i, rfl⟩ := ih h
        exact ⟨c', List.mem_cons_of_mem c hc', i, rfl⟩

end Vertices

/-- Entrypoints are green, if they are to be highlighted. -/
lemma colourOf_eq_green_iff {style : Style} {a : Analysis} {d : Declaration} :
    colourOf style a d = .green ↔ style = .highlighted ∧ HasKey d.key a.entrypoints := by
  rw [HasKey, ← Declaration.contains_iff]
  cases style with
  | plain => simp [colourOf]
  | highlighted =>
      simp only [colourOf, true_and]
      split
      next h => simp [h]
      next h =>
        rw [Bool.not_eq_true] at h
        simp only [h]
        split <;> simp

/-- What is not reached is red, unless it is an entrypoint. -/
lemma colourOf_eq_red_iff {style : Style} {a : Analysis} {d : Declaration} :
    colourOf style a d = .red ↔
      style = .highlighted ∧ HasKey d.key a.unreachable ∧ ¬ HasKey d.key a.entrypoints := by
  rw [HasKey, HasKey, ← Declaration.contains_iff, ← Declaration.contains_iff]
  cases style with
  | plain => simp [colourOf]
  | highlighted =>
      simp only [colourOf, true_and]
      split
      next h => simp [h]
      next h =>
        split
        next h' => simp [h, h']
        next h' => simp [h']

/-! ## Arrows -/

instance : TransCmp compareEdges := by
  have hfrom : TransCmp fun e f : Declaration × Declaration => e.1.compare f.1 :=
    transCmp_comap Prod.fst
  have hto : TransCmp fun e f : Declaration × Declaration => e.2.compare f.2 :=
    transCmp_comap Prod.snd
  exact inferInstanceAs (TransCmp (compareLex
    (fun e f : Declaration × Declaration => e.1.compare f.1) fun e f => e.2.compare f.2))

/-- Elements of a strict list compare as their places do. -/
lemma compare_idxOf {keys : List Declaration.Key} (h : Strict Declaration.Key.compare keys)
    {k l : Declaration.Key} (hk : k ∈ keys) (hl : l ∈ keys) :
    Ord.compare (keys.idxOf k) (keys.idxOf l) = k.compare l := by
  have hlt : ∀ {k l}, k ∈ keys → l ∈ keys → keys.idxOf k < keys.idxOf l → k.compare l = .lt := by
    intro k l hk hl hkl
    have hpair := List.pairwise_iff_getElem.1 h _ _ (List.idxOf_lt_length_of_mem hk)
      (List.idxOf_lt_length_of_mem hl) hkl
    rwa [List.getElem_idxOf, List.getElem_idxOf] at hpair
  rcases Nat.lt_trichotomy (keys.idxOf k) (keys.idxOf l) with hkl | hkl | hkl
  · rw [hlt hk hl hkl, Nat.compare_eq_lt.2 hkl]
  · have hself : l.compare l = .eq := Std.ReflCmp.compare_self
    rw [(List.idxOf_inj hk).1 hkl, hself, Nat.compare_eq_eq.2 rfl]
  · rw [OrientedCmp.gt_of_lt (hlt hl hk hkl), Nat.compare_eq_gt.2 hkl]

/-- Numbers follow the order of the declarations, so arrows come in the order of their edges. -/
lemma compare_arrowOf {keys : List Declaration.Key} (h : Strict Declaration.Key.compare keys)
    {e f : Declaration × Declaration} (he : e.1.key ∈ keys ∧ e.2.key ∈ keys)
    (hf : f.1.key ∈ keys ∧ f.2.key ∈ keys) :
    Arrow.compare (arrowOf keys e) (arrowOf keys f) = compareEdges e f := by
  rw [Arrow.compare, compareLex, compareOn, compareOn, arrowOf, arrowOf, compare_idxOf h he.1 hf.1,
    compare_idxOf h he.2 hf.2]
  rfl

/-! ## The text of an analysis -/

/-- A cluster whose file lies below the root has a label, ... -/
lemma labelled_eq {root : Path} {c : Cluster} (h : root.components <+: c.file.components) :
    labelled root c = .ok (labelledOf root c) := by
  obtain ⟨p, hp⟩ := Path.exists_below?_iff.2 h
  rw [labelled, relativePath, hp, labelledOf, labelOf, hp]
  rfl

/-- ... and no other cluster has. -/
lemma below_of_labelled {root : Path} {c : Cluster} {l : Labelled} (h : labelled root c = .ok l) :
    root.components <+: c.file.components := by
  obtain ⟨p, hp, -⟩ := map_eq_ok_iff.1 h
  rw [relativePath] at hp
  split at hp
  next p hbelow => exact Path.exists_below?_iff.1 ⟨p, hbelow⟩
  next => cases hp

/-- A graph can be written exactly if all of its nodes lie below the root. -/
lemma exists_render_iff {style : Style} {a : Analysis} :
    (∃ text, render style a = .ok text) ↔
      ∀ d ∈ a.graph.nodes.toList, a.root.components <+: d.file.components := by
  have hgroups := groups_clusters a.graph
  constructor
  · rintro ⟨text, h⟩ d hd
    obtain ⟨cs, hcs, -⟩ := bind_eq_ok_iff.1 h
    obtain ⟨c, hc, hfile⟩ := hgroups.covers d hd
    obtain ⟨l, -, hl⟩ := exists_of_mem_of_mapM hcs hc
    rw [hfile]
    exact below_of_labelled hl
  · intro h
    have hlabelled : ∀ c ∈ clusters a.graph, ∃ l, labelled a.root c = .ok l := by
      intro c hc
      obtain ⟨d, hd, hfile⟩ := exists_node_of_mem_clusters hc
      exact ⟨_, labelled_eq (hfile ▸ h d hd)⟩
    obtain ⟨cs, hcs⟩ := mapM_succeeds hlabelled
    exact ⟨_, bind_eq_ok_iff.2 ⟨cs, hcs, rfl⟩⟩

/-- The ends of an edge are among the numbered nodes. -/
lemma mem_keys_of_edge {g : ReferenceGraph} {e : Declaration × Declaration} (he : e ∈ g.edgeList) :
    e.1.key ∈ (inOrder (clusters g)).map Declaration.key ∧
      e.2.key ∈ (inOrder (clusters g)).map Declaration.key := by
  obtain ⟨hfrom, hto⟩ := ReferenceGraph.mem_nodes_of_mem_edgeList he
  have hgroups := groups_clusters g
  exact ⟨List.mem_map_of_mem (hgroups.mem_inOrder_iff.2 hfrom),
    List.mem_map_of_mem (hgroups.mem_inOrder_iff.2 hto)⟩

/-- The box of a cluster shows the file of the cluster. -/
lemma shows_boxOf {style : Style} {a : Analysis} {c : Cluster} (hc : c ∈ clusters a.graph)
    (h : ∀ d ∈ a.graph.nodes.toList, a.root.components <+: d.file.components) (i : Nat) :
    (boxOf style a i c).Shows style a := by
  obtain ⟨d, hd, hfile⟩ := exists_node_of_mem_clusters hc
  refine ⟨⟨d, hd, hfile.symm⟩, ?_, ?_, ?_⟩
  · obtain ⟨p, hp, hlabel⟩ := map_eq_ok_iff.1 (labelled_eq (hfile ▸ h d hd))
    exact ⟨p, hp, by rw [boxOf, ← hlabel]⟩
  · intro e
    rw [boxOf, declarations_verticesFrom, labelledOf, Sorted.mem_sort]
    exact (groups_clusters a.graph).mem_declarations_iff hc
  · intro v hv
    obtain ⟨hlabel, hcolour⟩ := of_mem_verticesFrom style a _ hv
    refine ⟨hlabel, ?_, ?_⟩
    · rw [hcolour]
      exact colourOf_eq_green_iff
    · rw [hcolour]
      exact colourOf_eq_red_iff

section Text

variable {style : Style} {a : Analysis} (hg : a.graph.Consistent)

include hg

lemma strict_nodes : Strict Declaration.compare (inOrder (clusters a.graph)) :=
  (groups_clusters a.graph).strict_inOrder hg.nodup_keys

lemma length_inOrder : (inOrder (clusters a.graph)).length = a.graph.nodes.size := by
  have hperm : (inOrder (clusters a.graph)).Perm a.graph.nodes.toList :=
    (List.perm_ext_iff_of_nodup (strict_nodes hg).nodup (List.Nodup.of_map _ hg.nodup_keys)).2
      fun _ => (groups_clusters a.graph).mem_inOrder_iff
  rw [hperm.length_eq, Array.length_toList]

/-- If all nodes lie below the root, what is written is the text of the drawing. -/
lemma render_eq (h : ∀ d ∈ a.graph.nodes.toList, a.root.components <+: d.file.components) :
    render style a = .ok (drawingOf style a).text := by
  have hlabels : (clusters a.graph).mapM (labelled a.root)
      = .ok ((clusters a.graph).map (labelledOf a.root)) := by
    rw [mapM_eq_ok_iff, List.forall₂_map_right_iff, List.forall₂_same]
    intro c hc
    obtain ⟨d, hd, hfile⟩ := exists_node_of_mem_clusters hc
    exact labelled_eq (hfile ▸ h d hd)
  have hempty : ({} : Page).Names [] := ⟨by simp, by simp, by simp⟩
  obtain ⟨hnames, hlines⟩ := Page.lines_addClusters style a
    ((hempty.line ("digraph " ++ quoted a.projectName ++ " \x7b")).line
      "  node [shape=box, style=filled, fillcolor=white];") 0 (clusters a.graph)
    (Declaration.nodup_keys_of_strict (strict_nodes hg))
  have hedges := Page.lines_foldl_addEdge hnames (Sorted.sort compareEdges a.graph.edgeList)
    fun e he => mem_keys_of_edge (Sorted.mem_sort.1 he)
  rw [render, hlabels]
  refine congrArg (fun lines : List String => Except.ok (String.join (lines.map (· ++ "\n")))) ?_
  rw [Page.lines_line, hedges, hlines]
  simp [Drawing.lines, drawingOf]

/-- Arrows come in the order of their numbers, since edges come in the order of their ends. -/
lemma strict_arrows (hlinks : (a.graph.edgeList.map ReferenceGraph.linkOf).Nodup) :
    Strict Arrow.compare (drawingOf style a).arrows := by
  rw [List.Nodup, List.pairwise_map] at hlinks
  have hedges : Strict compareEdges (Sorted.sort compareEdges a.graph.edgeList) := by
    refine Sorted.strict_sort (hlinks.imp ?_)
    intro e f hne heq
    rw [compareEdges, Ordering.then_eq_eq, Declaration.compare_eq_iff,
      Declaration.compare_eq_iff] at heq
    exact hne (Prod.ext heq.1 heq.2)
  refine List.pairwise_map.2 (hedges.imp_of_mem ?_)
  intro e f he hf hlt
  rw [compare_arrowOf (Declaration.strict_keys (strict_nodes hg))
    (mem_keys_of_edge (Sorted.mem_sort.1 he)) (mem_keys_of_edge (Sorted.mem_sort.1 hf))]
  exact hlt

/-- The vertex with number `i` is that of the `i`-th key. -/
lemma getElem?_vertices_iff (style : Style) {i : Nat} {k : Declaration.Key} :
    (∃ v : Vertex, (drawingOf style a).vertices[i]? = some v ∧ v.key = k) ↔
      k ∈ (inOrder (clusters a.graph)).map Declaration.key ∧
        ((inOrder (clusters a.graph)).map Declaration.key).idxOf k = i := by
  have hkeys : (inOrder (clusters a.graph)).map Declaration.key
      = (drawingOf style a).vertices.map Vertex.key := by
    rw [← declarations_boxesFrom style a 0, List.map_map]
    rfl
  have hnodup := Declaration.nodup_keys_of_strict (strict_nodes hg)
  rw [hkeys] at hnodup ⊢
  constructor
  · rintro ⟨v, hv, rfl⟩
    have hk : ((drawingOf style a).vertices.map Vertex.key)[i]? = some v.key := by simp [hv]
    have hmem := List.mem_of_getElem? hk
    refine ⟨hmem, ?_⟩
    exact (List.getElem?_inj (List.idxOf_lt_length_of_mem hmem) hnodup).1
      ((List.getElem?_idxOf hmem).trans hk.symm)
  · rintro ⟨hmem, rfl⟩
    have hk := List.getElem?_idxOf hmem
    rw [List.getElem?_map, Option.map_eq_some_iff] at hk
    exact hk

/-- There is an arrow between two numbers exactly if there is an edge between their nodes. -/
lemma mem_arrows_iff {i j : Nat} :
    (i, j) ∈ (drawingOf style a).arrows ↔
      ∃ v w, (drawingOf style a).vertices[i]? = some v ∧ (drawingOf style a).vertices[j]? = some w ∧
        a.graph.containsEdge v.declaration w.declaration = true := by
  simp only [drawingOf, List.mem_map, Sorted.mem_sort, arrowOf, Prod.mk.injEq]
  constructor
  · rintro ⟨e, he, hi, hj⟩
    obtain ⟨hfrom, hto⟩ := mem_keys_of_edge he
    obtain ⟨v, hv, hvkey⟩ := (getElem?_vertices_iff hg style).2 ⟨hfrom, hi⟩
    obtain ⟨w, hw, hwkey⟩ := (getElem?_vertices_iff hg style).2 ⟨hto, hj⟩
    exact ⟨v, w, hv, hw, hg.containsEdge_iff.2 ⟨e, he, hvkey.symm, hwkey.symm⟩⟩
  · rintro ⟨v, w, hv, hw, hedge⟩
    obtain ⟨e, he, hfrom, hto⟩ := hg.containsEdge_iff.1 hedge
    refine ⟨e, he, ?_, ?_⟩
    · exact ((getElem?_vertices_iff hg style).1 ⟨v, hv, hfrom.symm⟩).2
    · exact ((getElem?_vertices_iff hg style).1 ⟨w, hw, hto.symm⟩).2

/-- The drawing shows the analysis. -/
lemma depicts_drawingOf (hlinks : (a.graph.edgeList.map ReferenceGraph.linkOf).Nodup)
    (h : ∀ d ∈ a.graph.nodes.toList, a.root.components <+: d.file.components) :
    Depicts style a (drawingOf style a) := by
  have hgroups := groups_clusters a.graph
  have hdeclarations : (drawingOf style a).vertices.map Vertex.declaration
      = inOrder (clusters a.graph) := declarations_boxesFrom style a 0 _
  constructor
  case title => rfl
  case numbers =>
    rw [Drawing.vertices, drawingOf, numbers_boxesFrom, length_inOrder hg, List.range_eq_range']
  case strict =>
    rw [hdeclarations]
    exact strict_nodes hg
  case nodes =>
    intro d
    rw [hdeclarations]
    exact hgroups.mem_inOrder_iff
  case files =>
    rw [drawingOf, files_boxesFrom]
    exact hgroups.files
  case boxes =>
    intro b hb
    obtain ⟨c, hc, i, rfl⟩ := exists_cluster_of_mem_boxesFrom style a hb
    exact shows_boxOf hc h i
  case increasing => exact strict_arrows hg hlinks
  case arrows => exact fun i j => mem_arrows_iff hg

end Text

open ReferenceGraph (Call ofCalls reflects_ofCalls)

section Calls

variable {style : Style} {a b : Analysis} {calls calls' : List Call} {text : String}

lemma hasKey_ofCalls_iff {k : Declaration.Key} :
    HasKey k (ofCalls calls).nodes.toList ↔ HasKey k (calls.flatMap Call.offered) := by
  constructor
  · rintro ⟨d, hd, hkey⟩
    exact ⟨d, ReferenceGraph.mem_offered_of_mem_nodes hd, hkey⟩
  · rintro ⟨e, he, rfl⟩
    exact (reflects_ofCalls calls).consistent.containsNode_iff.1
      (ReferenceGraph.containsNode_ofCalls_iff.2 ⟨e, he, rfl⟩)

/-- The order of the calls does not matter, unless they spell one path in two ways. -/
lemma alike_of_perm (a : Analysis) (hperm : calls.Perm calls')
    (hspelling : ∀ d ∈ calls.flatMap Call.offered, ∀ e ∈ calls.flatMap Call.offered,
      d.file.components = e.file.components → d.file = e.file) :
    Alike { a with graph := ofCalls calls } { a with graph := ofCalls calls' } := by
  have hoffered : (calls.flatMap Call.offered).Perm (calls'.flatMap Call.offered) :=
    hperm.flatMap_right _
  have hlinks : (calls.flatMap Call.links).Perm (calls'.flatMap Call.links) :=
    hperm.flatMap_right _
  constructor
  case root => rfl
  case entrypoints => exact fun _ => Iff.rfl
  case unreachable => exact fun _ => Iff.rfl
  case nodes =>
    intro k
    rw [hasKey_ofCalls_iff, hasKey_ofCalls_iff]
    exact exists_congr fun d => and_congr_left fun _ => hoffered.mem_iff
  case edges =>
    intro d e
    rw [Bool.eq_iff_iff, ReferenceGraph.containsEdge_ofCalls_iff,
      ReferenceGraph.containsEdge_ofCalls_iff]
    exact hlinks.mem_iff
  case spelling =>
    intro d hd e he
    exact hspelling d (ReferenceGraph.mem_offered_of_mem_nodes hd) e
      (hoffered.mem_iff.2 (ReferenceGraph.mem_offered_of_mem_nodes he))

/-- What is written is the text of a drawing that shows the analysis. -/
lemma exists_drawing_of_render (hgraph : a.graph = ofCalls calls) (h : render style a = .ok text) :
    ∃ D : Drawing, D.text = text ∧ Depicts style a D := by
  obtain ⟨hg, -, hlinks⟩ := reflects_ofCalls calls
  rw [← hgraph] at hg hlinks
  have hbelow := exists_render_iff.1 ⟨text, h⟩
  rw [render_eq hg hbelow] at h
  refine ⟨drawingOf style a, Except.ok.inj h, depicts_drawingOf hg ?_ hbelow⟩
  rw [hlinks]
  exact nodup_eraseDups _

/-- Analyses with the same content are written alike. -/
lemma render_of_alike (ha : a.graph = ofCalls calls) (hb : b.graph = ofCalls calls')
    (halike : Alike a b) (h : render style a = .ok text) : render style b = .ok text := by
  have hbelow : ∀ e ∈ b.graph.nodes.toList, b.root.components <+: e.file.components := by
    intro e he
    obtain ⟨d, hd, hkey⟩ := (halike.nodes e.key).2 ⟨e, he, rfl⟩
    have hfile : d.file.components = e.file.components := congrArg Declaration.Key.file hkey
    rw [← halike.root, ← hfile]
    exact exists_render_iff.1 ⟨text, h⟩ d hd
  obtain ⟨text', h'⟩ : ∃ text', render style b = .ok text' := exists_render_iff.2 hbelow
  obtain ⟨D, rfl, hD⟩ := exists_drawing_of_render ha h
  obtain ⟨E, rfl, hE⟩ := exists_drawing_of_render hb h'
  rw [h', hD.text_eq hE halike]

/-- What is written of an analysis whose graph was built by calls: it fails exactly if a node does
not lie below the root, and otherwise is the text of a drawing of the analysis.  Analyses with the
same content are written alike. -/
theorem render_ofCalls (style : Style) (a : Analysis) (calls : List Call)
    (hgraph : a.graph = ofCalls calls) :
    ((∃ e, render style a = .error e) ↔
      ∃ d ∈ a.graph.nodes.toList, ¬ a.root.components <+: d.file.components) ∧
    (∀ text, render style a = .ok text → ∃ D : Drawing, D.text = text ∧ Depicts style a D) ∧
    ∀ (b : Analysis) (calls' : List Call), b.graph = ofCalls calls' → Alike a b →
      ∀ text, render style a = .ok text ↔ render style b = .ok text := by
  refine ⟨?_, fun text => exists_drawing_of_render hgraph, ?_⟩
  · rw [exists_error_iff, exists_render_iff]
    simp only [not_forall, exists_prop]
  · intro b calls' hgraph' halike text
    exact ⟨render_of_alike hgraph hgraph' halike, render_of_alike hgraph' hgraph halike.symm⟩

end Calls

namespace Sample

/-! A function of one file calls that of another one, whose other code is not reached. -/

def caller : Declaration := { file := ⟨"p/b.go"⟩, name := "main" }

def callee : Declaration := { file := ⟨"p/a.go"⟩, name := "h" }

def calls : List Call := [.edge caller callee, .node (.fileRoot ⟨"p/a.go"⟩)]

def analysis (calls : List Call) : Analysis where
  root := ⟨"p"⟩
  rootModule := "m"
  graph := ofCalls calls
  entrypoints := [caller]
  unreachable := [.fileRoot ⟨"p/a.go"⟩]

lemma below : ∀ d ∈ (analysis calls).graph.nodes.toList,
    (analysis calls).root.components <+: d.file.components := by
  have hoffered : ∀ d ∈ calls.flatMap Call.offered,
      (analysis calls).root.components <+: d.file.components := by decide
  exact fun d hd => hoffered d (ReferenceGraph.mem_offered_of_mem_nodes hd)

lemma alike_reverse : Alike (analysis calls) (analysis calls.reverse) :=
  alike_of_perm (analysis calls) calls.reverse_perm.symm (by decide)

end Sample

/-- Two files in two boxes, with an arrow between them, are written alike if the calls come the
other way round. -/
theorem render_ofCalls_sample :
    (Sample.analysis Sample.calls).graph = ofCalls Sample.calls ∧
    ∃ D : Drawing, Depicts .highlighted (Sample.analysis Sample.calls) D ∧
      render .highlighted (Sample.analysis Sample.calls) = .ok D.text ∧
      render .highlighted (Sample.analysis Sample.calls.reverse) = .ok D.text := by
  have hwritten := render_ofCalls .highlighted (Sample.analysis Sample.calls) Sample.calls rfl
  obtain ⟨text, htext⟩ : ∃ text, render .highlighted (Sample.analysis Sample.calls) = .ok text :=
    exists_render_iff.2 Sample.below
  obtain ⟨D, rfl, hD⟩ := hwritten.2.1 text htext
  exact ⟨rfl, D, hD, htext, (hwritten.2.2 _ _ rfl Sample.alike_reverse _).1 htext⟩

end Report.Dot

end GoReach
