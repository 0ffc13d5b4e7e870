import GoReach.Proofs.Graph.Consistency
import GoReach.Proofs.Sorted
import GoReach.Report.Dot

/-!
# Drawings of a graph

A `Drawing` is what a DOT text of this library shows: boxes with vertices in them, and arrows
between the numbers of vertices.  `Drawing.text` writes it down.  `Depicts` says which drawings show
an analysis: the vertices are the nodes of the graph, numbered in the order of declarations, each in
the box of its file, and the arrows are the edges.

Nothing of a drawing is left open by that: if two analyses have the same content, then drawings of
them have the same text (`Depicts.text_eq`).
-/

namespace GoReach

open Std (TransCmp)
open Sorted (Strict)

/-! ## The order of keys -/

namespace Declaration

/-- Declarations compare as their keys do. -/
def Key.compare (k l : Key) : Ordering :=
  (Path.compareComponents k.file l.file).then (compareOfLessAndEq k.name l.name)

instance : TransCmp Key.compare := by
  have hfile : TransCmp fun k l : Key => Path.compareComponents k.file l.file :=
    transCmp_comap Key.file
  exact inferInstanceAs (TransCmp
    (compareLex (fun k l : Key => Path.compareComponents k.file l.file) (compareOn Key.name)))

lemma strict_keys {ds : List Declaration} (h : Strict Declaration.compare ds) :
    Strict Key.compare (ds.map key) :=
  List.pairwise_map.2 h

lemma nodup_keys_of_strict {ds : List Declaration} (h : Strict Declaration.compare ds) :
    (ds.map key).Nodup :=
  (strict_keys h).nodup

/-- An equal declaration is in a sorted list of declarations. -/
lemma contains_iff {d : Declaration} {ds : List Declaration} :
    Sorted.contains Declaration.compare d ds = true ↔ ∃ e ∈ ds, e.key = d.key := by
  rw [Sorted.contains, List.any_eq_true]
  refine exists_congr fun e => and_congr_right fun _ => ?_
  rw [beq_iff_eq, compare_eq_iff, eq_comm]

end Declaration

/-- An edge is found by the keys of its ends. -/
lemma ReferenceGraph.containsEdge_congr (g : ReferenceGraph) {a b a' b' : Declaration}
    (ha : a.key = a'.key) (hb : b.key = b'.key) : g.containsEdge a b = g.containsEdge a' b' := by
  simp only [containsEdge, number?, ha, hb]

namespace Report.Dot

/-! ## Drawings -/

inductive Colour where
  | white
  | green
  | red
deriving DecidableEq, Repr, Inhabited

namespace Colour

/-- How a colour is asked for; vertices are white unless they are said to be otherwise. -/
def request : Colour → String
  | .white => ""
  | .green => ", fillcolor=palegreen"
  | .red => ", fillcolor=lightcoral"

end Colour

/-- How a vertex is referred to. -/
def nameOf (number : Nat) : String := "\"n" ++ toString number ++ "\""

/-- A declaration in a drawing. -/
structure Vertex where
  number : Nat
  declaration : Declaration
  label : String
  colour : Colour

namespace Vertex

def key (v : Vertex) : Declaration.Key := v.declaration.key

def line (v : Vertex) : String :=
  "    " ++ nameOf v.number ++ " [label=" ++ quoted v.label ++ v.colour.request ++ "];"

end Vertex

/-- A file in a drawing. -/
structure Box where
  file : Path
  label : String
  vertices : List Vertex

namespace Box

def lines (number : Nat) (b : Box) : List String :=
  ["  subgraph \"cluster_" ++ toString number ++ "\" \x7b",
    "    label=" ++ quoted b.label ++ ";", "    style=filled;", "    color=lightgrey;"]
    ++ b.vertices.map Vertex.line ++ ["  \x7d"]

/-- The lines of boxes that are numbered from `number` on. -/
def linesFrom (number : Nat) : List Box → List String
  | [] => []
  | b :: rest => b.lines number ++ linesFrom (number + 1) rest

/-- What is written of a box. -/
def view (b : Box) : String × List String := (b.label, b.vertices.map Vertex.line)

lemma linesFrom_congr {bs cs : List Box} (h : bs.map view = cs.map view) (number : Nat) :
    linesFrom number bs = linesFrom number cs := by
  induction bs generalizing cs number with
  | nil =>
      rw [List.map_nil, List.nil_eq, List.map_eq_nil_iff] at h
      rw [h]
  | cons b bs ih =>
      cases cs with
      | nil => cases h
      | cons c cs =>
          simp only [List.map_cons, List.cons.injEq, view, Prod.mk.injEq] at h
          rw [linesFrom, linesFrom, ih h.2, lines, lines, h.1.1, h.1.2]

end Box

/-- The number of the vertex at which an arrow begins, and of that at which it ends. -/
abbrev Arrow : Type := Nat × Nat

namespace Arrow

def line (e : Arrow) : String := "  " ++ nameOf e.1 ++ " -> " ++ nameOf e.2 ++ ";"

/-- Arrows come in the order of their beginnings, and then of their ends. -/
def compare : Arrow → Arrow → Ordering := compareLex (compareOn Prod.fst) (compareOn Prod.snd)

instance : TransCmp compare :=
  inferInstanceAs (TransCmp (compareLex (compareOn Prod.fst) (compareOn Prod.snd)))

end Arrow

structure Drawing where
  title : String
  boxes : List Box
  arrows : List Arrow

namespace Drawing

def vertices (D : Drawing) : List Vertex := D.boxes.flatMap Box.vertices

def lines (D : Drawing) : List String :=
  ["digraph " ++ quoted D.title ++ " \x7b", "  node [shape=box, style=filled, fillcolor=white];"]
    ++ Box.linesFrom 0 D.boxes ++ D.arrows.map Arrow.line ++ ["\x7d"]

def text (D : Drawing) : String := String.join (D.lines.map (· ++ "\n"))

end Drawing

/-! ## Drawings of an analysis -/

/-- A declaration with this key is in a list. -/
def HasKey (k : Declaration.Key) (ds : List Declaration) : Prop := ∃ d ∈ ds, d.key = k

/-- A vertex of a box shows its declaration. -/
structure Vertex.Shows (style : Style) (a : Analysis) (b : Box) (v : Vertex) : Prop where
  label : v.label = if v.declaration.isFileRoot then b.label else v.declaration.name
  green_iff : v.colour = .green ↔ style = .highlighted ∧ HasKey v.key a.entrypoints
  red_iff : v.colour = .red ↔ style = .highlighted ∧ HasKey v.key a.unreachable ∧
    ¬ HasKey v.key a.entrypoints

/-- A box shows a file: the nodes of the graph that the file declares, and no others. -/
structure Box.Shows (style : Style) (a : Analysis) (b : Box) : Prop where
  /-- The file is written as in one of the nodes. -/
  file : ∃ d ∈ a.graph.nodes.toList, d.file = b.file
  label : ∃ p, relativePath b.file a.root = .ok p ∧ b.label = p.text
  holds : ∀ d, d ∈ b.vertices.map Vertex.declaration ↔
    d ∈ a.graph.nodes.toList ∧ d.file.components = b.file.components
  vertices : ∀ v ∈ b.vertices, v.Shows style a b

/-- A drawing shows an analysis. -/
structure Depicts (style : Style) (a : Analysis) (D : Drawing) : Prop where
  title : D.title = a.projectName
  /-- With `k` nodes, the vertices carry the numbers from `0` to `k - 1`, in this order. -/
  numbers : D.vertices.map Vertex.number = List.range a.graph.nodes.size
  /-- Vertices come in the order of their declarations, ... -/
  strict : Strict Declaration.compare (D.vertices.map Vertex.declaration)
  /-- ... which are the nodes of the graph. -/
  nodes : ∀ d, d ∈ D.vertices.map Vertex.declaration ↔ d ∈ a.graph.nodes.toList
  /-- There is one box for a file, however it is written. -/
  files : Strict Path.compare (D.boxes.map Box.file)
  boxes : ∀ b ∈ D.boxes, b.Shows style a
  increasing : Strict Arrow.compare D.arrows
  arrows : ∀ i j, (i, j) ∈ D.arrows ↔ ∃ v w, D.vertices[i]? = some v ∧ D.vertices[j]? = some w ∧
    a.graph.containsEdge v.declaration w.declaration = true

/-- Two analyses have the same content, whatever the order in which it came. -/
structure Alike (a b : Analysis) : Prop where
  root : a.root = b.root
  entrypoints : ∀ k, HasKey k a.entrypoints ↔ HasKey k b.entrypoints
  unreachable : ∀ k, HasKey k a.unreachable ↔ HasKey k b.unreachable
  nodes : ∀ k, HasKey k a.graph.nodes.toList ↔ HasKey k b.graph.nodes.toList
  edges : ∀ d e, a.graph.containsEdge d e = b.graph.containsEdge d e
  /-- Equal paths are spelled the same. -/
  spelling : ∀ d ∈ a.graph.nodes.toList, ∀ e ∈ b.graph.nodes.toList,
    d.file.components = e.file.components → d.file = e.file

/-! ## A drawing is determined by the analysis -/

/-- What is the same function of equal views is the same. -/
lemma map_eq_of_map_eq {α β γ δ : Type} {f : α → γ} {f' : β → γ} {g : α → δ} {g' : β → δ}
    {as : List α} {bs : List β} (h : as.map f = bs.map f')
    (hg : ∀ a ∈ as, ∀ b ∈ bs, f a = f' b → g a = g' b) : as.map g = bs.map g' := by
  induction as generalizing bs with
  | nil =>
      rw [List.map_nil, List.nil_eq, List.map_eq_nil_iff] at h
      rw [h]
      rfl
  | cons a as ih =>
      cases bs with
      | nil => cases h
      | cons b bs =>
          simp only [List.map_cons, List.cons.injEq] at h
          have hhead := hg a List.mem_cons_self b List.mem_cons_self h.1
          have htail := ih h.2 fun x hx y hy =>
            hg x (List.mem_cons_of_mem a hx) y (List.mem_cons_of_mem b hy)
          rw [List.map_cons, List.map_cons, hhead, htail]

namespace Depicts

variable {style : Style} {a b : Analysis} {D E : Drawing}

lemma mem_vertices {B : Box} {v : Vertex} (hB : B ∈ D.boxes) (hv : v ∈ B.vertices) :
    v ∈ D.vertices :=
  List.mem_flatMap.2 ⟨B, hB, hv⟩

section One

variable (hD : Depicts style a D)

include hD

lemma strict_keys : Strict Declaration.Key.compare (D.vertices.map Vertex.key) := by
  have h := Declaration.strict_keys hD.strict
  rwa [List.map_map] at h

lemma strict_keys_of_box {B : Box} (hB : B ∈ D.boxes) :
    Strict Declaration.Key.compare (B.vertices.map Vertex.key) := by
  have hsub : B.vertices.Sublist D.vertices :=
    List.sublist_flatten_of_mem (List.mem_map_of_mem hB)
  exact hD.strict_keys.sublist (hsub.map _)

lemma mem_keys_iff {k : Declaration.Key} :
    k ∈ D.vertices.map Vertex.key ↔ HasKey k a.graph.nodes.toList := by
  have hkeys : D.vertices.map Vertex.key
      = (D.vertices.map Vertex.declaration).map Declaration.key := by
    rw [List.map_map]
    rfl
  rw [hkeys, List.mem_map]
  exact exists_congr fun d => and_congr_left fun _ => hD.nodes d

/-- A box holds the keys of the nodes with its file in them. -/
lemma mem_keys_of_box_iff {B : Box} (hB : B ∈ D.boxes) {k : Declaration.Key} :
    k ∈ B.vertices.map Vertex.key ↔
      HasKey k a.graph.nodes.toList ∧ k.file = B.file.components := by
  have hkeys : B.vertices.map Vertex.key
      = (B.vertices.map Vertex.declaration).map Declaration.key := by
    rw [List.map_map]
    rfl
  rw [hkeys, List.mem_map]
  constructor
  · rintro ⟨d, hd, rfl⟩
    obtain ⟨hnode, hfile⟩ := ((hD.boxes B hB).holds d).1 hd
    exact ⟨⟨d, hnode, rfl⟩, hfile⟩
  · rintro ⟨⟨d, hnode, rfl⟩, hfile⟩
    exact ⟨d, ((hD.boxes B hB).holds d).2 ⟨hnode, hfile⟩, rfl⟩

/-- There is a box for the file of every node, and for no other. -/
lemma mem_files_iff {file : List Path.Component} :
    file ∈ D.boxes.map (fun B => B.file.components) ↔
      ∃ k, HasKey k a.graph.nodes.toList ∧ k.file = file := by
  rw [List.mem_map]
  constructor
  · rintro ⟨B, hB, rfl⟩
    obtain ⟨d, hd, hfile⟩ := (hD.boxes B hB).file
    exact ⟨d.key, ⟨d, hd, rfl⟩, by rw [← hfile]; rfl⟩
  · rintro ⟨k, ⟨d, hd, rfl⟩, rfl⟩
    obtain ⟨v, hv, rfl⟩ := List.mem_map.1 ((hD.nodes d).2 hd)
    obtain ⟨B, hB, hvB⟩ := List.mem_flatMap.1 hv
    have hholds := ((hD.boxes B hB).holds v.declaration).1 (List.mem_map_of_mem hvB)
    exact ⟨B, hB, hholds.2.symm⟩

/-- Nothing is drawn of a graph without nodes. -/
lemma eq_of_no_nodes (hnodes : a.graph.nodes.toList = []) : D = ⟨a.projectName, [], []⟩ := by
  have hboxes : D.boxes = [] := by
    refine List.eq_nil_iff_forall_not_mem.2 fun B hB => ?_
    obtain ⟨d, hd, -⟩ := (hD.boxes B hB).file
    rw [hnodes] at hd
    cases hd
  have harrows : D.arrows = [] := by
    refine List.eq_nil_iff_forall_not_mem.2 fun e he => ?_
    obtain ⟨v, w, hv, -⟩ := (hD.arrows e.1 e.2).1 he
    rw [Drawing.vertices, hboxes] at hv
    cases hv
  rw [← hD.title, ← hboxes, ← harrows]

/-- The boxes of a drawing make its text longer. -/
lemma text_ne_of_node {d : Declaration} (hd : d ∈ a.graph.nodes.toList) :
    D.text ≠ Drawing.text ⟨a.projectName, [], []⟩ := by
  have hfile := hD.mem_files_iff.2 ⟨d.key, ⟨d, hd, rfl⟩, rfl⟩
  have hne : D.boxes ≠ [] := by
    intro hboxes
    rw [hboxes] at hfile
    cases hfile
  obtain ⟨B, rest, hboxes⟩ := List.exists_cons_of_ne_nil hne
  intro heq
  have hlength := congrArg String.length heq
  simp only [Drawing.text, Drawing.lines, hboxes, hD.title, Box.linesFrom, Box.lines,
    String.length_join, List.map_append, List.map_cons, List.sum_append, List.sum_cons,
    String.length_append, List.map_nil, List.sum_nil] at hlength
  have hnewline : "\n".length = 1 := by decide
  omega

lemma number_of_getElem? {i : Nat} {v : Vertex} (h : D.vertices[i]? = some v) : v.number = i := by
  have hnumber : (D.vertices.map Vertex.number)[i]? = some v.number := by
    rw [List.getElem?_map, h]
    rfl
  rw [hD.numbers] at hnumber
  simpa using (List.getElem?_eq_some_iff.1 hnumber).2.symm

end One

section Two

variable (hD : Depicts style a D) (hE : Depicts style b E) (h : Alike a b)

include hD hE h

/-- The vertices of the two drawings have the same keys, in the same order. -/
lemma keys_eq : D.vertices.map Vertex.key = E.vertices.map Vertex.key := by
  refine hD.strict_keys.eq_of_mem_iff hE.strict_keys fun k => ?_
  rw [hD.mem_keys_iff, hE.mem_keys_iff, h.nodes]

lemma files_eq :
    D.boxes.map (fun B => B.file.components) = E.boxes.map fun B => B.file.components := by
  have hstrict : ∀ {F : Drawing}, Strict Path.compare (F.boxes.map Box.file) →
      Strict Path.compareComponents (F.boxes.map fun B => B.file.components) := by
    intro F hF
    exact List.pairwise_map.2 (List.pairwise_map.1 hF)
  refine (hstrict hD.files).eq_of_mem_iff (hstrict hE.files) fun file => ?_
  rw [hD.mem_files_iff, hE.mem_files_iff]
  exact exists_congr fun k => and_congr_left fun _ => h.nodes k

/-- Vertices with the same key have the same number. -/
lemma number_eq {v w : Vertex} (hv : v ∈ D.vertices) (hw : w ∈ E.vertices) (hkey : v.key = w.key) :
    v.number = w.number := by
  obtain ⟨i, hi⟩ := List.mem_iff_getElem?.1 hv
  obtain ⟨j, hj⟩ := List.mem_iff_getElem?.1 hw
  have hki : (D.vertices.map Vertex.key)[i]? = some v.key := by simp [hi]
  have hkj : (D.vertices.map Vertex.key)[j]? = some v.key := by
    simp [hD.keys_eq hE h, hj, hkey]
  have hij : i = j := (List.getElem?_inj (List.getElem?_eq_some_iff.1 hki).1
    hD.strict_keys.nodup).1 (hki.trans hkj.symm)
  rw [hD.number_of_getElem? hi, hE.number_of_getElem? hj, hij]

/-- Boxes of one file have the same label. -/
lemma label_eq {B C : Box} (hB : B ∈ D.boxes) (hC : C ∈ E.boxes)
    (hfile : B.file.components = C.file.components) : B.label = C.label := by
  obtain ⟨d, hd, hdB⟩ := (hD.boxes B hB).file
  obtain ⟨e, he, heC⟩ := (hE.boxes C hC).file
  have hsame : B.file = C.file := by
    rw [← hdB, ← heC] at hfile ⊢
    exact h.spelling d hd e he hfile
  obtain ⟨p, hp, hpB⟩ := (hD.boxes B hB).label
  obtain ⟨q, hq, hqC⟩ := (hE.boxes C hC).label
  rw [hsame, h.root, hq] at hp
  cases hp
  rw [hpB, hqC]

/-- Vertices with the same key are written alike. -/
lemma line_eq {B C : Box} (hB : B ∈ D.boxes) (hC : C ∈ E.boxes)
    (hfile : B.file.components = C.file.components) {v w : Vertex} (hv : v ∈ B.vertices)
    (hw : w ∈ C.vertices) (hkey : v.key = w.key) : v.line = w.line := by
  have hshow := (hD.boxes B hB).vertices v hv
  have hshow' := (hE.boxes C hC).vertices w hw
  have hnumber := hD.number_eq hE h (mem_vertices hB hv) (mem_vertices hC hw) hkey
  have hname : v.declaration.name = w.declaration.name := congrArg Declaration.Key.name hkey
  have hlabel : v.label = w.label := by
    rw [hshow.label, hshow'.label, hD.label_eq hE h hB hC hfile, Declaration.isFileRoot,
      Declaration.isFileRoot, hname]
  have hgreen : v.colour = .green ↔ w.colour = .green := by
    rw [hshow.green_iff, hshow'.green_iff, hkey, h.entrypoints]
  have hred : v.colour = .red ↔ w.colour = .red := by
    rw [hshow.red_iff, hshow'.red_iff, hkey, h.entrypoints, h.unreachable]
  have hcolour : v.colour = w.colour := by
    cases hv : v.colour <;> cases hw : w.colour <;> simp_all
  rw [Vertex.line, Vertex.line, hnumber, hlabel, hcolour]

lemma view_eq {B C : Box} (hB : B ∈ D.boxes) (hC : C ∈ E.boxes)
    (hfile : B.file.components = C.file.components) : B.view = C.view := by
  have hkeys : B.vertices.map Vertex.key = C.vertices.map Vertex.key := by
    refine (hD.strict_keys_of_box hB).eq_of_mem_iff (hE.strict_keys_of_box hC) fun k => ?_
    rw [hD.mem_keys_of_box_iff hB, hE.mem_keys_of_box_iff hC, h.nodes, hfile]
  have hlines : B.vertices.map Vertex.line = C.vertices.map Vertex.line :=
    map_eq_of_map_eq hkeys fun v hv w hw => hD.line_eq hE h hB hC hfile hv hw
  rw [Box.view, Box.view, hlines, hD.label_eq hE h hB hC hfile]

lemma mem_arrows {i j : Nat} (hij : (i, j) ∈ D.arrows) : (i, j) ∈ E.arrows := by
  obtain ⟨v, w, hv, hw, hedge⟩ := (hD.arrows i j).1 hij
  have hother : ∀ {i : Nat} {v : Vertex}, D.vertices[i]? = some v →
      ∃ v', E.vertices[i]? = some v' ∧ v.key = v'.key := by
    intro i v hv
    have hkey : (E.vertices.map Vertex.key)[i]? = some v.key := by
      simp [← hD.keys_eq hE h, hv]
    rw [List.getElem?_map, Option.map_eq_some_iff] at hkey
    obtain ⟨v', hv', hkey⟩ := hkey
    exact ⟨v', hv', hkey.symm⟩
  obtain ⟨v', hv', hvkey⟩ := hother hv
  obtain ⟨w', hw', hwkey⟩ := hother hw
  refine (hE.arrows i j).2 ⟨v', w', hv', hw', ?_⟩
  rw [← h.edges, ← a.graph.containsEdge_congr hvkey hwkey]
  exact hedge

end Two

end Depicts

lemma Alike.symm {a b : Analysis} (h : Alike a b) : Alike b a where
  root := h.root.symm
  entrypoints k := (h.entrypoints k).symm
  unreachable k := (h.unreachable k).symm
  nodes k := (h.nodes k).symm
  edges d e := (h.edges d e).symm
  spelling d hd e he hfile := (h.spelling e he d hd hfile.symm).symm

/-- Analyses with the same content are drawn alike. -/
lemma Depicts.text_eq {style : Style} {a b : Analysis} {D E : Drawing} (hD : Depicts style a D)
    (hE : Depicts style b E) (h : Alike a b) : D.text = E.text := by
  have htitle : D.title = E.title := by
    rw [hD.title, hE.title, Analysis.projectName, Analysis.projectName, h.root]
  have hboxes : D.boxes.map Box.view = E.boxes.map Box.view :=
    map_eq_of_map_eq (hD.files_eq hE h) fun B hB C hC => hD.view_eq hE h hB hC
  have harrows : D.arrows = E.arrows :=
    hD.increasing.eq_of_mem_iff hE.increasing fun _ =>
      ⟨hD.mem_arrows hE h, hE.mem_arrows hD h.symm⟩
  rw [Drawing.text, Drawing.text, Drawing.lines, Drawing.lines, htitle,
    Box.linesFrom_congr hboxes, harrows]

end Report.Dot

end GoReach
