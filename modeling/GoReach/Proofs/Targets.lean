import GoReach.Proofs.Collisions
import GoReach.Proofs.Comparison
import GoReach.Proofs.Disk.Search
import GoReach.Proofs.Go.Names
import GoReach.Proofs.Go.Placement

/-!
# What can be referred to

Whatever something refers to *wins*: it is the declaration that its own name finds in its own module
(`NameTable.Wins`).  A reference looks for a name and takes what the table has there, so a
declaration that lost its name to a later file is not referred to by anything; nor is a method,
because no reference looks for a name like that of a method.  `Scope.wins_of_resolve` says so of
resolved references, and `Analysis.TargetsWin` of the edges of a graph.

What nothing refers to is reached by nothing but itself.  So methods are always reported as
unreachable, and so are the declarations that lost their names, unless they are entrypoints.
-/

namespace GoReach

open GoReach.Go (SourceFile WellNamed)

/-! ## Winners -/

namespace NameTable

/-- The declaration is the one that its name finds in its own module. -/
def Wins (t : NameTable) (root : Path) (rootModule : String) (d : Declaration) : Prop :=
  ∃ module, Module.ofFile root rootModule d.file = .ok module ∧ t.lookup module d.name = some d

variable {root : Path} {rootModule : String} {files : List SourceFile} {t : NameTable}
  (htidy : ∀ f ∈ files, f.Tidy) (ht : ofFiles root rootModule files = .ok t)

include htidy ht

/-- What is found wins. -/
lemma wins_of_lookup {module name : String} {d : Declaration}
    (h : t.lookup module name = some d) : t.Wins root rootModule d ∧ d.name = name := by
  obtain ⟨hmodule, rfl⟩ := ofFile_of_lookup htidy ht h
  exact ⟨⟨module, hmodule, h⟩, rfl⟩

/-- A declaration loses its name to a later file of its module. -/
lemma not_wins_of_sublist (hpaths : files.Pairwise fun f g => ¬ f.path.same g.path)
    {f g : SourceFile} (hfg : [f, g].Sublist files) {module : String}
    (hf : Module.ofFile root rootModule f.path = .ok module)
    (hg : Module.ofFile root rootModule g.path = .ok module) {d e : Declaration}
    (hd : d ∈ f.declarations) (he : e ∈ g.declarations) (hname : e.name = d.name) :
    ¬ t.Wins root rootModule d := by
  have hftidy : f.Tidy := htidy f (hfg.subset List.mem_cons_self)
  have hgtidy : g.Tidy := htidy g (hfg.subset (List.mem_cons_of_mem f List.mem_cons_self))
  -- The two declarations come in this order among those of the name.
  have hde : [d, e].Sublist (declarationsOf root rootModule files module d.name) := by
    have hfd : f.declaration? d.name = some d := hftidy.declaration?_eq_some_iff.2 ⟨hd, rfl⟩
    have hge : g.declaration? d.name = some e := hgtidy.declaration?_eq_some_iff.2 ⟨he, hname⟩
    have hsub := (hfg.filter (Module.holds root rootModule module)).filterMap
      fun f => f.declaration? d.name
    rw [declarationsOf]
    simpa [Module.holds_iff.2 hf, Module.holds_iff.2 hg, hfd, hge] using hsub
  have hdistinct : (declarationsOf root rootModule files module d.name).Pairwise _ :=
    declarationsOf_distinct htidy hpaths module d.name
  rintro ⟨m, hm, hlookup⟩
  rw [hftidy.file_eq d hd, hf] at hm
  obtain rfl := Except.ok.inj hm
  rw [lookup_ofFiles htidy ht] at hlookup
  -- If the first of them were the last of all, it would be there twice.
  obtain ⟨before, hbefore⟩ := List.getLast?_eq_some_iff.1 hlookup
  rw [hbefore] at hde hdistinct
  have htwice : d ∈ before := by
    obtain ⟨l₁, l₂, heq, hl₁, hl₂⟩ := List.sublist_append_iff.1 hde
    cases l₁ with
    | nil =>
        have hlength := hl₂.length_le
        rw [← List.nil_append l₂, ← heq] at hlength
        simp at hlength
    | cons x l₁ =>
        obtain ⟨rfl, -⟩ := List.cons.inj heq
        exact hl₁.subset List.mem_cons_self
  exact (List.pairwise_append.1 hdistinct).2.2 d htwice d (List.mem_singleton_self d)
    (Declaration.same_iff.2 rfl)

end NameTable

/-! ## References -/

namespace Scope

/-- What a shape refers to was looked up by the name that it looks for. -/
lemma exists_lookup_of_target? {s : Scope} {module : String} {f : SourceFile} {shape : Go.Shape}
    {d : Declaration} (h : s.target? module f shape = some d) :
    ∃ m, s.table.lookup m shape.sought = some d := by
  cases shape with
  | name name => exact ⟨module, h⟩
  | member object name =>
      rw [target?] at h
      split at h
      · cases h
      · obtain ⟨i, -, hd⟩ := Option.bind_eq_some_iff.1 h
        exact ⟨i.path, hd⟩

/-- What is referred to wins, and has no colon in its name. -/
lemma wins_of_resolve {root : Path} {rootModule : String} {files : List SourceFile} {t : NameTable}
    (hparsed : ∀ f ∈ files, f.Parsed) (ht : NameTable.ofFiles root rootModule files = .ok t)
    {f : SourceFile} (hf : f ∈ files) (hnamed : WellNamed f.tree) {refs : List Reference}
    (h : resolve ⟨root, rootModule, t⟩ f = .ok refs) {r : Reference} (hr : r ∈ refs) :
    t.Wins root rootModule r.target ∧ ':' ∉ r.target.name.toList := by
  obtain ⟨module, hmodule, -⟩ := resolve_eq_ok_iff.1 h
  rw [eq_flatMap_of_resolve (s := ⟨root, rootModule, t⟩) (hparsed f hf).distinctIds hmodule h] at hr
  obtain ⟨v, hv, hr⟩ := List.mem_flatMap.1 hr
  obtain ⟨-, -, shape, hshape, htarget⟩ := mem_referencesAt hr
  obtain ⟨m, hlookup⟩ := exists_lookup_of_target? htarget
  obtain ⟨hwins, hname⟩ :=
    NameTable.wins_of_lookup (fun g hg => (hparsed g hg).tidy) ht hlookup
  have hnode : v.2 ∈ f.tree.nodes := List.mem_map_of_mem hv
  rw [hname]
  exact ⟨hwins, hnamed.no_colon_of_shape? hnode hshape⟩

end Scope

/-! ## Edges -/

namespace Go.SourceFile

/-- Every declaration was introduced by a node of the tree. -/
lemma Parsed.exists_introduces {f : SourceFile} (h : f.Parsed) {d : Declaration}
    (hd : d ∈ f.declarations) : ∃ n ∈ f.tree.nodes, Introduces n d.kind d.name := by
  obtain ⟨n, hn, hintro, -⟩ := h.collects.exists_node d hd
  exact ⟨n, mem_nodes_of_mem_topLevel hn, hintro⟩

/-- In a well-named tree no declaration has the empty name. -/
lemma Parsed.name_ne_empty {f : SourceFile} (h : f.Parsed) (hnamed : WellNamed f.tree)
    {d : Declaration} (hd : d ∈ f.declarations) : d.name ≠ "" := by
  obtain ⟨n, hn, hintro⟩ := h.exists_introduces hd
  exact hnamed.ne_empty_of_introduces hn hintro

end Go.SourceFile

namespace Analysis

/-- Only winners are referred to, and what is no winner is unreachable. -/
structure TargetsWin (a : Analysis) (files : List SourceFile) : Prop where
  /-- The target of an edge is what its name finds in its module. -/
  wins : ∀ e ∈ a.graph.edgeList, a.table.Wins a.root a.rootModule e.2
  not_fileRoot : ∀ e ∈ a.graph.edgeList, e.2.isFileRoot = false ∧ e.2.kind ≠ .fileRoot
  not_method : ∀ e ∈ a.graph.edgeList, e.2.kind ≠ .method
  method_unreachable : ∀ f ∈ files, ∀ d ∈ f.declarations, d.kind = .method → d ∈ a.unreachable
  /-- What a later file of the same module declares again is unreachable, unless it is an
  entrypoint. -/
  overridden_unreachable : ∀ f g module, [f, g].Sublist files →
    Module.ofFile a.root a.rootModule f.path = .ok module →
    Module.ofFile a.root a.rootModule g.path = .ok module →
    ∀ d ∈ f.declarations, ∀ e ∈ g.declarations, e.name = d.name →
      (∀ x ∈ a.entrypoints, ¬ x.same d) → d ∈ a.unreachable

namespace Assembled

variable {a : Analysis} {files : List SourceFile} {references : List Reference}
  (h : a.Assembled files references)
  (hpaths : files.Pairwise fun f g => ¬ f.path.same g.path)
  (hnamed : ∀ f ∈ files, WellNamed f.tree)

include h hnamed

lemma name_ne_empty : ∀ f ∈ files, ∀ d ∈ f.declarations, d.name ≠ "" :=
  fun f hf _ hd => (h.parsed f hf).name_ne_empty (hnamed f hf) hd

include hpaths

/-- What is known is told apart by its key. -/
lemma eq_of_key {d e : Declaration} (hd : a.Known files d) (he : a.Known files e)
    (hkey : d.key = e.key) : d = e :=
  Analysis.eq_of_key h.parsed hpaths (h.name_ne_empty hnamed) hd he hkey

/-- The target of an edge is the target of a reference. -/
lemma exists_resolves_of_mem_edgeList {e : Declaration × Declaration}
    (he : e ∈ a.graph.edgeList) :
    ∃ f ∈ files, ∃ r, a.Resolves f r ∧ r.target = e.2 := by
  have hedge : a.graph.containsEdge e.1 e.2 = true :=
    h.consistent.containsEdge_iff.2 ⟨e, he, rfl, rfl⟩
  obtain ⟨f, hf, r, hr, -, hsame⟩ := (h.containsEdge_iff e.1 e.2).1 hedge
  obtain ⟨-, htarget, -⟩ := h.spec_of_resolves hf hr
  have hnode := h.mem_nodes (ReferenceGraph.mem_nodes_of_mem_edgeList he).2
  exact ⟨f, hf, r, hr,
    h.eq_of_key hpaths hnamed (Or.inl htarget) hnode (Declaration.same_iff.1 hsame)⟩

/-- What is declared is a node. -/
lemma mem_nodes_of_extracted {d : Declaration} (hd : Extracted files d) :
    d ∈ a.graph.nodes.toList := by
  have hcontains : a.graph.containsNode d = true :=
    (h.containsNode_iff d).2 ⟨d, Or.inl hd, Declaration.same_iff.2 rfl⟩
  obtain ⟨n, hn, hkey⟩ := h.consistent.containsNode_iff.1 hcontains
  exact h.eq_of_key hpaths hnamed (h.mem_nodes hn) (Or.inl hd) hkey ▸ hn

/-- An edge leads to a winner, which is no method. -/
lemma wins_of_mem_edgeList {e : Declaration × Declaration} (he : e ∈ a.graph.edgeList) :
    a.table.Wins a.root a.rootModule e.2 ∧ ':' ∉ e.2.name.toList ∧ Extracted files e.2 := by
  obtain ⟨f, hf, r, hr, heq⟩ := h.exists_resolves_of_mem_edgeList hpaths hnamed he
  obtain ⟨-, hextracted, -⟩ := h.spec_of_resolves hf hr
  obtain ⟨refs, hrefs, hmem⟩ := hr
  obtain ⟨hwins, hcolon⟩ := Scope.wins_of_resolve h.parsed h.table_eq hf (hnamed f hf) hrefs hmem
  exact heq ▸ ⟨hwins, hcolon, hextracted⟩

/-- A method is not referred to, because its name has a colon in it. -/
lemma kind_of_mem_edgeList {e : Declaration × Declaration} (he : e ∈ a.graph.edgeList) :
    e.2.kind ≠ .method ∧ e.2.kind ≠ .fileRoot := by
  obtain ⟨-, hcolon, f, hf, hd⟩ := h.wins_of_mem_edgeList hpaths hnamed he
  obtain ⟨n, -, hintro⟩ := (h.parsed f hf).exists_introduces hd
  refine ⟨fun hmethod => ?_, Go.kind_ne_fileRoot_of_introduces hintro⟩
  rw [hmethod] at hintro
  exact hcolon (Go.colon_of_introduces hintro)

/-- A method is not an entrypoint. -/
lemma not_entrypoint_of_method {d : Declaration} (hd : Extracted files d)
    (hmethod : d.kind = .method) : ∀ x ∈ a.entrypoints, ¬ x.same d := by
  intro x hx hsame
  have hkey := Declaration.same_iff.1 hsame
  rcases h.mem_entrypoints (h.name_ne_empty hnamed) hx with ⟨g, hg, hxg, hentry⟩ | hroot
  · obtain rfl := h.eq_of_key hpaths hnamed (Or.inl ⟨g, hg, hxg⟩) (Or.inl hd) hkey
    rw [Declaration.isEntrypoint, hmethod] at hentry
    cases hentry
  · obtain rfl := h.eq_of_key hpaths hnamed (Or.inr hroot) (Or.inl hd) hkey
    obtain ⟨g, -, rfl, -⟩ := hroot
    cases hmethod

/-- An assembled analysis has edges to winners only. -/
lemma targetsWin : a.TargetsWin files where
  wins e he := (h.wins_of_mem_edgeList hpaths hnamed he).1
  not_fileRoot e he := by
    obtain ⟨-, -, f, hf, hd⟩ := h.wins_of_mem_edgeList hpaths hnamed he
    refine ⟨?_, (h.kind_of_mem_edgeList hpaths hnamed he).2⟩
    rw [Declaration.isFileRoot, Bool.eq_false_iff]
    exact fun hempty => h.name_ne_empty hnamed f hf e.2 hd (String.isEmpty_iff.1 hempty)
  not_method e he := (h.kind_of_mem_edgeList hpaths hnamed he).1
  method_unreachable f hf d hd hmethod := by
    have hextracted : Extracted files d := ⟨f, hf, hd⟩
    refine h.mem_unreachable_of_no_edge (h.mem_nodes_of_extracted hpaths hnamed hextracted)
      (fun e he heq => ?_) (h.not_entrypoint_of_method hpaths hnamed hextracted hmethod)
    exact (h.kind_of_mem_edgeList hpaths hnamed he).1 (heq ▸ hmethod)
  overridden_unreachable f g module hfg hf hg d hd e he hname hentry := by
    have hlost : ¬ a.table.Wins a.root a.rootModule d :=
      NameTable.not_wins_of_sublist (fun f hf => (h.parsed f hf).tidy) h.table_eq hpaths hfg hf hg
        hd he hname
    have hextracted : Extracted files d := ⟨f, hfg.subset List.mem_cons_self, hd⟩
    refine h.mem_unreachable_of_no_edge (h.mem_nodes_of_extracted hpaths hnamed hextracted)
      (fun e he heq => hlost ?_) hentry
    exact heq ▸ (h.wins_of_mem_edgeList hpaths hnamed he).1

end Assembled

/-- **Only winners are referred to.**  Of files with different paths, every edge of the graph leads
to a declaration that wins its name, and to no file root and no method.  So methods are unreachable,
and so is what lost its name to a later file, unless it is an entrypoint.  The files of a project on
a disk do have different paths. -/
theorem edges_lead_to_winners :
    (∀ {root : Path} {rootModule : String} {files : List SourceFile} {a : Analysis},
      (∀ f ∈ files, f.Parsed) → files.Pairwise (fun f g => ¬ f.path.same g.path) →
      (∀ f ∈ files, WellNamed f.tree) → ofFiles root rootModule files = .ok a →
        a.TargetsWin files) ∧
    ∀ {parser : Go.Parser} {d : Disk} {o : SearchOptions} {path : Path} {a : Analysis},
      d.root.Proper → d.analyze parser o path = .ok a →
        ∃ paths files,
          d.search o a.root = .ok paths ∧ paths.mapM (d.readSource parser) = .ok files ∧
          ((∀ f ∈ files, WellNamed f.tree) → a.TargetsWin files) := by
  constructor
  · intro root rootModule files a hparsed hpaths hnamed h
    obtain ⟨references, hassembled⟩ := assembled_of_ofFiles hparsed h
    exact hassembled.targetsWin hpaths hnamed
  · intro parser d o path a hproper h
    obtain ⟨paths, files, hsearch, hread, hpaths, hparsed, h⟩ := Disk.exists_files_of_analyze h
    have hdistinct : files.Pairwise fun f g => ¬ f.path.same g.path :=
      List.pairwise_map.1 (hpaths ▸ Disk.distinct_search hproper hsearch)
    refine ⟨paths, files, hsearch, hread, fun hnamed => ?_⟩
    obtain ⟨references, hassembled⟩ := assembled_of_ofFiles hparsed h
    exact hassembled.targetsWin hdistinct hnamed

/-! ## A small project -/

namespace Sample

open Scope.Sample (root leaf function)

/-- Declares the method `T::m` and the function `f`. -/
def older : SourceFile where
  path := ⟨"/p/a.go"⟩
  declarations := [
    { file := ⟨"/p/a.go"⟩, name := "T::m", kind := .method, span := some ⟨1, 1, 1, 1⟩ },
    { file := ⟨"/p/a.go"⟩, name := "f", span := some ⟨1, 1, 1, 1⟩ }]
  tree := Syntax.Node.numberFrom 0 <| .node { kind := "source_file" }
    [.node { kind := "method_declaration" }
      [.node { kind := "parameter_list", field := some "receiver" }
        [.node { kind := "parameter_declaration" } [leaf "type_identifier" "type" "T"]],
       leaf "field_identifier" "name" "m"],
     function "f" []]

/-- Declares `f` again, and `g`, which calls it. -/
def newer : SourceFile where
  path := ⟨"/p/b.go"⟩
  declarations := ["f", "g"].map fun name =>
    { file := ⟨"/p/b.go"⟩, name, span := some ⟨1, 1, 1, 1⟩ }
  tree := Syntax.Node.numberFrom 0 <| .node { kind := "source_file" }
    [function "f" [], function "g" [leaf "identifier" "function" "f"]]

lemma parsed : ∀ f ∈ [older, newer], f.Parsed := by
  simp only [List.forall_mem_cons]
  exact ⟨⟨by cbv, Syntax.Node.distinctIds_numberFrom 0 _⟩,
    ⟨rfl, Syntax.Node.distinctIds_numberFrom 0 _⟩, fun _ h => nomatch h⟩

lemma placed : ∀ f ∈ [older, newer], Go.Placed f.tree := by decide

lemma wellNamed : ∀ f ∈ [older, newer], WellNamed f.tree := by decide

/-- The two files on a disk, each with its own path for a text. -/
def stored : List (String × Disk.Entry) :=
  [("a.go", .file "/p/a.go".toUTF8), ("b.go", .file "/p/b.go".toUTF8)]

/-- The two files are read, whatever else is in the directory. -/
lemma read_stored (more : List (String × Disk.Entry)) : ∀ f ∈ [older, newer],
    (Disk.Sample.project (stored ++ more)).readSource (.knowing [older, newer]) f.path = .ok f :=
  Disk.readSource_knowing [["p", "a.go"], ["p", "b.go"]] parsed rfl (by decide) (by decide)
    (by decide) rfl

lemma stores : (Disk.Sample.project stored).Stores (.knowing [older, newer]) {} ⟨"/p"⟩ "m"
    [older, newer] where
  toFinds := Disk.Sample.finds_project (by simp +decide [stored, Disk.filesBelow]) (by decide)
  read := read_stored []

end Sample

/-- The method is unreachable, and so is the function that is declared again: the call refers to the
later one. -/
theorem edges_lead_to_winners_sample :
    ∃ a, ofFiles Scope.Sample.root "m" [Sample.older, Sample.newer] = .ok a ∧
      (Disk.Sample.project Sample.stored).analyze (.knowing [Sample.older, Sample.newer]) {} ⟨"/p"⟩
        = .ok a ∧
      a.TargetsWin [Sample.older, Sample.newer] ∧
      ∀ d ∈ Sample.older.declarations, d ∈ a.unreachable := by
  have hbelow : ∀ f ∈ [Sample.older, Sample.newer],
      Scope.Sample.root.components <+: f.path.components := by decide
  obtain ⟨a, ha⟩ := exists_ofFiles "m" Sample.parsed hbelow
    fun f hf => (Sample.placed f hf).methodsAtTop
  have hanalyze := Sample.stores.analyze_eq.trans ha
  have hwin : a.TargetsWin [Sample.older, Sample.newer] :=
    edges_lead_to_winners.1 Sample.parsed (by decide) Sample.wellNamed ha
  obtain ⟨paths, files, hsearch, hread, hstored⟩ := edges_lead_to_winners.2 (by decide) hanalyze
  obtain rfl := Sample.stores.files_eq hanalyze hsearch hread
  obtain ⟨references, hassembled⟩ := assembled_of_ofFiles Sample.parsed ha
  have hentry : ∀ x ∈ a.entrypoints, x.name = "" := by
    intro x hx
    rcases hassembled.mem_entrypoints (hassembled.name_ne_empty Sample.wellNamed) hx with
      ⟨f, hf, hd, hentry⟩ | ⟨f, hf, rfl, -⟩
    · have hnone : ∀ f ∈ [Sample.older, Sample.newer], ∀ d ∈ f.declarations,
          d.isEntrypoint f.package = false := by decide
      rw [hnone f hf x hd] at hentry
      cases hentry
    · rfl
  obtain ⟨t, ht, references, -, rfl⟩ := ofFiles_eq_ok_iff.1 ha
  refine ⟨_, ha, hanalyze, hstored Sample.wellNamed,
    List.forall_mem_cons.2 ⟨?_, List.forall_mem_singleton.2 ?_⟩⟩
  · exact hwin.method_unreachable Sample.older List.mem_cons_self _ List.mem_cons_self rfl
  · have holder : Module.ofFile Scope.Sample.root "m" Sample.older.path = .ok "m" := rfl
    have hnewer : Module.ofFile Scope.Sample.root "m" Sample.newer.path = .ok "m" := rfl
    refine hwin.overridden_unreachable Sample.older Sample.newer "m" (List.Sublist.refl _) holder
      hnewer _ (List.mem_cons_of_mem _ List.mem_cons_self) _ List.mem_cons_self rfl
      fun x hx hsame => ?_
    have hname := congrArg Declaration.Key.name (Declaration.same_iff.1 hsame)
    rw [Declaration.key, hentry x hx] at hname
    simp [Declaration.key] at hname

end Analysis

end GoReach
