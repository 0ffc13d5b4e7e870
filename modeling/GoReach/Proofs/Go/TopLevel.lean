import GoReach.Proofs.Go.Extraction

/-!
# What a file declares

The declarations of a file are those of the nodes at the top level of its tree that introduce names
(`topLevel`): functions, methods, and the specifications right below a type, variable or constant
declaration.

Reading a file keeps a record of these nodes.  At any time every declaration was introduced by a
node on record, and every name that a node on record introduces is declared, unless it is the name
of what is not to be used (`Collects`).  One addition puts one node on record
(`collects_addDeclarations`), a child of the root those that it holds (`collects_addTopLevel`), and
the whole tree all of them (`collects_ofTree`).
-/

namespace GoReach.Go.SourceFile

open GoReach.Syntax (Node)

/-- The nodes in a child of the root that introduce names at the top level. -/
def introducing (n : Node) : List Node :=
  match n.kind with
  | "function_declaration" => [n]
  | "method_declaration" => [n]
  | "type_declaration" => specs n "type_spec" ++ specs n "type_alias"
  | "var_declaration" => specs n "var_spec"
  | "const_declaration" => specs n "const_spec"
  | _ => []

/-- The nodes that introduce names at the top level. -/
def topLevel (tree : Node) : List Node := tree.namedChildren.flatMap introducing

/-- The node introduces the name, for something of the given kind that can be used. -/
def Introduces (n : Node) (kind : Declaration.Kind) (name : String) : Prop :=
  ∃ names, declaredNames n = .ok (some (kind, names)) ∧ name ∈ names ∧ name ≠ discard

/-- The declarations are those that the nodes introduce. -/
structure Collects (nodes : List Node) (ds : List Declaration) : Prop where
  exists_node : ∀ d ∈ ds, ∃ n ∈ nodes, Introduces n d.kind d.name ∧ d.span = some (spanOf n)
  exists_declaration : ∀ n ∈ nodes, ∀ kind name, Introduces n kind name → ∃ d ∈ ds, d.name = name

/-- Specs are of the kind that is asked for. -/
lemma kind_of_mem_specs {n m : Node} {kind : String} (hm : m ∈ specs n kind) : m.kind = kind := by
  obtain ⟨c, -, hm⟩ := List.mem_flatMap.1 hm
  split at hm
  next hkind =>
    rw [List.mem_singleton.1 hm]
    exact beq_iff_eq.1 hkind
  next =>
    split at hm
    · exact beq_iff_eq.1 (List.mem_filter.1 hm).2
    · cases hm

/-- Specs of a node of a tree are nodes of the tree, whether they stand in a list or not. -/
lemma mem_nodes_of_mem_specs {t n m : Node} {kind : String} (hn : n ∈ t.nodes)
    (hm : m ∈ specs n kind) : m ∈ t.nodes := by
  obtain ⟨c, hc, hm⟩ := List.mem_flatMap.1 hm
  have hcnode : c ∈ t.nodes := Node.mem_nodes_of_mem_children hn (List.mem_filter.1 hc).1
  split at hm
  · rw [List.mem_singleton.1 hm]
    exact hcnode
  · split at hm
    · have hnamed := (List.mem_filter.1 hm).1
      exact Node.mem_nodes_of_mem_children hcnode (List.mem_filter.1 hnamed).1
    · cases hm

/-- What is declared at the top level is somewhere in the tree. -/
lemma mem_nodes_of_mem_topLevel {t n : Node} (hn : n ∈ topLevel t) : n ∈ t.nodes := by
  obtain ⟨c, hc, hn⟩ := List.mem_flatMap.1 hn
  have hcnode : c ∈ t.nodes :=
    Node.mem_nodes_of_mem_children (Node.mem_nodes_self t) (List.mem_filter.1 hc).1
  rw [introducing] at hn
  split at hn
  · exact List.mem_singleton.1 hn ▸ hcnode
  · exact List.mem_singleton.1 hn ▸ hcnode
  · rcases List.mem_append.1 hn with hn | hn
    · exact mem_nodes_of_mem_specs hcnode hn
    · exact mem_nodes_of_mem_specs hcnode hn
  · exact mem_nodes_of_mem_specs hcnode hn
  · exact mem_nodes_of_mem_specs hcnode hn
  · cases hn

/-! ## One addition after another -/

/-- A name that is put into a table or was there is there. -/
lemma exists_name_foldl_put {new ds : List Declaration} {x : Declaration} (h : x ∈ new ∨ x ∈ ds) :
    ∃ y ∈ new.foldl (fun ds d => Sorted.put compareNames d ds) ds, y.name = x.name := by
  induction new generalizing ds x with
  | nil => exact ⟨x, h.resolve_left List.not_mem_nil, rfl⟩
  | cons d new ih =>
      have hput : ∀ {z}, z = d ∨ z ∈ ds → ∃ y ∈ Sorted.put compareNames d ds, y.name = z.name := by
        rintro z (rfl | hz)
        · exact ⟨z, Sorted.mem_put_self z ds, rfl⟩
        · have hkept : ∃ y ∈ Sorted.put compareNames d ds, compareNames z y = .eq :=
            Sorted.exists_mem_put hz
          obtain ⟨y, hy, hzy⟩ := hkept
          exact ⟨y, hy, (compareNames_eq_iff.1 hzy).symm⟩
      rw [List.mem_cons, or_assoc, or_left_comm] at h
      rcases h with hnew | hold
      · exact ih (Or.inl hnew)
      · obtain ⟨y, hy, hyname⟩ := hput hold
        obtain ⟨z, hz, hzname⟩ := ih (Or.inr hy)
        exact ⟨z, hz, hzname.trans hyname⟩

/-- One node more: its names are put in, and what had these names goes. -/
lemma collects_addDeclarations {nodes : List Node} {f f' : SourceFile} {n : Node}
    (h : Collects nodes f.declarations) (hadd : f.addDeclarations n = .ok f') :
    Collects (nodes ++ [n]) f'.declarations := by
  obtain ⟨declared, hdeclared, hf'⟩ := map_eq_ok_iff.1 hadd
  cases declared with
  | none =>
      subst hf'
      refine ⟨fun d hd => ?_, fun m hm kind name hintro => ?_⟩
      · obtain ⟨m, hm, hintro⟩ := h.exists_node d hd
        exact ⟨m, List.mem_append_left [n] hm, hintro⟩
      · rcases List.mem_append.1 hm with hm | hm
        · exact h.exists_declaration m hm kind name hintro
        · obtain ⟨names, hnames, -⟩ := hintro
          rw [List.mem_singleton.1 hm, hdeclared] at hnames
          cases hnames
  | some declared =>
      obtain ⟨kind, names⟩ := declared
      subst hf'
      refine ⟨fun d hd => ?_, fun m hm k name hintro => ?_⟩
      · rcases mem_of_mem_foldl_put hd with hd | hd
        · obtain ⟨name, hname, rfl⟩ := List.mem_map.1 hd
          obtain ⟨hname, hused⟩ := List.mem_filter.1 hname
          exact ⟨n, List.mem_append_right nodes (List.mem_singleton_self n),
            ⟨names, hdeclared, hname, by simpa using hused⟩, rfl⟩
        · obtain ⟨m, hm, hintro⟩ := h.exists_node d hd
          exact ⟨m, List.mem_append_left [n] hm, hintro⟩
      · rcases List.mem_append.1 hm with hm | hm
        · obtain ⟨d, hd, rfl⟩ := h.exists_declaration m hm k name hintro
          exact exists_name_foldl_put (Or.inr hd)
        · obtain ⟨names', hnames', hname, hused⟩ := hintro
          rw [List.mem_singleton.1 hm, hdeclared] at hnames'
          obtain ⟨rfl, rfl⟩ := Prod.mk.inj (Option.some.inj (Except.ok.inj hnames'))
          refine exists_name_foldl_put (x := ⟨f.path, name, kind, some (spanOf n)⟩) (Or.inl ?_)
          exact List.mem_map.2 ⟨name, List.mem_filter.2 ⟨hname, by simpa using hused⟩, rfl⟩

/-- A child of the root adds the declarations of the nodes that it holds, or none. -/
lemma foldlM_introducing {f f' : SourceFile} {n : Node} (hadd : f.addTopLevel n = .ok f') :
    (introducing n).foldlM addDeclarations f = .ok f' ∨
      introducing n = [] ∧ f'.declarations = f.declarations := by
  rw [addTopLevel] at hadd
  split at hadd
  next hkind =>
    refine Or.inr ⟨by simp [introducing, hkind], ?_⟩
    rw [← Except.ok.inj hadd]
    split <;> rfl
  next hkind =>
    refine Or.inr ⟨by simp [introducing, hkind], ?_⟩
    refine foldlM_invariant (P := fun g => g.declarations = f.declarations) ?_ rfl hadd
    intro g spec g' hg hg'
    obtain ⟨path, -, rfl⟩ := map_eq_ok_iff.1 hg'
    exact hg
  next hkind =>
    left
    simpa [introducing, hkind] using hadd
  next hkind =>
    left
    simpa [introducing, hkind] using hadd
  next hkind =>
    left
    simpa only [introducing, hkind] using hadd
  next hkind =>
    left
    simpa only [introducing, hkind] using hadd
  next hkind =>
    left
    simpa only [introducing, hkind] using hadd
  next =>
    refine Or.inr ⟨?_, congrArg declarations (Except.ok.inj hadd).symm⟩
    rw [introducing]
    split <;> first | contradiction | rfl

/-- The same for all nodes of a child of the root that introduce names. -/
lemma collects_addTopLevel {nodes : List Node} {f f' : SourceFile} {n : Node}
    (h : Collects nodes f.declarations) (hadd : f.addTopLevel n = .ok f') :
    Collects (nodes ++ introducing n) f'.declarations := by
  rcases foldlM_introducing hadd with hfold | ⟨hnone, hsame⟩
  · have hrecord := foldlM_record (R := fun done g => Collects done g.declarations)
      (fun done g n g' => collects_addDeclarations) h hfold
    rwa [List.flatMap_singleton'] at hrecord
  · rw [hnone, List.append_nil, hsame]
    exact h

/-- A file collects what its top level introduces. -/
lemma collects_ofTree {path : Path} {tree : Node} {f : SourceFile}
    (h : ofTree path tree = .ok f) : Collects (topLevel tree) f.declarations := by
  have hempty : Collects [] ([] : List Declaration) :=
    ⟨fun _ hd => absurd hd List.not_mem_nil, fun _ hn => absurd hn List.not_mem_nil⟩
  exact foldlM_record (R := fun done g => Collects done g.declarations)
    (fun done g n g' => collects_addTopLevel) hempty h

lemma Parsed.collects {f : SourceFile} (h : f.Parsed) : Collects (topLevel f.tree) f.declarations :=
  collects_ofTree h.ofTree_eq

end GoReach.Go.SourceFile
