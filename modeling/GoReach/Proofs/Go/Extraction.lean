import Mathlib.Data.String.Basic
import Mathlib.Order.MinMax
import GoReach.Proofs.Failure
import GoReach.Proofs.Order
import GoReach.Proofs.Sorted
import GoReach.Proofs.Syntax.Preorder

/-!
# What is read from a syntax tree

`SourceFile.Parsed` says that a file is what is read from its own tree, and that the nodes of the
tree can be told apart.  Every file that `SourceFile.ofText` gives is of that kind, whatever parser
it is read with (`parsed_of_ofText`).

Reading goes through the top level of the tree and adds one thing after another.  Each addition
keeps the declarations in strict order of their names and under the path of the file, and the
imports in strict order (`Tidy`); so a name finds its one declaration (`declaration?_eq_some_iff`)
and a qualifier the least path that goes by it (`import?_path_eq_min?`).

Nothing is read from a file in which the names of a top-level declaration cannot be made out.  If
methods are declared at the top level only, the names of all declarations of a parsed file can be
made out, wherever they stand (`Parsed.exists_declaredNames`).
-/

namespace GoReach.Go

open GoReach.Syntax (Node)

namespace SourceFile

/-- What a file that is being read looks like at any time. -/
structure Tidy (f : SourceFile) : Prop where
  names_strict : Sorted.Strict compareNames f.declarations
  file_eq : ∀ d ∈ f.declarations, d.file = f.path
  imports_strict : Sorted.Strict Import.compare f.imports

/-- A tidy file with the given path and tree. -/
structure ReadFrom (path : Path) (tree : Node) (f : SourceFile) : Prop where
  path_eq : f.path = path
  tree_eq : f.tree = tree
  tidy : f.Tidy

/-! ## One addition after another -/

/-- Declarations stay in order, whatever is put among them. -/
lemma strict_foldl_put (new ds : List Declaration) (h : Sorted.Strict compareNames ds) :
    Sorted.Strict compareNames (new.foldl (fun ds d => Sorted.put compareNames d ds) ds) := by
  induction new generalizing ds with
  | nil => exact h
  | cons d new ih => exact ih _ (Sorted.strict_put h)

lemma mem_of_mem_foldl_put {new ds : List Declaration} {x : Declaration}
    (h : x ∈ new.foldl (fun ds d => Sorted.put compareNames d ds) ds) : x ∈ new ∨ x ∈ ds := by
  induction new generalizing ds with
  | nil => exact Or.inr h
  | cons d new ih =>
      rcases ih h with h | h
      · exact Or.inl (List.mem_cons_of_mem d h)
      · rcases Sorted.mem_of_mem_put h with rfl | h
        · exact Or.inl List.mem_cons_self
        · exact Or.inr h

/-- Putting in the declarations of a node changes neither the path nor the tree, and keeps them
tidy. -/
lemma readFrom_addDeclarations {path : Path} {tree n : Node} {f f' : SourceFile}
    (h : ReadFrom path tree f) (hadd : f.addDeclarations n = .ok f') : ReadFrom path tree f' := by
  obtain ⟨names, -, hf'⟩ := map_eq_ok_iff.1 hadd
  cases names with
  | none => exact hf' ▸ h
  | some kindAndNames =>
      subst hf'
      refine ⟨h.path_eq, h.tree_eq, strict_foldl_put _ _ h.tidy.names_strict, ?_,
        h.tidy.imports_strict⟩
      intro d hd
      rcases mem_of_mem_foldl_put hd with hd | hd
      · obtain ⟨name, -, rfl⟩ := List.mem_map.1 hd
        rfl
      · exact h.tidy.file_eq d hd

lemma readFrom_addImport {path : Path} {tree n : Node} {f f' : SourceFile}
    (h : ReadFrom path tree f) (hadd : f.addImport n = .ok f') : ReadFrom path tree f' := by
  obtain ⟨importPath, -, rfl⟩ := map_eq_ok_iff.1 hadd
  exact ⟨h.path_eq, h.tree_eq, h.tidy.names_strict, h.tidy.file_eq,
    Sorted.strict_insert h.tidy.imports_strict⟩

/-- The step of the extraction. -/
lemma readFrom_addTopLevel {path : Path} {tree n : Node} {f f' : SourceFile}
    (h : ReadFrom path tree f) (hadd : f.addTopLevel n = .ok f') : ReadFrom path tree f' := by
  have hspecs : ∀ {specs : List Node}, specs.foldlM addDeclarations f = .ok f' →
      ReadFrom path tree f' :=
    foldlM_invariant (fun _ _ _ => readFrom_addDeclarations) h
  rw [addTopLevel] at hadd
  split at hadd
  · cases hadd
    split
    · exact ⟨h.path_eq, h.tree_eq, h.tidy.names_strict, h.tidy.file_eq, h.tidy.imports_strict⟩
    · exact h
  · exact foldlM_invariant (fun _ _ _ => readFrom_addImport) h hadd
  · exact readFrom_addDeclarations h hadd
  · exact readFrom_addDeclarations h hadd
  · exact hspecs hadd
  · exact hspecs hadd
  · exact hspecs hadd
  · exact Except.ok.inj hadd ▸ h

/-- What is extracted from a tree is read from it, by induction over the children of the root. -/
lemma readFrom_ofTree {path : Path} {tree : Node} {f : SourceFile}
    (h : ofTree path tree = .ok f) : ReadFrom path tree f := by
  have hempty : ReadFrom path tree { path, tree } :=
    ⟨rfl, rfl, List.Pairwise.nil, fun _ hd => absurd hd List.not_mem_nil, List.Pairwise.nil⟩
  exact foldlM_invariant (fun _ _ _ => readFrom_addTopLevel) hempty h

/-! ## Parsed files -/

/-- A tree is accepted if it has no fault and everything can be extracted. -/
lemma check_eq_ok_iff {path : Path} {tree : Node} {f : SourceFile} :
    check path tree = .ok f ↔ syntaxFault? tree = none ∧ ofTree path tree = .ok f := by
  rw [check]
  cases syntaxFault? tree with
  | some fault => exact iff_of_false nofun fun h => nomatch h.1
  | none =>
      rw [mapError_eq_ok_iff]
      exact ⟨fun h => ⟨rfl, h⟩, fun h => h.2⟩

/-- A file as it is read from its own tree, whose nodes can be told apart. -/
structure Parsed (f : SourceFile) : Prop where
  accepted : check f.path f.tree = .ok f
  distinctIds : f.tree.DistinctIds

/-- Whatever text is accepted gives a parsed file. -/
lemma parsed_of_ofText {parser : Parser} {path : Path} {text : String} {f : SourceFile}
    (h : ofText parser path text = .ok f) : f.path = path ∧ f.Parsed := by
  have hread := readFrom_ofTree (check_eq_ok_iff.1 h).2
  refine ⟨hread.path_eq, ?_, ?_⟩
  · rw [hread.path_eq, hread.tree_eq]
    exact h
  · rw [hread.tree_eq]
    exact Node.distinctIds_numberFrom 0 _

namespace Parsed

variable {f : SourceFile}

lemma ofTree_eq (h : f.Parsed) : ofTree f.path f.tree = .ok f := (check_eq_ok_iff.1 h.accepted).2

/-- What was parsed is tidy. -/
lemma tidy (h : f.Parsed) : f.Tidy := (readFrom_ofTree h.ofTree_eq).tidy

end Parsed

namespace Tidy

variable {f : SourceFile}

/-- No two declarations of a tidy file have one name. -/
lemma names_ne (h : f.Tidy) : f.declarations.Pairwise fun a b => a.name ≠ b.name := by
  refine h.names_strict.imp fun {a b} hab heq => ?_
  rw [compareNames_eq_iff.2 heq] at hab
  cases hab

/-- So a name finds the declaration that has it. -/
lemma declaration?_eq_some_iff (h : f.Tidy) {name : String} {d : Declaration} :
    f.declaration? name = some d ↔ d ∈ f.declarations ∧ d.name = name := by
  constructor
  · intro hd
    exact ⟨List.mem_of_find?_eq_some hd, by simpa using List.find?_some hd⟩
  · rintro ⟨hd, rfl⟩
    rw [declaration?]
    cases hfind : f.declarations.find? fun e => e.name == d.name with
    | none => exact absurd (beq_self_eq_true d.name) (List.find?_eq_none.1 hfind d hd)
    | some e =>
        have hname : e.name = d.name := by simpa using List.find?_some hfind
        rw [h.names_strict.eq_of_eq (List.mem_of_find?_eq_some hfind) hd
          (compareNames_eq_iff.2 hname)]

/-- Of several imports by one name, the one with the least path is meant. -/
lemma import?_path_eq_min? (h : f.Tidy) (name : String) :
    (f.import? name).map Import.path
      = ((f.imports.filter fun i => i.name == name).map Import.path).min? := by
  have hstrict := h.imports_strict
  rw [import?]
  generalize f.imports = imports at hstrict
  induction imports with
  | nil => rfl
  | cons i rest ih =>
      obtain ⟨hi, hrest⟩ := List.pairwise_cons.1 hstrict
      by_cases hname : i.name = name
      · rw [List.find?_cons_of_pos (by simpa using hname),
          List.filter_cons_of_pos (by simpa using hname), List.map_cons, Option.map_some]
        refine (List.min?_eq_some_iff.2 ⟨List.mem_cons_self, fun p hp => ?_⟩).symm
        rcases List.mem_cons.1 hp with rfl | hp
        · exact le_refl _
        · obtain ⟨j, hj, rfl⟩ := List.mem_map.1 hp
          obtain ⟨hj, hjname⟩ := List.mem_filter.1 hj
          exact Import.path_le_of_compare_lt (hi j hj) (hname.trans (beq_iff_eq.1 hjname).symm)
      · rw [List.find?_cons_of_neg (by simpa using hname),
          List.filter_cons_of_neg (by simpa using hname), ih hrest]

end Tidy

/-! ## Names that can be made out -/

/-- Methods are declared at the top level of the tree and nowhere else. -/
def MethodsAtTop (tree : Node) : Prop :=
  ∀ n ∈ tree.nodes, n.kind = "method_declaration" → n ∈ tree.namedChildren

/-- Only for methods it may be impossible to make out the name. -/
lemma exists_declaredNames_of_not_method {n : Node} (hn : n.kind ≠ "method_declaration") :
    ∃ names, declaredNames n = .ok names := by
  rw [declaredNames]
  split
  · exact ⟨_, rfl⟩
  next hkind => exact absurd hkind hn
  all_goals exact ⟨_, rfl⟩

/-- The name of a method at the top level has been made out when the file was read. -/
lemma exists_declaredNames_of_top {f : SourceFile} (h : f.Parsed) {n : Node}
    (hn : n ∈ f.tree.namedChildren) (hkind : n.kind = "method_declaration") :
    ∃ names, declaredNames n = .ok names := by
  obtain ⟨t, t', hstep⟩ := exists_step_of_foldlM h.ofTree_eq hn
  rw [addTopLevel, hkind] at hstep
  obtain ⟨names, hnames, -⟩ := map_eq_ok_iff.1 hstep
  exact ⟨names, hnames⟩

/-- In a parsed file with its methods at the top level, the names of every node can be told. -/
lemma Parsed.exists_declaredNames {f : SourceFile} (h : f.Parsed) (hm : MethodsAtTop f.tree)
    {n : Node} (hn : n ∈ f.tree.nodes) : ∃ names, declaredNames n = .ok names := by
  by_cases hkind : n.kind = "method_declaration"
  · exact exists_declaredNames_of_top h (hm n hn hkind) hkind
  · exact exists_declaredNames_of_not_method hkind

end SourceFile

end GoReach.Go
