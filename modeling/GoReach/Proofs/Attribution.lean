import GoReach.Proofs.Go.Placement
import GoReach.Proofs.Resolution

/-!
# To whom references are attributed

A reference belongs to the names of the outermost declaration around it, as far as the file declares
them.  What a file declares is what is introduced at its top level (`isSome_declaration?_iff`).  The
two fit together for declarations at the top level; but a statement may stand there as well, and in
it a variable, a constant or a type may be declared.  Then the outermost declaration is not read as
one of the file.  If none of its names is declared at the top level either, nothing is there to
which the reference could belong, not even the file root: it is lost (`lost_iff`).

Apart from that, references are kept.  `variable_in_statement_loses_reference` is a file in which
one is lost.
-/

namespace GoReach

namespace Scope

open GoReach.Go (SourceFile Placed home?)
open GoReach.Go.SourceFile (Introduces topLevel)
open GoReach.Syntax (Node)

/-- The node refers to the target, from whatever it belongs to. -/
def RefersTo (s : Scope) (module : String) (f : SourceFile) (v : List Node × Node)
    (target : Declaration) : Prop :=
  (Go.shape? v.2 v.1.getLast?).bind (s.target? module f) = some target

/-- The declaration is not at the top level of the tree, and none of its names is declared there. -/
def Stray (t d : Node) : Prop :=
  d ∉ topLevel t ∧ ∀ name ∈ usableNames d, ∀ n ∈ topLevel t, name ∉ usableNames n

lemma mem_usableNames_iff {d : Node} {name : String} :
    name ∈ usableNames d ↔ ∃ kind, Introduces d kind name := by
  rw [usableNames]
  constructor
  · intro h
    split at h
    next kind names hnames =>
      obtain ⟨hname, hused⟩ := List.mem_filter.1 h
      exact ⟨kind, names, hnames, hname, by simpa using hused⟩
    next => cases h
  · rintro ⟨kind, names, hnames, hname, hused⟩
    rw [hnames]
    exact List.mem_filter.2 ⟨hname, by simpa using hused⟩

variable {f : SourceFile} {ancestors : List Node} {target : Declaration}

/-- A file declares what is introduced at its top level, and nothing else. -/
lemma isSome_declaration?_iff (hf : f.Parsed) {name : String} :
    (f.declaration? name).isSome = true ↔ ∃ n ∈ topLevel f.tree, name ∈ usableNames n := by
  constructor
  · intro h
    obtain ⟨d, hd⟩ := Option.isSome_iff_exists.1 h
    obtain ⟨hmem, rfl⟩ := hf.tidy.declaration?_eq_some_iff.1 hd
    obtain ⟨n, hn, hintro, -⟩ := hf.collects.exists_node d hmem
    exact ⟨n, hn, mem_usableNames_iff.2 ⟨d.kind, hintro⟩⟩
  · rintro ⟨n, hn, hname⟩
    obtain ⟨kind, hintro⟩ := mem_usableNames_iff.1 hname
    obtain ⟨d, hd, hdname⟩ := hf.collects.exists_declaration n hn kind name hintro
    exact Option.isSome_iff_exists.2 ⟨d, hf.tidy.declaration?_eq_some_iff.2 ⟨hd, hdname⟩⟩

/-- There is nothing to which a node belongs if its outermost declaration has no name to be used, or
is stray. -/
lemma sourcesAt_eq_nil_iff (hf : f.Parsed) :
    sourcesAt f ancestors = [] ↔
      ∃ d, Go.outermost? ancestors = some d ∧ (usableNames d = [] ∨ Stray f.tree d) := by
  rw [sourcesAt, Go.outermost?]
  cases ancestors.find? Go.isDeclaration with
  | none => simp
  | some d =>
      have hnone : ∀ name, f.declaration? name = none ↔
          ∀ n ∈ topLevel f.tree, name ∉ usableNames n := by
        intro name
        rw [← Option.not_isSome_iff_eq_none, isSome_declaration?_iff hf]
        simp
      simp only [List.filterMap_eq_nil_iff, hnone, Option.some.injEq, exists_eq_left']
      constructor
      · intro h
        by_cases hd : d ∈ topLevel f.tree
        · exact Or.inl (List.eq_nil_iff_forall_not_mem.2 fun name hname => h name hname d hd hname)
        · exact Or.inr ⟨hd, h⟩
      · rintro (hempty | hstray)
        · simp [hempty]
        · exact hstray.2

lemma referencesAt_eq_nil_iff {s : Scope} {module : String} {v : List Node × Node}
    (h : s.RefersTo module f v target) :
    referencesAt (s.target? module f) f v = [] ↔
      (∃ o ∈ sourcesAt f v.1, target.same o) ∨ sourcesAt f v.1 = [] := by
  rw [referencesAt, h]
  simp only [List.any_eq_true]
  split
  next hown => exact iff_of_true rfl (Or.inl hown)
  next hother =>
    rw [List.map_eq_nil_iff]
    exact ⟨Or.inr, fun hlost => hlost.resolve_left hother⟩

/-- An outermost declaration is at the top level, or deep in another child of the root. -/
lemma outermost?_topLevel_or_deep {t d : Node} (hplaced : Placed t) {v : List Node × Node}
    (hv : v ∈ t.visits []) (hd : Go.outermost? v.1 = some d) :
    d ∈ topLevel t ∨
      ∃ s middle p below, v.1 = t :: s :: (middle ++ p :: d :: below) ∧
        home? d.kind = some p.kind := by
  obtain ⟨hdecl, above, below, habove, -⟩ := List.find?_eq_some_iff_append.1 hd
  have hvisit : (above ++ d :: below, v.2) ∈ t.visits [] := habove ▸ hv
  rcases hplaced.topLevel_or_deep (Node.mem_visits_of_ancestor hvisit) hdecl with
    htop | ⟨s, middle, p, rfl, hhome⟩
  · exact Or.inl htop
  · refine Or.inr ⟨s, middle, p, below, ?_, hhome⟩
    rw [habove]
    simp

/-- **Which references are lost.**  In a file whose declarations stand where the grammar has them,
all references are found.  The file declares what is introduced at its top level, and nothing else.
The outermost declaration around a node stands there, or deep in another child of the root.  A node
that refers to something gives no reference exactly if it refers to something that it belongs to, or
if its outermost declaration introduces no name to be used, or is stray. -/
theorem lost_iff {root : Path} (rootModule : String) {files : List SourceFile}
    (hparsed : ∀ g ∈ files, g.Parsed)
    (hbelow : ∀ g ∈ files, root.components <+: g.path.components) (hf : f ∈ files)
    (hplaced : Placed f.tree) :
    ∃ table module,
      NameTable.ofFiles root rootModule files = .ok table ∧
      Module.ofFile root rootModule f.path = .ok module ∧
      resolve ⟨root, rootModule, table⟩ f = .ok ((f.tree.visits []).flatMap
        (referencesAt (target? ⟨root, rootModule, table⟩ module f) f)) ∧
      (∀ name, (f.declaration? name).isSome = true ↔
        ∃ n ∈ topLevel f.tree, name ∈ usableNames n) ∧
      (∀ v ∈ f.tree.visits [], ∀ d, Go.outermost? v.1 = some d →
        d ∈ topLevel f.tree ∨
          ∃ s middle p below, v.1 = f.tree :: s :: (middle ++ p :: d :: below) ∧
            home? d.kind = some p.kind) ∧
      ∀ v ∈ f.tree.visits [], ∀ target, RefersTo ⟨root, rootModule, table⟩ module f v target →
        (referencesAt (target? ⟨root, rootModule, table⟩ module f) f v = [] ↔
          (∃ o ∈ sourcesAt f v.1, target.same o) ∨
            ∃ d, Go.outermost? v.1 = some d ∧ (usableNames d = [] ∨ Stray f.tree d)) := by
  have hfparsed : f.Parsed := hparsed f hf
  obtain ⟨table, htable⟩ := NameTable.exists_ofFiles rootModule hbelow
  obtain ⟨module, hmodule⟩ := Module.exists_ofFile_iff.2 (hbelow f hf)
  obtain ⟨refs, hrefs⟩ := exists_resolve (s := ⟨root, rootModule, table⟩) hfparsed
    hplaced.methodsAtTop hmodule
  refine ⟨table, module, htable, hmodule, ?_, fun name => isSome_declaration?_iff hfparsed,
    fun v hv d hd => outermost?_topLevel_or_deep hplaced hv hd, fun v hv target htarget => ?_⟩
  · rw [hrefs, eq_flatMap_of_resolve (s := ⟨root, rootModule, table⟩) hfparsed.distinctIds hmodule
      hrefs]
  · rw [referencesAt_eq_nil_iff htarget, sourcesAt_eq_nil_iff hfparsed]

namespace Sample

/-- Declares `helper`, and in a statement outside of all functions the variable `x`, whose value is
a call of `helper`. -/
def stray : SourceFile where
  path := ⟨"/p/a.go"⟩
  package := "a"
  declarations := [{ file := ⟨"/p/a.go"⟩, name := "helper", span := some ⟨1, 1, 1, 1⟩ }]
  tree := Node.numberFrom 0 <| .node { kind := "source_file" }
    [.node { kind := "package_clause" } [.node { kind := "package_identifier", text := "a" } []],
     function "helper" [],
     .node { kind := "if_statement" }
      [leaf "true" "condition" "true",
       .node { kind := "block", field := some "consequence" }
        [.node { kind := "var_declaration" }
          [.node { kind := "var_spec" }
            [leaf "identifier" "name" "x",
             .node { kind := "expression_list", field := some "value" }
              [.node { kind := "call_expression" }
                [leaf "identifier" "function" "helper"]]]]]]]

lemma parsed_stray : ∀ f ∈ [stray], f.Parsed :=
  List.forall_mem_singleton.2 ⟨rfl, Node.distinctIds_numberFrom 0 _⟩

lemma below_stray : ∀ f ∈ [stray], root.components <+: f.path.components := by decide

lemma placed_stray : Placed stray.tree := by decide

end Sample

/-- In the sample, references are lost as said. -/
theorem lost_iff_sample :
    ∃ table,
      NameTable.ofFiles Sample.root "m" [Sample.stray] = .ok table ∧
      ∀ v ∈ Sample.stray.tree.visits [], ∀ target,
        RefersTo ⟨Sample.root, "m", table⟩ "m" Sample.stray v target →
        (referencesAt (target? ⟨Sample.root, "m", table⟩ "m" Sample.stray) Sample.stray v = [] ↔
          (∃ o ∈ sourcesAt Sample.stray v.1, target.same o) ∨
            ∃ d, Go.outermost? v.1 = some d ∧
              (usableNames d = [] ∨ Stray Sample.stray.tree d)) := by
  obtain ⟨table, module, htable, hmodule, -, -, -, hlost⟩ :=
    lost_iff "m" Sample.parsed_stray Sample.below_stray List.mem_cons_self Sample.placed_stray
  obtain rfl : "m" = module := Except.ok.inj hmodule
  exact ⟨table, htable, hlost⟩

/-- The variable is not declared by the file, and the call of `helper` is lost. -/
theorem variable_in_statement_loses_reference :
    ∃ table, NameTable.ofFiles Sample.root "m" [Sample.stray] = .ok table ∧
      resolve ⟨Sample.root, "m", table⟩ Sample.stray = .ok [] ∧
      ∃ v ∈ Sample.stray.tree.visits [], ∃ d target,
        RefersTo ⟨Sample.root, "m", table⟩ "m" Sample.stray v target ∧ target.name = "helper" ∧
        Go.outermost? v.1 = some d ∧ usableNames d = ["x"] ∧
        Sample.stray.declaration? "x" = none ∧
        ¬ ∃ o ∈ sourcesAt Sample.stray v.1, target.same o := by
  have hmodule : Module.ofFile Sample.root "m" Sample.stray.path = .ok "m" := rfl
  obtain ⟨table, htable⟩ := NameTable.exists_ofFiles "m" Sample.below_stray
  have htarget : target? ⟨Sample.root, "m", table⟩ "m" Sample.stray = _ :=
    target?_eq_targetIn (fun g hg => (Sample.parsed_stray g hg).tidy) List.mem_cons_self htable
  obtain ⟨refs, hrefs⟩ := exists_resolve (s := ⟨Sample.root, "m", table⟩)
    (Sample.parsed_stray _ List.mem_cons_self) Sample.placed_stray.methodsAtTop hmodule
  refine ⟨table, htable, ?_, ?_⟩
  · rw [hrefs, eq_referencesOf Sample.parsed_stray List.mem_cons_self htable hmodule hrefs,
      Except.ok.injEq]
    decide
  · -- the last node of the tree is the call
    refine ⟨(Sample.stray.tree.visits []).get ⟨13, by decide⟩, List.get_mem _ _, _,
      { file := ⟨"/p/a.go"⟩, name := "helper", span := some ⟨1, 1, 1, 1⟩ }, ?_, rfl, rfl,
      by decide, by decide, by decide⟩
    rw [RefersTo, htarget]
    decide

end Scope

end GoReach
