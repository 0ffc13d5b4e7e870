import GoReach.Proofs.Comparison

/-!
# What the references of a file depend on

A file sees its own module and those that it imports (`Scope.Sees`).  A table keeps modules apart:
what a name finds in a module is decided by the files of that module in their order, and by no other
file (`NameTable.lookup_eq_of_filter_eq`).  Resolving a file looks up names in modules that the file
sees.  So its references are the same in any two projects that have the same files in these modules,
whatever else there is in the projects (`Scope.resolve_eq_of_seen_eq`).
-/

namespace GoReach

open GoReach.Go (SourceFile)
open GoReach.Go.SourceFile (MethodsAtTop)

/-- What a name finds in a module depends on the files of the module alone. -/
lemma NameTable.lookup_eq_of_filter_eq {root : Path} {rootModule : String}
    {files files' : List SourceFile} (htidy : ∀ f ∈ files, f.Tidy) (htidy' : ∀ f ∈ files', f.Tidy)
    {t t' : NameTable} (ht : ofFiles root rootModule files = .ok t)
    (ht' : ofFiles root rootModule files' = .ok t') {module : String}
    (hmodule : files'.filter (Module.holds root rootModule module)
      = files.filter (Module.holds root rootModule module)) (name : String) :
    t'.lookup module name = t.lookup module name := by
  rw [lookup_ofFiles htidy' ht', lookup_ofFiles htidy ht, declarationsOf, declarationsOf, hmodule]

namespace Scope

/-- The module is that of the file, or the file imports it. -/
def Sees (root : Path) (rootModule : String) (f : SourceFile) (module : String) : Prop :=
  Module.ofFile root rootModule f.path = .ok module ∨ ∃ i ∈ f.imports, i.path = module

/-- **References are local to the modules that a file sees.**  Two lists of files have tables, and
if they have the same files in the same order in every module that a file of them sees, the file is
resolved alike in both, however they differ in other modules.  The references are found in both if
the file declares its methods at the top level only. -/
theorem resolve_eq_of_seen_eq {root : Path} {rootModule : String} {files files' : List SourceFile}
    {f : SourceFile} (hparsed : ∀ g ∈ files, g.Parsed) (hparsed' : ∀ g ∈ files', g.Parsed)
    (hbelow : ∀ g ∈ files, root.components <+: g.path.components)
    (hbelow' : ∀ g ∈ files', root.components <+: g.path.components) (hf : f ∈ files)
    (hseen : ∀ module, Sees root rootModule f module →
      files'.filter (Module.holds root rootModule module)
        = files.filter (Module.holds root rootModule module)) :
    ∃ t t', NameTable.ofFiles root rootModule files = .ok t ∧
      NameTable.ofFiles root rootModule files' = .ok t' ∧
      resolve ⟨root, rootModule, t'⟩ f = resolve ⟨root, rootModule, t⟩ f ∧
      (MethodsAtTop f.tree → ∃ refs,
        resolve ⟨root, rootModule, t⟩ f = .ok refs ∧
        resolve ⟨root, rootModule, t'⟩ f = .ok refs) := by
  obtain ⟨t, ht⟩ := NameTable.exists_ofFiles rootModule hbelow
  obtain ⟨t', ht'⟩ := NameTable.exists_ofFiles rootModule hbelow'
  have hlookup : ∀ module, Sees root rootModule f module →
      ∀ name, t'.lookup module name = t.lookup module name := fun module hsees =>
    NameTable.lookup_eq_of_filter_eq (fun g hg => (hparsed g hg).tidy)
      (fun g hg => (hparsed' g hg).tidy) ht ht' (hseen module hsees)
  have hresolve : resolve ⟨root, rootModule, t'⟩ f = resolve ⟨root, rootModule, t⟩ f := by
    refine resolve_congr fun module hmodule m hm => hlookup m ?_
    rcases hm with rfl | himport
    · exact Or.inl hmodule
    · exact Or.inr himport
  refine ⟨t, t', ht, ht', hresolve, fun hmethods => ?_⟩
  obtain ⟨module, hmodule⟩ := Module.exists_ofFile_iff.2 (hbelow f hf)
  obtain ⟨refs, hrefs⟩ :=
    exists_resolve (s := ⟨root, rootModule, t⟩) (hparsed f hf) hmethods hmodule
  exact ⟨refs, hrefs, hresolve.trans hrefs⟩

namespace Sample

/-- Declares functions by the names that are used in the small project, but in the module `m/x`. -/
def stranger : SourceFile where
  path := ⟨"/p/x/c.go"⟩
  declarations := ["Go", "run"].map fun name =>
    { file := ⟨"/p/x/c.go"⟩, name, span := some ⟨1, 1, 1, 1⟩ }
  tree := Syntax.Node.numberFrom 0 <| .node { kind := "source_file" }
    [function "run" [], function "Go" []]

lemma parsed_stranger : stranger.Parsed := ⟨rfl, Syntax.Node.distinctIds_numberFrom 0 _⟩

lemma methodsAtTop_stranger : MethodsAtTop stranger.tree := by
  have hkinds : ∀ n ∈ stranger.tree.nodes, n.kind ≠ "method_declaration" := by decide
  exact fun n hn hkind => absurd hkind (hkinds n hn)

end Sample

/-- The caller of the small project refers to the same beside a file of another module, and with the
two files in the other order. -/
theorem resolve_eq_of_seen_eq_sample :
    ∃ t t' refs, NameTable.ofFiles Sample.root "m" [Sample.caller, Sample.callee] = .ok t ∧
      NameTable.ofFiles Sample.root "m" [Sample.stranger, Sample.callee, Sample.caller] = .ok t' ∧
      resolve ⟨Sample.root, "m", t⟩ Sample.caller = .ok refs ∧
      resolve ⟨Sample.root, "m", t'⟩ Sample.caller = .ok refs := by
  have hparsed' : ∀ g ∈ [Sample.stranger, Sample.callee, Sample.caller], g.Parsed := by
    have hparsed := Sample.parsed
    simp only [List.forall_mem_cons] at hparsed ⊢
    exact ⟨Sample.parsed_stranger, hparsed.2.1, hparsed.1, hparsed.2.2⟩
  have hseen : ∀ module, Sees Sample.root "m" Sample.caller module →
      [Sample.stranger, Sample.callee, Sample.caller].filter (Module.holds Sample.root "m" module)
        = [Sample.caller, Sample.callee].filter (Module.holds Sample.root "m" module) := by
    rintro module (hown | ⟨i, hi, rfl⟩)
    · obtain rfl : "m" = module := Except.ok.inj hown
      rfl
    · obtain rfl := List.mem_singleton.1 hi
      rfl
  obtain ⟨t, t', ht, ht', -, hrefs⟩ := resolve_eq_of_seen_eq Sample.parsed hparsed' Sample.below
    (by decide) List.mem_cons_self hseen
  obtain ⟨refs, h, h'⟩ := hrefs (Sample.methodsAtTop _ List.mem_cons_self)
  exact ⟨t, t', refs, ht, ht', h, h'⟩

end Scope

end GoReach
