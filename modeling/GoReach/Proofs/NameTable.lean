import GoReach.NameTable
import GoReach.Proofs.Go.Extraction
import GoReach.Proofs.Path.Below

/-!
# What a name finds

The declarations of a name in a module are those that the module's files give to it, in the order of
the files (`declarationsOf`).  A table of files finds the last of them (`lookup_ofFiles`): the names
of a module are put together from one file after another, and a later declaration takes the place of
an earlier one.

There is a table exactly if all files lie below the root (`exists_ofFiles`); then every file belongs
to a module.
-/

namespace GoReach

open GoReach.Go (SourceFile)

/-! ## Modules of files -/

/-- Whether a file belongs to the given module. -/
def Module.holds (root : Path) (rootModule module : String) (f : SourceFile) : Bool :=
  match Module.ofFile root rootModule f.path with
  | .ok m => m == module
  | .error _ => false

lemma Module.holds_iff {root : Path} {rootModule module : String} {f : SourceFile} :
    Module.holds root rootModule module f = true ↔
      Module.ofFile root rootModule f.path = .ok module := by
  rw [Module.holds]
  cases Module.ofFile root rootModule f.path with
  | error e => exact iff_of_false Bool.false_ne_true nofun
  | ok m => exact beq_iff_eq.trans ⟨fun h => congrArg _ h, fun h => Except.ok.inj h⟩

namespace NameTable

/-- The declarations of a name in the files of a module, in the order of the files. -/
def declarationsOf (root : Path) (rootModule : String) (files : List SourceFile)
    (module name : String) : List Declaration :=
  (files.filter (Module.holds root rootModule module)).filterMap fun f => f.declaration? name

lemma mem_declarationsOf {root : Path} {rootModule : String} {files : List SourceFile}
    {module name : String} {d : Declaration}
    (h : d ∈ declarationsOf root rootModule files module name) :
    ∃ f ∈ files, d ∈ f.declarations := by
  obtain ⟨f, hf, hd⟩ := List.mem_filterMap.1 h
  exact ⟨f, (List.mem_filter.1 hf).1, List.mem_of_find?_eq_some hd⟩

lemma mem_declarationsOf_iff {root : Path} {rootModule : String} {files : List SourceFile}
    (htidy : ∀ f ∈ files, f.Tidy) {module name : String} {d : Declaration} :
    d ∈ declarationsOf root rootModule files module name ↔
      ∃ f ∈ files, Module.ofFile root rootModule f.path = .ok module ∧
        d ∈ f.declarations ∧ d.name = name := by
  simp only [declarationsOf, List.mem_filterMap, List.mem_filter, Module.holds_iff, and_assoc]
  refine exists_congr fun f => and_congr_right fun hf => and_congr_right fun _ => ?_
  exact (htidy f hf).declaration?_eq_some_iff

/-- The declarations of a name in a module start with that of the first file, if it has one
there. -/
lemma declarationsOf_cons {root : Path} {rootModule m : String} {f : SourceFile}
    (hm : Module.ofFile root rootModule f.path = .ok m) (files : List SourceFile)
    (module name : String) :
    declarationsOf root rootModule (f :: files) module name
      = (if m = module then (f.declaration? name).toList else []) ++
        declarationsOf root rootModule files module name := by
  rw [declarationsOf, declarationsOf]
  by_cases hmodule : m = module
  · have hholds : Module.holds root rootModule module f = true :=
      Module.holds_iff.2 (hmodule ▸ hm)
    rw [List.filter_cons_of_pos hholds, List.filterMap_cons, if_pos hmodule]
    cases f.declaration? name <;> rfl
  · have hholds : ¬ Module.holds root rootModule module f = true := by
      rw [Module.holds_iff, hm]
      exact fun heq => hmodule (Except.ok.inj heq)
    rw [List.filter_cons_of_neg hholds, if_neg hmodule, List.nil_append]

/-! ## One file -/

lemma names_foldl_add (module name : String) (ds : List Declaration) (n : Namespace)
    (hds : ds.Pairwise fun a b => a.name ≠ b.name) :
    (ds.foldl (Namespace.add module) n).names[name]?
      = (ds.find? fun d => d.name == name).or n.names[name]? := by
  induction ds generalizing n with
  | nil => rfl
  | cons d ds ih =>
      obtain ⟨hd, hrest⟩ := List.pairwise_cons.1 hds
      rw [List.foldl_cons, ih _ hrest, Namespace.add, Std.HashMap.getElem?_insert]
      by_cases hname : d.name = name
      · have hnone : (ds.find? fun e => e.name == name) = none := by
          refine List.find?_eq_none.2 fun e he heq => hd e he ?_
          rw [hname, beq_iff_eq.1 heq]
        rw [List.find?_cons_of_pos (by simpa using hname), hnone, if_pos (by simpa using hname)]
        rfl
      · rw [List.find?_cons_of_neg (by simpa using hname), if_neg (by simpa using hname)]

/-- A file's declarations take the place of those of the same names in its module. -/
lemma lookup_addFile (t : NameTable) (module other name : String) {f : SourceFile}
    (hf : f.Tidy) :
    (t.addFile module f).lookup other name
      = if module = other then (f.declaration? name).or (t.lookup other name)
        else t.lookup other name := by
  rw [lookup, addFile, Std.HashMap.getElem?_insert]
  by_cases hmodule : module = other
  · subst hmodule
    rw [if_pos (beq_self_eq_true module), if_pos rfl, Option.bind_some,
      names_foldl_add module name _ _ hf.names_ne, Std.HashMap.getD_eq_getD_getElem?, lookup]
    cases t.modules[module]? <;> simp [SourceFile.declaration?]
  · rw [if_neg (by simpa using hmodule), if_neg hmodule, lookup]

/-! ## All files -/

/-- The step by which a table is put together. -/
def step (root : Path) (rootModule : String) (t : NameTable) (f : SourceFile) :
    Except Error NameTable :=
  (Module.ofFile root rootModule f.path).map fun module => t.addFile module f

lemma ofFiles_eq_foldlM (root : Path) (rootModule : String) (files : List SourceFile) :
    ofFiles root rootModule files = files.foldlM (step root rootModule) {} := rfl

lemma lookup_foldlM {root : Path} {rootModule : String} {files : List SourceFile}
    (htidy : ∀ f ∈ files, f.Tidy) {t t' : NameTable}
    (h : files.foldlM (step root rootModule) t = .ok t') (module name : String) :
    t'.lookup module name
      = (declarationsOf root rootModule files module name).getLast?.or (t.lookup module name) := by
  induction files generalizing t with
  | nil =>
      rw [List.foldlM_nil] at h
      rw [Except.ok.inj h]
      rfl
  | cons f files ih =>
      rw [List.foldlM_cons] at h
      obtain ⟨t₁, ht₁, hrest⟩ := bind_eq_ok_iff.1 h
      obtain ⟨m, hm, rfl⟩ := map_eq_ok_iff.1 ht₁
      rw [ih (fun g hg => htidy g (List.mem_cons_of_mem f hg)) hrest,
        lookup_addFile t m module name (htidy f List.mem_cons_self), declarationsOf_cons hm,
        List.getLast?_append]
      by_cases hmodule : m = module
      · rw [if_pos hmodule, if_pos hmodule]
        cases f.declaration? name <;> simp
      · rw [if_neg hmodule, if_neg hmodule]
        simp

/-- **The last declaration wins.** -/
lemma lookup_ofFiles {root : Path} {rootModule : String} {files : List SourceFile}
    (htidy : ∀ f ∈ files, f.Tidy) {t : NameTable} (h : ofFiles root rootModule files = .ok t)
    (module name : String) :
    t.lookup module name = (declarationsOf root rootModule files module name).getLast? := by
  rw [ofFiles_eq_foldlM] at h
  rw [lookup_foldlM htidy h]
  have hempty : ({} : NameTable).lookup module name = none := by simp [lookup]
  rw [hempty, Option.or_none]

/-- What is found belongs to the module and has the name that was looked up. -/
lemma ofFile_of_lookup {root : Path} {rootModule : String} {files : List SourceFile}
    (htidy : ∀ f ∈ files, f.Tidy) {t : NameTable} (ht : ofFiles root rootModule files = .ok t)
    {module name : String} {d : Declaration} (h : t.lookup module name = some d) :
    Module.ofFile root rootModule d.file = .ok module ∧ d.name = name := by
  rw [lookup_ofFiles htidy ht] at h
  obtain ⟨f, hf, hmodule, hd, hname⟩ := (mem_declarationsOf_iff htidy).1 (List.mem_of_getLast? h)
  rw [(htidy f hf).file_eq d hd]
  exact ⟨hmodule, hname⟩

/-- All files of a table lie below the root. -/
lemma below_of_ofFiles {root : Path} {rootModule : String} {files : List SourceFile} {t : NameTable}
    (h : ofFiles root rootModule files = .ok t) :
    ∀ f ∈ files, root.components <+: f.path.components := by
  intro f hf
  obtain ⟨t₁, t₂, hstep⟩ := exists_step_of_foldlM h hf
  obtain ⟨module, hmodule, -⟩ := map_eq_ok_iff.1 hstep
  exact Module.exists_ofFile_iff.1 ⟨module, hmodule⟩

/-- Files below the root have a table. -/
lemma exists_ofFiles {root : Path} (rootModule : String) {files : List SourceFile}
    (h : ∀ f ∈ files, root.components <+: f.path.components) :
    ∃ t, ofFiles root rootModule files = .ok t := by
  rw [ofFiles_eq_foldlM]
  refine foldlM_succeeds (fun f hf t => ?_) _
  obtain ⟨module, hmodule⟩ := Module.exists_ofFile_iff.2 (h f hf)
  exact ⟨t.addFile module f, map_eq_ok_iff.2 ⟨module, hmodule, rfl⟩⟩

end NameTable

end GoReach
