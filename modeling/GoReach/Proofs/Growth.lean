import Mathlib.Data.List.Flatten
import GoReach.Proofs.Collisions
import GoReach.Proofs.Locality

/-!
# Projects that grow by whole modules

Files are added to a project, but to none of its modules (`AddsModules`).  The modules of the
project then have the files that they had, in the same order (`AddsModules.filter_eq`).  So a name
that was found in the project still finds the same (`NameTable.lookup_of_addsModules`), and every
node of a tree that referred to something still does.  A file may refer to more than before, because
it may import one of the new modules; its old references stay, in their order
(`Scope.exists_sublist_of_addsModules`).

With the references, what is live stays live, and no declaration of the project loses its name that
had not lost it before (`Analysis.live_of_addsModules`).
-/

namespace GoReach

open GoReach.Go (SourceFile Shape)
open GoReach.Go.SourceFile (MethodsAtTop)

/-- What is replaced in a collision belongs to the module of the collision. -/
lemma NameTable.ofFile_of_replaced {root : Path} {rootModule module name : String}
    {files : List SourceFile} (htidy : ∀ f ∈ files, f.Tidy) {c : Collision}
    (hc : c ∈ takeovers module name (declarationsOf root rootModule files module name))
    {d : Declaration} (hsame : c.replaced.same d) :
    Module.ofFile root rootModule d.file = .ok module := by
  obtain ⟨g, hg, hmodule, hreplaced, -⟩ :=
    (mem_declarationsOf_iff htidy).1 (replaced_mem_of_mem_takeovers hc)
  have hpath : g.path.components = d.file.components := by
    rw [← (htidy g hg).file_eq _ hreplaced]
    exact congrArg Declaration.Key.file (Declaration.same_iff.1 hsame)
  rw [Module.ofFile_of_components hpath]
  exact hmodule

/-- All files are the given ones, in their order, and more of them anywhere in between, which do not
belong to the modules of the given ones. -/
structure AddsModules (root : Path) (rootModule : String) (files more all : List SourceFile) :
    Prop where
  sublist : files.Sublist all
  perm : all.Perm (files ++ more)
  fresh : ∀ f ∈ files, ∀ g ∈ more,
    Module.ofFile root rootModule g.path ≠ Module.ofFile root rootModule f.path

section

variable {root : Path} {rootModule module name : String} {files more all : List SourceFile}
  (hadds : AddsModules root rootModule files more all)

include hadds

lemma AddsModules.forall_mem {P : SourceFile → Prop} (h : ∀ f ∈ all, P f) : ∀ f ∈ files, P f :=
  fun f hf => h f (hadds.sublist.subset hf)

/-- A module that had files has the same files as before. -/
lemma AddsModules.filter_eq {f : SourceFile} (hf : f ∈ files)
    (hmodule : Module.ofFile root rootModule f.path = .ok module) :
    all.filter (Module.holds root rootModule module)
      = files.filter (Module.holds root rootModule module) := by
  have hnone : more.filter (Module.holds root rootModule module) = [] := by
    refine List.filter_eq_nil_iff.2 fun g hg hholds => hadds.fresh f hf g hg ?_
    rw [Module.holds_iff.1 hholds, hmodule]
  have hlength := (hadds.perm.filter (Module.holds root rootModule module)).length_eq
  rw [List.filter_append, hnone, List.append_nil] at hlength
  exact ((hadds.sublist.filter _).eq_of_length hlength.symm).symm

lemma AddsModules.declarationsOf_eq {f : SourceFile} (hf : f ∈ files)
    (hmodule : Module.ofFile root rootModule f.path = .ok module) (name : String) :
    NameTable.declarationsOf root rootModule all module name
      = NameTable.declarationsOf root rootModule files module name := by
  rw [NameTable.declarationsOf, NameTable.declarationsOf, hadds.filter_eq hf hmodule]

variable (htidy : ∀ f ∈ all, f.Tidy) {t t' : NameTable}
  (ht : NameTable.ofFiles root rootModule files = .ok t)
  (ht' : NameTable.ofFiles root rootModule all = .ok t')

include htidy ht ht'

/-! ## Names -/

lemma NameTable.lookup_eq_of_addsModules {f : SourceFile} (hf : f ∈ files)
    (hmodule : Module.ofFile root rootModule f.path = .ok module) (name : String) :
    t'.lookup module name = t.lookup module name :=
  lookup_eq_of_filter_eq (hadds.forall_mem htidy) htidy ht ht' (hadds.filter_eq hf hmodule) name

/-- What a name finds, it finds in the larger project. -/
lemma NameTable.lookup_of_addsModules {d : Declaration} (h : t.lookup module name = some d) :
    t'.lookup module name = some d := by
  have htidyFiles : ∀ f ∈ files, f.Tidy := hadds.forall_mem htidy
  have hd : d ∈ declarationsOf root rootModule files module name := by
    rw [lookup_ofFiles htidyFiles ht] at h
    exact List.mem_of_getLast? h
  obtain ⟨f, hf, hmodule, -, -⟩ := (mem_declarationsOf_iff htidyFiles).1 hd
  rw [lookup_eq_of_addsModules hadds htidy ht ht' hf hmodule, h]

/-- The collisions in which a declaration of the project is replaced are those that there were. -/
lemma NameTable.mem_collisions_of_addsModules {f : SourceFile} (hf : f ∈ files) {d : Declaration}
    (hd : d ∈ f.declarations) {c : Collision} (hsame : c.replaced.same d) :
    c ∈ t'.collisions ↔ c ∈ t.collisions := by
  have htidyFiles : ∀ f ∈ files, f.Tidy := hadds.forall_mem htidy
  rw [mem_collisions_iff htidy ht', mem_collisions_iff htidyFiles ht]
  have hfile := (htidyFiles f hf).file_eq d hd
  by_cases hmodule : Module.ofFile root rootModule f.path = .ok c.module
  · rw [hadds.declarationsOf_eq hf hmodule]
  · refine iff_of_false (fun hc => hmodule ?_) (fun hc => hmodule ?_)
    · exact hfile ▸ ofFile_of_replaced htidy hc hsame
    · exact hfile ▸ ofFile_of_replaced htidyFiles hc hsame

/-! ## References -/

/-- What a shape refers to, it refers to in the larger project. -/
lemma Scope.target?_of_addsModules {f : SourceFile} (hf : f ∈ files)
    (hmodule : Module.ofFile root rootModule f.path = .ok module) {shape : Shape} {d : Declaration}
    (h : target? ⟨root, rootModule, t⟩ module f shape = some d) :
    target? ⟨root, rootModule, t'⟩ module f shape = some d := by
  cases shape with
  | name name => exact NameTable.lookup_of_addsModules hadds htidy ht ht' h
  | member object name =>
      simp only [target?, NameTable.lookup_eq_of_addsModules hadds htidy ht ht' hf hmodule] at h ⊢
      split at h
      next => cases h
      next hobject =>
        obtain ⟨i, hi, hd⟩ := Option.bind_eq_some_iff.1 h
        rw [if_neg hobject, hi]
        exact NameTable.lookup_of_addsModules hadds htidy ht ht' hd

end

/-- A file keeps its references in the larger project, and may get more. -/
lemma Scope.exists_sublist_of_addsModules {root : Path} {rootModule : String}
    {files more all : List SourceFile} (hadds : AddsModules root rootModule files more all)
    (hparsed : ∀ f ∈ all, f.Parsed) {t t' : NameTable}
    (ht : NameTable.ofFiles root rootModule files = .ok t)
    (ht' : NameTable.ofFiles root rootModule all = .ok t') {f : SourceFile} (hf : f ∈ files)
    {refs : List Reference} (h : resolve ⟨root, rootModule, t⟩ f = .ok refs) :
    ∃ refs', resolve ⟨root, rootModule, t'⟩ f = .ok refs' ∧ refs.Sublist refs' := by
  have htidy : ∀ f ∈ all, f.Tidy := fun f hf => (hparsed f hf).tidy
  have hids : f.tree.DistinctIds := (hparsed f (hadds.sublist.subset hf)).distinctIds
  obtain ⟨module, hmodule, -⟩ := resolve_eq_ok_iff.1 h
  obtain ⟨refs', hrefs'⟩ := exists_resolve_of_resolve t' h
  refine ⟨refs', hrefs', ?_⟩
  rw [eq_flatMap_of_resolve (s := ⟨root, rootModule, t⟩) hids hmodule h,
    eq_flatMap_of_resolve (s := ⟨root, rootModule, t'⟩) hids hmodule hrefs']
  refine List.Sublist.flatMap_right _ fun v _ => ?_
  -- A node that referred to nothing has no references to keep.
  cases htarget : (Go.shape? v.2 v.1.getLast?).bind (target? ⟨root, rootModule, t⟩ module f) with
  | none =>
      rw [referencesAt, htarget]
      exact List.nil_sublist _
  | some d =>
      obtain ⟨shape, hshape, hd⟩ := Option.bind_eq_some_iff.1 htarget
      have hd' := target?_of_addsModules hadds htidy ht ht' hf hmodule hd
      rw [referencesAt_congr hshape (hd.trans hd'.symm)]

/-! ## Analyses -/

namespace Analysis

/-- **New modules do not kill live code.**  Files are added to a project in modules of their own, in
any place between its files.  Then every file of the project keeps its references, what is live in
the project stays live, and a declaration of the project is replaced in the collisions in which it
was replaced before and in no other.  The tables exist, and so do the analyses, if methods are
declared at the top level only. -/
theorem live_of_addsModules {root : Path} {rootModule : String} {files more all : List SourceFile}
    (hparsed : ∀ f ∈ all, f.Parsed) (hbelow : ∀ f ∈ all, root.components <+: f.path.components)
    (hadds : AddsModules root rootModule files more all) :
    ∃ t t', NameTable.ofFiles root rootModule files = .ok t ∧
      NameTable.ofFiles root rootModule all = .ok t' ∧
      (∀ f ∈ files, ∀ refs, Scope.resolve ⟨root, rootModule, t⟩ f = .ok refs →
        ∃ refs', Scope.resolve ⟨root, rootModule, t'⟩ f = .ok refs' ∧ refs.Sublist refs') ∧
      (∀ d, Extracted files d → ∀ c : Collision, c.replaced.same d →
        (c ∈ t'.collisions ↔ c ∈ t.collisions)) ∧
      (∀ a b, ofFiles root rootModule files = .ok a → ofFiles root rootModule all = .ok b →
        ∀ d, a.Live d → b.Live d) ∧
      ((∀ f ∈ all, MethodsAtTop f.tree) →
        ∃ a b, ofFiles root rootModule files = .ok a ∧ ofFiles root rootModule all = .ok b) := by
  have hbelowFiles := hadds.forall_mem hbelow
  obtain ⟨t, ht⟩ := NameTable.exists_ofFiles rootModule hbelowFiles
  obtain ⟨t', ht'⟩ := NameTable.exists_ofFiles rootModule hbelow
  have hreferences : ∀ f ∈ files, ∀ refs, Scope.resolve ⟨root, rootModule, t⟩ f = .ok refs →
      ∃ refs', Scope.resolve ⟨root, rootModule, t'⟩ f = .ok refs' ∧ refs.Sublist refs' :=
    fun f hf refs hrefs => Scope.exists_sublist_of_addsModules hadds hparsed ht ht' hf hrefs
  refine ⟨t, t', ht, ht', hreferences, ?_, ?_, ?_⟩
  · rintro d ⟨f, hf, hd⟩ c hsame
    exact NameTable.mem_collisions_of_addsModules hadds (fun g hg => (hparsed g hg).tidy) ht ht' hf
      hd hsame
  · intro a b ha hb d hd
    obtain ⟨_, hassembled⟩ := assembled_of_ofFiles (hadds.forall_mem hparsed) ha
    obtain ⟨_, hassembled'⟩ := assembled_of_ofFiles hparsed hb
    refine (within_of_resolves hassembled hassembled' (fun f hf => hadds.sublist.subset hf)
      fun f hf r hr => ?_).live hassembled hassembled' hd
    obtain ⟨refs, hrefs, hmem⟩ := hr
    rw [scope_of_ofFiles ha ht] at hrefs
    obtain ⟨refs', hrefs', hsublist⟩ := hreferences f hf refs hrefs
    refine ⟨refs', ?_, hsublist.subset hmem⟩
    rw [scope_of_ofFiles hb ht']
    exact hrefs'
  · intro hmethods
    obtain ⟨a, ha⟩ := exists_ofFiles rootModule (hadds.forall_mem hparsed) hbelowFiles
      (hadds.forall_mem hmethods)
    obtain ⟨b, hb⟩ := exists_ofFiles rootModule hparsed hbelow hmethods
    exact ⟨a, b, ha, hb⟩

namespace Sample

open Scope.Sample (caller callee stranger)

lemma addsModules :
    AddsModules Scope.Sample.root "m" [caller] [stranger, callee] [stranger, caller, callee] where
  sublist := .cons _ (.cons_cons _ (List.nil_sublist _))
  perm := .swap _ _ _
  fresh := by
    have hcaller : Module.ofFile Scope.Sample.root "m" caller.path = .ok "m" := rfl
    have hstranger : Module.ofFile Scope.Sample.root "m" stranger.path = .ok "m/x" := rfl
    have hcallee : Module.ofFile Scope.Sample.root "m" callee.path = .ok "m/u" := rfl
    simp [hcaller, hstranger, hcallee]

/-- The caller calls `run` outside of all declarations. -/
lemma exists_live_run {a : Analysis} (ha : ofFiles Scope.Sample.root "m" [caller] = .ok a) :
    ∃ d ∈ caller.declarations, d.name = "run" ∧ a.Live d := by
  have hcaller : ∀ f ∈ [caller], f.Parsed :=
    List.forall_mem_singleton.2 (Scope.Sample.parsed _ List.mem_cons_self)
  obtain ⟨references, hassembled⟩ := assembled_of_ofFiles hcaller ha
  have hreference : ∃ r ∈ Scope.referencesOf Scope.Sample.root "m" [caller] "m" caller,
      r.source.isFileRoot = true ∧ r.target ∈ caller.declarations ∧ r.target.name = "run" := by
    decide
  obtain ⟨r, hr, hroot, htarget, hname⟩ := hreference
  have hmodule : Module.ofFile Scope.Sample.root "m" caller.path = .ok "m" := rfl
  obtain ⟨_, -, _, -, rfl⟩ := ofFiles_eq_ok_iff.1 ha
  have hresolves := (hassembled.resolves_iff List.mem_cons_self hmodule).2 hr
  exact ⟨r.target, htarget, hname, hassembled.live_of_root List.mem_cons_self hresolves hroot⟩

end Sample

/-- The function that the caller of the small project calls stays live among the files of two more
modules, one of which the caller imports. -/
theorem live_of_addsModules_sample :
    ∃ a b, ofFiles Scope.Sample.root "m" [Scope.Sample.caller] = .ok a ∧
      ofFiles Scope.Sample.root "m"
        [Scope.Sample.stranger, Scope.Sample.caller, Scope.Sample.callee] = .ok b ∧
      ∃ d ∈ Scope.Sample.caller.declarations, d.name = "run" ∧ a.Live d ∧ b.Live d := by
  have hparsed : ∀ f ∈ [Scope.Sample.stranger, Scope.Sample.caller, Scope.Sample.callee],
      f.Parsed := List.forall_mem_cons.2 ⟨Scope.Sample.parsed_stranger, Scope.Sample.parsed⟩
  have hmethods : ∀ f ∈ [Scope.Sample.stranger, Scope.Sample.caller, Scope.Sample.callee],
      MethodsAtTop f.tree :=
    List.forall_mem_cons.2 ⟨Scope.Sample.methodsAtTop_stranger, Scope.Sample.methodsAtTop⟩
  obtain ⟨t, t', -, -, -, -, hlive, hexists⟩ :=
    live_of_addsModules hparsed (by decide) Sample.addsModules
  obtain ⟨a, b, ha, hb⟩ := hexists hmethods
  obtain ⟨d, hd, hname, hd'⟩ := Sample.exists_live_run ha
  exact ⟨a, b, ha, hb, d, hd, hname, hd', hlive a b ha hb d hd'⟩

end Analysis

end GoReach
