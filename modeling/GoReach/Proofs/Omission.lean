import Mathlib.Data.List.Induction
import GoReach.Proofs.Targets

/-!
# What files take away that were left out

Some files of a project can be left out of its analysis, as its tests are unless they are asked for.
Two analyses are compared: that of the files that are kept, and that of all files.

What a name finds is changed by a file that was left out only if that file declares the name and
comes last in its module (`NameTable.lookup_eq_or_omitted`).  So a reference is lost in one of two
ways (`Scope.TakenBy`): its target loses its name, or the name of the import by which it was found
gets a meaning in the module.  Every other reference stays (`Scope.resolves_or_takenBy`).

What was live becomes unreachable only behind such a reference.  On the way to it from an entrypoint
there is a first reference that was lost, and up to there nothing has become unreachable
(`Analysis.spares_or_lost`).
-/

namespace GoReach

open GoReach.Go (SourceFile Shape WellNamed)
open GoReach.Go.SourceFile (MethodsAtTop)
open GoReach.Syntax (Node)

/-! ## Names -/

/-- The last result over a list is the last one over a selection, unless an element that was not
selected gives it. -/
lemma getLast?_filterMap_filter {α β : Type} (f : α → Option β) (p : α → Bool) (as : List α) :
    (as.filterMap f).getLast? = ((as.filter p).filterMap f).getLast? ∨
      ∃ a ∈ as, p a = false ∧ ∃ b, f a = some b ∧ (as.filterMap f).getLast? = some b := by
  induction as using List.reverseRecOn with
  | nil => exact Or.inl rfl
  | append_singleton as a ih =>
      cases hfa : f a with
      | none =>
          have hskip : ((as ++ [a]).filter p).filterMap f = (as.filter p).filterMap f := by
            cases hpa : p a <;> simp [List.filter_append, hpa, hfa]
          rw [hskip, List.filterMap_append, List.filterMap_cons_none hfa, List.filterMap_nil,
            List.append_nil]
          refine ih.imp_right ?_
          rintro ⟨x, hx, hpx⟩
          exact ⟨x, List.mem_append_left _ hx, hpx⟩
      | some b =>
          -- The last element decides, in the selection as well if it belongs to it.
          cases hpa : p a with
          | true => exact Or.inl (by simp [List.filter_append, hpa, hfa])
          | false =>
              exact Or.inr ⟨a, List.mem_append_right _ (List.mem_singleton_self a), hpa, b, hfa,
                by simp [hfa]⟩

section

variable {root : Path} {rootModule : String} {files : List SourceFile} {keep : SourceFile → Bool}
  {t t' : NameTable}

/-- A name finds the same among all files, unless a file that was left out declares what it
finds. -/
lemma NameTable.lookup_eq_or_omitted (htidy : ∀ f ∈ files, f.Tidy)
    (ht : ofFiles root rootModule (files.filter keep) = .ok t)
    (ht' : ofFiles root rootModule files = .ok t') (module name : String) :
    t'.lookup module name = t.lookup module name ∨
      ∃ g ∈ files, keep g = false ∧ Module.ofFile root rootModule g.path = .ok module ∧
        ∃ e ∈ g.declarations, e.name = name ∧ t'.lookup module name = some e := by
  rw [lookup_ofFiles htidy ht', lookup_ofFiles (fun f hf => htidy f (List.mem_filter.1 hf).1) ht,
    declarationsOf, declarationsOf, List.filter_comm]
  refine (getLast?_filterMap_filter _ keep _).imp_right ?_
  rintro ⟨g, hg, hkeep, e, he, hlast⟩
  rw [List.mem_filter, Module.holds_iff] at hg
  obtain ⟨hdeclared, hname⟩ := (htidy g hg.1).declaration?_eq_some_iff.1 he
  exact ⟨g, hg.1, hkeep, hg.2, e, hdeclared, hname, hlast⟩

end

/-! ## References -/

namespace Scope

/-- How a file takes a reference away from another file: it is found by the name of the target, or
it gives a meaning to the name of the import that led to the target. -/
inductive TakenBy (s s' : Scope) (f : SourceFile) (r : Reference) (g : SourceFile) : Prop where
  | name {module : String} {e : Declaration}
      (target : Module.ofFile s.root s.rootModule r.target.file = .ok module)
      (taker : Module.ofFile s.root s.rootModule g.path = .ok module)
      (declares : e ∈ g.declarations) (name_eq : e.name = r.target.name)
      (found : s'.table.lookup module r.target.name = some e)
  | importName {module : String} {i : Import} {e : Declaration} (imports : i ∈ f.imports)
      (target : Module.ofFile s.root s.rootModule r.target.file = .ok i.path)
      (own : Module.ofFile s.root s.rootModule f.path = .ok module)
      (taker : Module.ofFile s.root s.rootModule g.path = .ok module)
      (declares : e ∈ g.declarations) (name_eq : e.name = i.name)
      (unknown : s.table.lookup module i.name = none)

section

variable {root : Path} {rootModule module : String} {files : List SourceFile}
  {keep : SourceFile → Bool} {t t' : NameTable}
  (ht : NameTable.ofFiles root rootModule (files.filter keep) = .ok t)
  (ht' : NameTable.ofFiles root rootModule files = .ok t') {f : SourceFile}

include ht ht'

/-- What a shape refers to, it refers to among all files, or it was taken away. -/
lemma target?_or_takenBy (htidy : ∀ f ∈ files, f.Tidy)
    (hmodule : Module.ofFile root rootModule f.path = .ok module) {shape : Shape} {r : Reference}
    (h : target? ⟨root, rootModule, t⟩ module f shape = some r.target) :
    target? ⟨root, rootModule, t'⟩ module f shape = some r.target ∨
      ∃ g ∈ files, keep g = false ∧
        TakenBy ⟨root, rootModule, t⟩ ⟨root, rootModule, t'⟩ f r g := by
  have hlookup := NameTable.lookup_eq_or_omitted htidy ht ht'
  -- Looking up the name of the target finds it, or a file that takes it away.
  have hfound : ∀ {m name : String}, t.lookup m name = some r.target →
      t'.lookup m name = some r.target ∨ ∃ g ∈ files, keep g = false ∧
        TakenBy ⟨root, rootModule, t⟩ ⟨root, rootModule, t'⟩ f r g := by
    intro m name hname
    obtain ⟨htarget, rfl⟩ :=
      NameTable.ofFile_of_lookup (fun f hf => htidy f (List.mem_filter.1 hf).1) ht hname
    rcases hlookup m r.target.name with heq | ⟨g, hg, hkeep, hgm, e, he, hname, hlast⟩
    · exact Or.inl (heq.trans ‹_›)
    · exact Or.inr ⟨g, hg, hkeep, .name htarget hgm he hname hlast⟩
  cases shape with
  | name name => exact hfound h
  | member object name =>
      simp only [target?] at h ⊢
      split at h
      next => cases h
      next hobject =>
        obtain ⟨i, hi, htarget⟩ := Option.bind_eq_some_iff.1 h
        have hunknown : t.lookup module object = none := by simpa using hobject
        rcases hlookup module object with heq | ⟨g, hg, hkeep, hgm, e, he, hname, -⟩
        · rw [heq, if_neg hobject, hi]
          exact hfound htarget
        · rw [SourceFile.import?] at hi
          have hobject : i.name = object := by simpa using List.find?_some hi
          have hpath := (NameTable.ofFile_of_lookup
            (fun f hf => htidy f (List.mem_filter.1 hf).1) ht htarget).1
          exact Or.inr ⟨g, hg, hkeep, .importName (List.mem_of_find?_eq_some hi) hpath hmodule hgm
            he (hname.trans hobject.symm) (hobject ▸ hunknown)⟩

/-- A reference of a file is one among all files, or it was taken away. -/
lemma resolves_or_takenBy (hparsed : ∀ f ∈ files, f.Parsed) (hf : f ∈ files) {refs : List Reference}
    (h : resolve ⟨root, rootModule, t⟩ f = .ok refs) {r : Reference} (hr : r ∈ refs) :
    (∃ refs', resolve ⟨root, rootModule, t'⟩ f = .ok refs' ∧ r ∈ refs') ∨
      ∃ g ∈ files, keep g = false ∧
        TakenBy ⟨root, rootModule, t⟩ ⟨root, rootModule, t'⟩ f r g := by
  have hids := (hparsed f hf).distinctIds
  obtain ⟨module, hmodule, -⟩ := resolve_eq_ok_iff.1 h
  obtain ⟨refs', hrefs'⟩ := exists_resolve_of_resolve t' h
  rw [eq_flatMap_of_resolve (s := ⟨root, rootModule, t⟩) hids hmodule h] at hr
  obtain ⟨v, hv, hr⟩ := List.mem_flatMap.1 hr
  obtain ⟨-, -, shape, hshape, htarget⟩ := mem_referencesAt hr
  refine (target?_or_takenBy ht ht' (fun g hg => (hparsed g hg).tidy) hmodule htarget).imp_left ?_
  intro htarget'
  refine ⟨refs', hrefs', ?_⟩
  rw [eq_flatMap_of_resolve (s := ⟨root, rootModule, t'⟩) hids hmodule hrefs']
  rw [referencesAt_congr hshape (htarget.trans htarget'.symm)] at hr
  exact List.mem_flatMap.2 ⟨v, hv, hr⟩

end

end Scope

/-! ## Analyses -/

/-- An analysis without tests is that of the files of an analysis with tests that are no tests. -/
lemma Disk.exists_files_of_analyze_tests {parser : Go.Parser} {d : Disk} {o : SearchOptions}
    {path : Path} {a b : Analysis} (hproper : d.root.Proper)
    (ha : d.analyze parser { o with includeTests := false } path = .ok a)
    (hb : d.analyze parser { o with includeTests := true } path = .ok b) :
    ∃ paths files, d.search { o with includeTests := true } b.root = .ok paths ∧
      paths.mapM (d.readSource parser) = .ok files ∧
      d.search { o with includeTests := false } b.root = .ok (paths.filter (!isTest ·)) ∧
      (∀ f ∈ files, f.Parsed) ∧
      Analysis.ofFiles b.root b.rootModule (files.filter fun f => !isTest f.path) = .ok a ∧
      Analysis.ofFiles b.root b.rootModule files = .ok b := by
  obtain ⟨hroot, hmodule⟩ := root_of_analyze hb
  obtain ⟨hroot', hmodule'⟩ := root_of_analyze ha
  obtain ⟨paths, files, hsearch, hread, -, hparsed, hb⟩ := exists_files_of_analyze hb
  obtain ⟨paths', files', hsearch', hread', -, -, ha⟩ := exists_files_of_analyze ha
  -- The two runs agree on the root and on its module.
  have hrooteq : a.root = b.root := Except.ok.inj (hroot'.symm.trans hroot)
  rw [hrooteq] at hmodule' hsearch' ha
  have hmoduleeq : a.rootModule = b.rootModule := Except.ok.inj (hmodule'.symm.trans hmodule)
  rw [hmoduleeq] at ha
  have hwithout := search_withoutTests hproper hsearch
  obtain rfl : paths' = paths.filter (!isTest ·) := Except.ok.inj (hsearch'.symm.trans hwithout)
  have hkept : (paths.filter (!isTest ·)).mapM (d.readSource parser)
      = .ok (files.filter fun f => !isTest f.path) := by
    refine mapM_filter (fun p f hf => ?_) hread
    rw [(path_eq_of_readSource hf).1]
  obtain rfl : files' = files.filter fun f => !isTest f.path :=
    Except.ok.inj (hread'.symm.trans hkept)
  exact ⟨paths, files, hsearch, hread, hwithout, hparsed, ha, hb⟩

namespace Analysis

/-- The declaration is not reported as unreachable. -/
def Spares (a : Analysis) (d : Declaration) : Prop := ∀ x ∈ a.unreachable, ¬ x.same d

lemma Spares.of_same {a : Analysis} {d e : Declaration} (h : a.Spares d) (hsame : d.same e) :
    a.Spares e :=
  fun x hx hxe => h x hx (Declaration.same_trans hxe (Declaration.same_symm hsame))

lemma Live.spares {a : Analysis} {d : Declaration} (h : a.Live d) : a.Spares d := h.2

/-- Some way through the graph leads from a declaration to another one. -/
def Leads (a : Analysis) (x y : Declaration) : Prop :=
  ∃ n ∈ a.graph.nodes.toList, ∃ m ∈ a.graph.nodes.toList,
    n.same x ∧ m.same y ∧ a.graph.Reaches n m

/-- A reference of something live is not there in another analysis, which spares its source. -/
structure Lost (a b : Analysis) (f : SourceFile) (r : Reference) : Prop where
  resolved : a.Resolves f r
  unresolved : ¬ b.Resolves f r
  live : a.Live r.source
  spared : b.Spares r.source

section

variable {a b : Analysis} {files files' : List SourceFile} {references references' : List Reference}
  (ha : a.Assembled files references) (hb : b.Assembled files' references')
  (hfiles : ∀ f ∈ files, f ∈ files')

include ha hb hfiles

lemma spares_of_entrypoint (hnames : ∀ f ∈ files', ∀ d ∈ f.declarations, d.name ≠ "")
    {e : Declaration} (he : e ∈ a.entrypoints) : b.Spares e := by
  rcases mem_markedOf.1 (ha.records.mem_marked e he) with ⟨f, hf, hentry⟩ | ⟨r, -, hroot, rfl⟩
  · exact (hb.live_of_marked (mem_markedOf.2 (Or.inl ⟨f, hfiles f hf, hentry⟩))).spares
  · -- No file root is unreachable, whether or not it still refers to something.
    intro x hx hsame
    have hname : x.name = r.source.name :=
      congrArg Declaration.Key.name (Declaration.same_iff.1 hsame)
    have hx := hb.not_fileRoot_of_unreachable hnames hx
    rw [Declaration.isFileRoot, hname] at hx
    rw [Declaration.isFileRoot, hx] at hroot
    cases hroot

/-- An edge leads to something that is spared, or stands for a reference that was lost. -/
lemma spares_or_lost_of_edge {x y : Declaration} (hxy : (x, y) ∈ a.graph.edgeList)
    (hlive : a.Live x) (hx : b.Spares x) :
    b.Spares y ∨ ∃ f ∈ files, ∃ r, a.Lost b f r ∧ r.target.same y := by
  have hedge : a.graph.containsEdge x y = true :=
    ha.consistent.containsEdge_iff.2 ⟨_, hxy, rfl, rfl⟩
  obtain ⟨f, hf, r, hr, hsource, htarget⟩ := (ha.containsEdge_iff x y).1 hedge
  have hspared : b.Spares r.source := hx.of_same (Declaration.same_symm hsource)
  by_cases hr' : b.Resolves f r
  · have hnode := hb.containsNode_of_known (hb.known_source (hfiles f hf) hr')
    exact Or.inl
      ((hb.live_of_resolves (hfiles f hf) hr' ⟨hnode, hspared⟩).spares.of_same htarget)
  · exact Or.inr ⟨f, hf, r, ⟨hr, hr', ha.live_of_same hsource hlive, hspared⟩, htarget⟩

/-- What is live is spared by a larger analysis, unless a reference was lost on the way to it. -/
lemma spares_or_lost (hnames : ∀ f ∈ files', ∀ d ∈ f.declarations, d.name ≠ "") {d : Declaration}
    (hd : a.Live d) :
    b.Spares d ∨ ∃ f ∈ files, ∃ r, a.Lost b f r ∧ a.Leads r.target d := by
  obtain ⟨n, hn, hkey, e, he, start, hstart, hse, hreach⟩ := ha.live_iff.1 hd
  -- Follow the way from the entrypoint, up to the first reference that was lost.
  have hway : ∀ m, a.graph.Reaches start m →
      b.Spares m ∨ ∃ f ∈ files, ∃ r, a.Lost b f r ∧ ∃ n ∈ a.graph.nodes.toList,
        n.same r.target ∧ a.graph.Reaches n m := by
    intro m hm
    induction hm with
    | refl =>
        exact Or.inl ((spares_of_entrypoint ha hb hfiles hnames he).of_same
          (Declaration.same_symm hse))
    | @tail x y hx hxy ih =>
        rcases ih with hspared | ⟨f, hf, r, hlost, n, hn, hsame, hreaches⟩
        · obtain ⟨hxnode, hynode⟩ := ReferenceGraph.mem_nodes_of_mem_edgeList hxy
          have hlive : a.Live x := ha.live_iff.2 ⟨x, hxnode, rfl, e, he, start, hstart, hse, hx⟩
          rcases spares_or_lost_of_edge ha hb hfiles hxy hlive hspared with
            hy | ⟨f, hf, r, hlost, htarget⟩
          · exact Or.inl hy
          · exact Or.inr ⟨f, hf, r, hlost, y, hynode, Declaration.same_symm htarget, .refl⟩
        · exact Or.inr ⟨f, hf, r, hlost, n, hn, hsame, hreaches.tail hxy⟩
  have hsame : n.same d := Declaration.same_iff.2 hkey
  rcases hway n hreach with hspared | ⟨f, hf, r, hlost, m, hm, htarget, hreaches⟩
  · exact Or.inl (hspared.of_same hsame)
  · exact Or.inr ⟨f, hf, r, hlost, m, hm, n, hn, htarget, hsame, hreaches⟩

end

/-- On the way to the declaration a reference was lost to a file that had been left out. -/
def CutOff (a b : Analysis) (files : List SourceFile) (keep : SourceFile → Bool)
    (d : Declaration) : Prop :=
  ∃ f ∈ files, keep f = true ∧ ∃ r, a.Lost b f r ∧ a.Leads r.target d ∧
    ∃ g ∈ files, keep g = false ∧ Scope.TakenBy a.scope b.scope f r g

/-- A file that was left out declares no name that a file of its module declares or imports
something by. -/
def NamesApart (root : Path) (rootModule : String) (files : List SourceFile)
    (keep : SourceFile → Bool) : Prop :=
  ∀ f ∈ files, keep f = true → ∀ g ∈ files, keep g = false →
    Module.ofFile root rootModule g.path = Module.ofFile root rootModule f.path →
    ∀ e ∈ g.declarations, (∀ d ∈ f.declarations, d.name ≠ e.name) ∧ ∀ i ∈ f.imports, i.name ≠ e.name

/-- What is live in the analysis of the files that are kept is spared in that of all files, unless
it was cut off; and nothing was cut off if the names are apart. -/
structure KeepsLive (a b : Analysis) (files : List SourceFile) (keep : SourceFile → Bool) :
    Prop where
  spares_or_cutOff : ∀ d, a.Live d → b.Spares d ∨ a.CutOff b files keep d
  spares_of_namesApart : NamesApart b.root b.rootModule files keep → ∀ d, a.Live d → b.Spares d

section

variable {root : Path} {rootModule : String} {files : List SourceFile} {keep : SourceFile → Bool}
  {a b : Analysis} (hparsed : ∀ f ∈ files, f.Parsed)
  (ha : ofFiles root rootModule (files.filter keep) = .ok a)

include hparsed ha

/-- Nothing is cut off if the names are apart. -/
lemma not_cutOff_of_namesApart (hapart : NamesApart root rootModule files keep) (d : Declaration) :
    ¬ a.CutOff b files keep d := by
  rintro ⟨f, hf, hkeep, r, hlost, -, g, hg, hgkeep, htaken⟩
  obtain ⟨_, hassembled⟩ :=
    assembled_of_ofFiles (fun f hf => hparsed f (List.mem_filter.1 hf).1) ha
  obtain ⟨-, ⟨h, hh, htarget⟩, -⟩ :=
    hassembled.spec_of_resolves (List.mem_filter.2 ⟨hf, hkeep⟩) hlost.resolved
  have hfile : r.target.file = h.path := (hassembled.parsed h hh).tidy.file_eq _ htarget
  rw [List.mem_filter] at hh
  obtain ⟨t, ht, -⟩ := ofFiles_eq_ok_iff.1 ha
  rw [scope_of_ofFiles ha ht] at htaken
  cases htaken with
  | name hmodule htaker hdeclares hname =>
      rw [hfile] at hmodule
      exact (hapart h hh.1 hh.2 g hg hgkeep (htaker.trans hmodule.symm) _ hdeclares).1 _ htarget
        hname.symm
  | importName himports _ hown htaker hdeclares hname =>
      exact (hapart f hf hkeep g hg hgkeep (htaker.trans hown.symm) _ hdeclares).2 _ himports
        hname.symm

variable (hb : ofFiles root rootModule files = .ok b)
  (hnames : ∀ f ∈ files, ∀ x ∈ f.declarations, x.name ≠ "")

include hb hnames

lemma spares_or_cutOff_of_ofFiles {d : Declaration} (hd : a.Live d) :
    b.Spares d ∨ a.CutOff b files keep d := by
  have hkept : ∀ f ∈ files.filter keep, f ∈ files := fun f hf => (List.mem_filter.1 hf).1
  obtain ⟨_, hassembled⟩ := assembled_of_ofFiles (fun f hf => hparsed f (hkept f hf)) ha
  obtain ⟨_, hassembled'⟩ := assembled_of_ofFiles hparsed hb
  refine (spares_or_lost hassembled hassembled' hkept hnames hd).imp_right ?_
  rintro ⟨f, hf, r, hlost, hleads⟩
  refine ⟨f, hkept f hf, (List.mem_filter.1 hf).2, r, hlost, hleads, ?_⟩
  obtain ⟨t, ht, -⟩ := ofFiles_eq_ok_iff.1 ha
  obtain ⟨t', ht', -⟩ := ofFiles_eq_ok_iff.1 hb
  obtain ⟨refs, hrefs, hr⟩ := hlost.resolved
  rw [scope_of_ofFiles ha ht] at hrefs ⊢
  rw [scope_of_ofFiles hb ht']
  rcases Scope.resolves_or_takenBy ht ht' hparsed (hkept f hf) hrefs hr with hr' | htaken
  · refine absurd ?_ hlost.unresolved
    rw [Resolves, scope_of_ofFiles hb ht']
    exact hr'
  · exact htaken

lemma keepsLive_of_ofFiles : a.KeepsLive b files keep where
  spares_or_cutOff _ := spares_or_cutOff_of_ofFiles hparsed ha hb hnames
  spares_of_namesApart hapart d hd := by
    refine (spares_or_cutOff_of_ofFiles hparsed ha hb hnames hd).resolve_right ?_
    obtain ⟨_, -, _, -, rfl⟩ := ofFiles_eq_ok_iff.1 hb
    exact not_cutOff_of_namesApart hparsed ha hapart d

end

/-- **Tests make live code unreachable only by taking names away.**  What is live among the files
that are kept is not unreachable among all files, unless it was cut off: on the way to it there is a
first reference that was lost, to a file that had been left out and either declares the name of the
target and is found by it, or declares the name of the import that led to the target.  So nothing
becomes unreachable if such files declare no names that others of their modules declare or import
something by.  On a disk, the files that are left out are the tests. -/
theorem live_spared_or_cutOff :
    (∀ {root : Path} {rootModule : String} {files : List SourceFile} {keep : SourceFile → Bool}
      {a b : Analysis}, (∀ f ∈ files, f.Parsed) →
      (∀ f ∈ files, ∀ x ∈ f.declarations, x.name ≠ "") →
      ofFiles root rootModule (files.filter keep) = .ok a → ofFiles root rootModule files = .ok b →
        a.KeepsLive b files keep) ∧
    ∀ {parser : Go.Parser} {d : Disk} {o : SearchOptions} {path : Path} {a b : Analysis},
      d.root.Proper → d.analyze parser { o with includeTests := false } path = .ok a →
      d.analyze parser { o with includeTests := true } path = .ok b →
        ∃ paths files, d.search { o with includeTests := true } b.root = .ok paths ∧
          paths.mapM (d.readSource parser) = .ok files ∧
          d.search { o with includeTests := false } b.root
            = .ok (paths.filter (!Disk.isTest ·)) ∧
          ((∀ f ∈ files, ∀ x ∈ f.declarations, x.name ≠ "") →
            a.KeepsLive b files fun f => !Disk.isTest f.path) := by
  refine ⟨fun hparsed hnames ha hb => keepsLive_of_ofFiles hparsed ha hb hnames, ?_⟩
  intro parser d o path a b hproper ha hb
  obtain ⟨paths, files, hsearch, hread, hwithout, hparsed, ha, hb⟩ :=
    Disk.exists_files_of_analyze_tests hproper ha hb
  exact ⟨paths, files, hsearch, hread, hwithout, keepsLive_of_ofFiles hparsed ha hb⟩

/-! ## A small project with a test -/

namespace Sample

open Scope.Sample (leaf function)

/-- A file with functions, each with the names of those that it calls. -/
def program (path package : String) (functions : List (String × List String)) : SourceFile where
  path := ⟨path⟩
  package
  declarations := functions.map fun f => { file := ⟨path⟩, name := f.1, span := some ⟨1, 1, 1, 1⟩ }
  tree := Node.numberFrom 0 <| .node { kind := "source_file" } <|
    .node { kind := "package_clause" }
      [.node { kind := "package_identifier", text := package } []] ::
      functions.map fun f => function f.1 (f.2.map (leaf "identifier" "function"))

def helper : SourceFile := program "/p/helper.go" "main" [("helper", [])]

def user : SourceFile := program "/p/main.go" "main" [("main", ["helper"])]

/-- A test that calls the helper. -/
def test : SourceFile := program "/p/helper_test.go" "main_test" [("TestHelper", ["helper"])]

/-- A test that calls a helper of its own, which has the same name. -/
def greedyTest : SourceFile :=
  program "/p/helper_test.go" "main_test" [("TestHelper", ["helper"]), ("helper", [])]

lemma parsed_program : ∀ f ∈ [helper, test, greedyTest, user], f.Parsed := by
  simp only [List.forall_mem_cons]
  exact ⟨⟨rfl, Node.distinctIds_numberFrom 0 _⟩, ⟨rfl, Node.distinctIds_numberFrom 0 _⟩,
    ⟨rfl, Node.distinctIds_numberFrom 0 _⟩, ⟨rfl, Node.distinctIds_numberFrom 0 _⟩, by simp⟩

lemma methodsAtTop_program : ∀ f ∈ [helper, test, greedyTest, user], MethodsAtTop f.tree := by
  have hkinds : ∀ f ∈ [helper, test, greedyTest, user], ∀ n ∈ f.tree.nodes,
      n.kind ≠ "method_declaration" := by decide
  exact fun f hf n hn hkind => absurd hkind (hkinds f hf n hn)

/-- Each selection of the files has an analysis. -/
lemma exists_ofFiles_program (files : List SourceFile)
    (hfiles : files ⊆ [helper, test, greedyTest, user]) :
    (∀ f ∈ files, f.Parsed) ∧ ∃ a, ofFiles Scope.Sample.root "m" files = .ok a := by
  have hparsed : ∀ f ∈ files, f.Parsed := fun f hf => parsed_program f (hfiles hf)
  have hbelow : ∀ f ∈ [helper, test, greedyTest, user],
      Scope.Sample.root.components <+: f.path.components := by decide
  exact ⟨hparsed, exists_ofFiles "m" hparsed (fun f hf => hbelow f (hfiles hf))
    fun f hf => methodsAtTop_program f (hfiles hf)⟩

/-- Without a test, `main` calls the helper. -/
lemma exists_live_helper {a : Analysis}
    (ha : ofFiles Scope.Sample.root "m" [helper, user] = .ok a) :
    ∃ d ∈ helper.declarations, d.name = "helper" ∧ a.Live d := by
  have hparsed := (exists_ofFiles_program [helper, user] (by simp)).1
  obtain ⟨references, hassembled⟩ := assembled_of_ofFiles hparsed ha
  have huser : user ∈ [helper, user] := by simp
  have hreference : ∃ r ∈ Scope.referencesOf Scope.Sample.root "m" [helper, user] "m" user,
      (r.source ∈ user.declarations ∧ r.source.isEntrypoint user.package = true) ∧
        r.target ∈ helper.declarations ∧ r.target.name = "helper" := by decide
  obtain ⟨r, hr, ⟨hsource, hentry⟩, htarget, hname⟩ := hreference
  have hmodule : Module.ofFile Scope.Sample.root "m" user.path = .ok "m" := rfl
  obtain ⟨_, -, _, -, rfl⟩ := ofFiles_eq_ok_iff.1 ha
  have hresolves := (hassembled.resolves_iff huser hmodule).2 hr
  have hlive := hassembled.live_of_marked
    (mem_markedOf.2 (Or.inl ⟨user, huser, hsource, hentry⟩))
  exact ⟨r.target, htarget, hname, hassembled.live_of_resolves huser hresolves hlive⟩

/-- The files and the test on a disk, each with its own path for a text. -/
def disk : Disk :=
  Disk.Sample.project [("helper.go", .file "/p/helper.go".toUTF8),
    ("helper_test.go", .file "/p/helper_test.go".toUTF8), ("main.go", .file "/p/main.go".toUTF8)]

lemma read_program : ∀ f ∈ [helper, test, user],
    disk.readSource (.knowing [helper, test, user]) f.path = .ok f :=
  Disk.readSource_knowing [["p", "helper.go"], ["p", "helper_test.go"], ["p", "main.go"]]
    (exists_ofFiles_program _ (by simp)).1 rfl (by decide) (by decide) (by decide) rfl

lemma stores_program :
    disk.Stores (.knowing [helper, test, user]) { includeTests := false } ⟨"/p"⟩ "m"
        [helper, user] ∧
      disk.Stores (.knowing [helper, test, user]) { includeTests := true } ⟨"/p"⟩ "m"
        [helper, test, user] := by
  have hsub : [helper, user] ⊆ [helper, test, user] := by simp
  exact ⟨⟨Disk.Sample.finds_project (by simp +decide [Disk.filesBelow]) (by decide),
      fun f hf => read_program f (hsub hf)⟩,
    ⟨Disk.Sample.finds_project (by simp +decide [Disk.filesBelow]) (by decide), read_program⟩⟩

end Sample

/-- A test that calls the helper and declares nothing else leaves the helper live. -/
theorem live_spared_or_cutOff_sample :
    ∃ a b, ofFiles Scope.Sample.root "m" [Sample.helper, Sample.user] = .ok a ∧
      ofFiles Scope.Sample.root "m" [Sample.helper, Sample.test, Sample.user] = .ok b ∧
      Sample.disk.analyze (.knowing [Sample.helper, Sample.test, Sample.user])
        { includeTests := false } ⟨"/p"⟩ = .ok a ∧
      Sample.disk.analyze (.knowing [Sample.helper, Sample.test, Sample.user])
        { includeTests := true } ⟨"/p"⟩ = .ok b ∧
      a.KeepsLive b [Sample.helper, Sample.test, Sample.user] (fun f => !Disk.isTest f.path) ∧
      ∃ d ∈ Sample.helper.declarations, a.Live d ∧ b.Spares d := by
  obtain ⟨-, a, ha⟩ := Sample.exists_ofFiles_program [Sample.helper, Sample.user] (by simp)
  obtain ⟨hparsed, b, hb⟩ :=
    Sample.exists_ofFiles_program [Sample.helper, Sample.test, Sample.user] (by simp)
  have hkeeps : a.KeepsLive b [Sample.helper, Sample.test, Sample.user]
      fun f => !Disk.isTest f.path := live_spared_or_cutOff.1 hparsed (by decide) ha hb
  have hanalyze := Sample.stores_program.1.analyze_eq.trans ha
  have hanalyze' := Sample.stores_program.2.analyze_eq.trans hb
  obtain ⟨paths, files, hsearch, hread, -, hstored⟩ :=
    live_spared_or_cutOff.2 (o := {}) (by decide) hanalyze hanalyze'
  obtain rfl := Sample.stores_program.2.files_eq hanalyze' hsearch hread
  obtain ⟨d, hd, -, hlive⟩ := Sample.exists_live_helper ha
  refine ⟨a, b, ha, hb, hanalyze, hanalyze', hkeeps, d, hd, hlive,
    (hstored (by decide)).spares_of_namesApart ?_ d hlive⟩
  intro f hf hkeep g hg htest _ e he
  have hapart : ∀ f ∈ [Sample.helper, Sample.test, Sample.user], (!Disk.isTest f.path) = true →
      ∀ g ∈ [Sample.helper, Sample.test, Sample.user], (!Disk.isTest g.path) = false →
        ∀ e ∈ g.declarations, (∀ d ∈ f.declarations, d.name ≠ e.name) ∧
          ∀ i ∈ f.imports, i.name ≠ e.name := by decide
  exact hapart f hf hkeep g hg htest e he

/-- A test that declares a helper of its own takes the name away: the helper that `main` calls is
live without the test, and unreachable with it. -/
theorem live_helper_unreachable_with_test :
    ([Sample.helper, Sample.greedyTest, Sample.user].map SourceFile.path).Pairwise
        (fun p q => Path.compare p q = .lt) ∧
      ∃ a b,
        ofFiles Scope.Sample.root "m"
          ([Sample.helper, Sample.greedyTest, Sample.user].filter fun f => !Disk.isTest f.path)
            = .ok a ∧
        ofFiles Scope.Sample.root "m" [Sample.helper, Sample.greedyTest, Sample.user] = .ok b ∧
        ∃ d ∈ Sample.helper.declarations, a.Live d ∧ d ∈ b.unreachable := by
  obtain ⟨-, a, ha⟩ := Sample.exists_ofFiles_program [Sample.helper, Sample.user] (by simp)
  obtain ⟨hparsed, b, hb⟩ :=
    Sample.exists_ofFiles_program [Sample.helper, Sample.greedyTest, Sample.user] (by simp)
  obtain ⟨d, hd, hname, hlive⟩ := Sample.exists_live_helper ha
  refine ⟨by decide, a, b, ha, hb, d, hd, hlive, ?_⟩
  have hnamed : ∀ f ∈ [Sample.helper, Sample.greedyTest, Sample.user], WellNamed f.tree := by decide
  obtain ⟨_, hassembled⟩ := assembled_of_ofFiles hparsed hb
  have hwin := hassembled.targetsWin (by decide) hnamed
  -- The helper is no entrypoint, so that only a reference could make it live.
  have hentry : ∀ x ∈ b.entrypoints, x.name ≠ "helper" := by
    intro x hx hname
    rcases hassembled.mem_entrypoints (hassembled.name_ne_empty hnamed) hx with
      ⟨f, hf, hx, hentry⟩ | ⟨f, -, rfl, -⟩
    · have hnone : ∀ f ∈ [Sample.helper, Sample.greedyTest, Sample.user], ∀ x ∈ f.declarations,
          x.name = "helper" → x.isEntrypoint f.package = false := by decide
      rw [hnone f hf x hx hname] at hentry
      cases hentry
    · simp [Declaration.fileRoot] at hname
  have hhelper : Module.ofFile Scope.Sample.root "m" Sample.helper.path = .ok "m" := rfl
  have htest : Module.ofFile Scope.Sample.root "m" Sample.greedyTest.path = .ok "m" := rfl
  have hagain : ∃ e ∈ Sample.greedyTest.declarations, e.name = "helper" := by decide
  obtain ⟨e, he, hename⟩ := hagain
  obtain ⟨_, -, _, -, rfl⟩ := ofFiles_eq_ok_iff.1 hb
  refine hwin.overridden_unreachable Sample.helper Sample.greedyTest "m" (by simp) hhelper htest d
    hd e he (hename.trans hname.symm) fun x hx hsame => hentry x hx ?_
  exact (congrArg Declaration.Key.name (Declaration.same_iff.1 hsame)).trans hname

end Analysis

end GoReach
