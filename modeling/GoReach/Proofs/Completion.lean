import GoReach.Proofs.Report.Summary
import GoReach.Proofs.Targets
import GoReach.Report.Dot
import GoReach.Report.Listing

/-!
# Which analyses come to an end

Once the root, its module and the paths of its files are known, an analysis reads the files one
after the other.  A file is accepted if its text can be read, has no error in it and can be
understood (`Disk.Accepts`); otherwise it is rejected, with one error (`Disk.Rejects`).  Nothing
after the reading can fail: all files lie below the root, so that they have a module, and the names
of methods could be made out when the files were read.  So an analysis succeeds if all files are
accepted, and otherwise fails with the error of the first that is not (`Disk.analyze_completes`).

Every declaration of an analysis lies in one of its files, and therefore below the root
(`Analysis.AllBelow`).  So all reports can be made of it (`Analysis.Reportable`).
-/

namespace GoReach

open GoReach.Go (SourceFile)
open GoReach.Go.SourceFile (MethodsAtTop)
open GoReach.Syntax (Node)

/-- A file below the root can be seen from it. -/
lemma exists_relativePath {file root : Path} (h : root.components <+: file.components) :
    ∃ p, relativePath file root = .ok p := by
  obtain ⟨p, hp⟩ := Path.exists_below?_iff.2 h
  exact ⟨p, by rw [relativePath, hp]⟩

/-! ## Reports -/

namespace Report.Dot

/-- Adding a declaration to the clusters adds no file but that of the declaration. -/
lemma file_of_mem_addToCluster {d : Declaration} {cs : List Cluster} {c : Cluster}
    (h : c ∈ addToCluster d cs) : c.file = d.file ∨ ∃ c' ∈ cs, c.file = c'.file := by
  induction cs with
  | nil =>
      rw [addToCluster, List.mem_singleton] at h
      exact Or.inl (congrArg Cluster.file h)
  | cons first rest ih =>
      rw [addToCluster] at h
      split at h
      · rcases List.mem_cons.1 h with rfl | h
        · exact Or.inl rfl
        · exact Or.inr ⟨c, h, rfl⟩
      · rcases List.mem_cons.1 h with rfl | h
        · exact Or.inr ⟨first, List.mem_cons_self, rfl⟩
        · exact Or.inr ⟨c, List.mem_cons_of_mem _ h, rfl⟩
      · rcases List.mem_cons.1 h with rfl | h
        · exact Or.inr ⟨c, List.mem_cons_self, rfl⟩
        · refine (ih h).imp_right ?_
          rintro ⟨c', hc', heq⟩
          exact ⟨c', List.mem_cons_of_mem _ hc', heq⟩

/-- The file of a cluster is that of some node. -/
lemma exists_node_of_mem_clusters {g : ReferenceGraph} {c : Cluster} (h : c ∈ clusters g) :
    ∃ d ∈ g.nodes.toList, c.file = d.file := by
  have hfold : ∀ (ds : List Declaration) (cs : List Cluster),
      ∀ c ∈ ds.foldl (fun cs d => addToCluster d cs) cs,
        (∃ c' ∈ cs, c.file = c'.file) ∨ ∃ d ∈ ds, c.file = d.file := by
    intro ds
    induction ds with
    | nil => exact fun cs c hc => Or.inl ⟨c, hc, rfl⟩
    | cons d ds ih =>
        intro cs c hc
        rcases ih _ c hc with ⟨c', hc', heq⟩ | ⟨e, he, heq⟩
        · rcases file_of_mem_addToCluster hc' with hd | ⟨c'', hc'', hfile⟩
          · exact Or.inr ⟨d, List.mem_cons_self, heq.trans hd⟩
          · exact Or.inl ⟨c'', hc'', heq.trans hfile⟩
        · exact Or.inr ⟨e, List.mem_cons_of_mem d he, heq⟩
  rcases hfold g.nodes.toList [] c h with ⟨c', hc', -⟩ | hnode
  · cases hc'
  · exact hnode

end Report.Dot

namespace Analysis

/-- The files of all declarations lie below the root. -/
structure AllBelow (a : Analysis) : Prop where
  nodes : ∀ d ∈ a.graph.nodes.toList, a.root.components <+: d.file.components
  entrypoints : ∀ d ∈ a.entrypoints, a.root.components <+: d.file.components
  unreachable : ∀ d ∈ a.unreachable, a.root.components <+: d.file.components

/-- Every report can be made. -/
structure Reportable (a : Analysis) : Prop where
  unreachableNames : ∃ names, a.unreachableNames = .ok names
  listing : ∃ text, a.listing = .ok text
  summary : ∀ detail, ∃ json, Report.summary detail a = .ok json
  dot : ∀ style, ∃ text, Report.Dot.render style a = .ok text

namespace AllBelow

variable {a : Analysis} (h : a.AllBelow)

include h

lemma exists_unreachableNames : ∃ names, a.unreachableNames = .ok names := by
  have hnames : ∀ d ∈ a.unreachable, ∃ name, d.displayName a.root = .ok name := by
    intro d hd
    obtain ⟨p, hp⟩ := exists_relativePath (h.unreachable d hd)
    exact ⟨_, map_eq_ok_iff.2 ⟨p, hp, rfl⟩⟩
  obtain ⟨names, hnames⟩ := mapM_succeeds hnames
  exact ⟨_, map_eq_ok_iff.2 ⟨names, hnames, rfl⟩⟩

lemma exists_summary (detail : Report.Detail) : ∃ json, Report.summary detail a = .ok json :=
  (Report.exists_summary_iff detail).2 (List.forall_mem_append.2 ⟨h.entrypoints, h.unreachable⟩)

/-- The clusters of a drawing have labels, because their files lie below the root. -/
lemma exists_render (style : Report.Dot.Style) : ∃ text, Report.Dot.render style a = .ok text := by
  have hlabelled :
      ∀ c ∈ Report.Dot.clusters a.graph, ∃ l, Report.Dot.labelled a.root c = .ok l := by
    intro c hc
    obtain ⟨d, hd, hfile⟩ := Report.Dot.exists_node_of_mem_clusters hc
    obtain ⟨p, hp⟩ := exists_relativePath (hfile ▸ h.nodes d hd)
    exact ⟨_, map_eq_ok_iff.2 ⟨p, hp, rfl⟩⟩
  obtain ⟨cs, hcs⟩ := mapM_succeeds hlabelled
  exact ⟨_, bind_eq_ok_iff.2 ⟨cs, hcs, rfl⟩⟩

/-- If everything lies below the root, every report can be made. -/
lemma reportable : a.Reportable where
  unreachableNames := h.exists_unreachableNames
  listing := by
    obtain ⟨names, hnames⟩ := h.exists_unreachableNames
    exact ⟨_, map_eq_ok_iff.2 ⟨names, hnames, rfl⟩⟩
  summary := h.exists_summary
  dot := h.exists_render

end AllBelow

/-- The analysis of parsed files speaks of declarations below the root only. -/
lemma allBelow_of_ofFiles {root : Path} {rootModule : String} {files : List SourceFile}
    {a : Analysis} (hparsed : ∀ f ∈ files, f.Parsed)
    (h : ofFiles root rootModule files = .ok a) : a.AllBelow := by
  obtain ⟨references, hassembled⟩ := assembled_of_ofFiles hparsed h
  have hbelow := NameTable.below_of_ofFiles hassembled.table_eq
  have hdeclared : ∀ f ∈ files, ∀ d, d = .fileRoot f.path ∨ d ∈ f.declarations →
      a.root.components <+: d.file.components := by
    rintro f hf d (rfl | hd)
    · exact hbelow f hf
    · rw [(hparsed f hf).tidy.file_eq d hd]
      exact hbelow f hf
  have hnodes : ∀ d ∈ a.graph.nodes.toList, a.root.components <+: d.file.components := by
    intro d hd
    rcases hassembled.mem_nodes hd with ⟨f, hf, hd⟩ | ⟨f, hf, hroot, -⟩
    · exact hdeclared f hf d (Or.inr hd)
    · exact hdeclared f hf d (Or.inl hroot)
  refine ⟨hnodes, fun d hd => ?_, fun d hd => hnodes d ((hassembled.mem_unreachable_iff d).1 hd).1⟩
  rcases mem_markedOf.1 (hassembled.records.mem_marked d hd) with ⟨f, hf, hd, -⟩ | ⟨r, hr, -, rfl⟩
  · exact hdeclared f hf d (Or.inr hd)
  · obtain ⟨f, hf, hr⟩ := (hassembled.mem_iff r).1 hr
    exact hdeclared f hf _ (hassembled.spec_of_resolves hf hr).1

end Analysis

/-! ## Reading -/

namespace Go.SourceFile

/-- Whether there is a fault is told by the flag of the root. -/
lemma syntaxFault?_eq_none_iff {tree : Node} :
    syntaxFault? tree = none ↔ tree.info.hasError = false := by
  rw [syntaxFault?, Option.map_eq_none_iff, Node.firstFault?]
  cases tree.info.hasError <;> simp

/-- A file is refused for a fault of its syntax, or else because something cannot be extracted. -/
lemma check_eq_error_iff {path : Path} {tree : Node} {e : Error} :
    check path tree = .error e ↔
      (∃ fault, syntaxFault? tree = some fault ∧ e = .syntactic path fault) ∨
      (tree.info.hasError = false ∧
        ∃ fault, ofTree path tree = .error fault ∧ e = .extraction path fault) := by
  rw [check, ← syntaxFault?_eq_none_iff]
  cases syntaxFault? tree with
  | some fault => simp [eq_comm]
  | none => cases ofTree path tree <;> simp [Except.mapError, eq_comm]

end Go.SourceFile

namespace Disk

variable {parser : Go.Parser} {d : Disk} {o : SearchOptions} {path root p : Path}
  {rootModule : String} {paths : List Path} {e : Error}

/-- The file has a text, nothing in its tree is an error or missing, and what it declares and
imports can be made out. -/
def Accepts (d : Disk) (parser : Go.Parser) (p : Path) : Prop :=
  ∃ text, d.readText p = .ok text ∧ (parser.tree text).info.hasError = false ∧
    ∃ f, SourceFile.ofTree p (parser.tree text) = .ok f

/-- Why a file is not accepted: the first of the conditions that it does not meet. -/
inductive Rejects (d : Disk) (parser : Go.Parser) (p : Path) : Error → Prop where
  | file {fault : FileFault} (unreadable : d.readText p = .error fault) :
      Rejects d parser p (.file p fault)
  | syntactic {text : String} {fault : SyntaxFault} (readable : d.readText p = .ok text)
      (faulty : SourceFile.syntaxFault? (parser.tree text) = some fault) :
      Rejects d parser p (.syntactic p fault)
  | extraction {text : String} {fault : ExtractionFault} (readable : d.readText p = .ok text)
      (faultless : (parser.tree text).info.hasError = false)
      (unclear : SourceFile.ofTree p (parser.tree text) = .error fault) :
      Rejects d parser p (.extraction p fault)

/-- A tree says of itself that it has errors exactly if one of its nodes is an error or missing. -/
def FlagsFaults (tree : Node) : Prop :=
  tree.info.hasError = true ↔ ∃ n ∈ tree.nodes, n.isFault = true

/-- A file is read exactly if it is accepted, ... -/
lemma exists_readSource_iff : (∃ f, d.readSource parser p = .ok f) ↔ d.Accepts parser p := by
  rw [readSource, Accepts]
  cases d.readText p with
  | error fault => simp
  | ok text =>
      simp only [SourceFile.ofText, SourceFile.check_eq_ok_iff, SourceFile.syntaxFault?_eq_none_iff,
        Except.ok.injEq, exists_eq_left', exists_and_left]

/-- ... and otherwise it is rejected with the error. -/
lemma readSource_eq_error_iff : d.readSource parser p = .error e ↔ d.Rejects parser p e := by
  rw [readSource]
  constructor
  · intro h
    cases htext : d.readText p with
    | error fault =>
        rw [htext] at h
        exact Except.error.inj h ▸ .file htext
    | ok text =>
        rw [htext] at h
        obtain ⟨fault, hfault, rfl⟩ | ⟨hfaultless, fault, hunclear, rfl⟩ :=
          SourceFile.check_eq_error_iff.1 h
        · exact .syntactic htext hfault
        · exact .extraction htext hfaultless hunclear
  · rintro (hread | ⟨hread, hfault⟩ | ⟨hread, hfaultless, hunclear⟩)
    · rw [hread]
    · rw [hread]
      exact SourceFile.check_eq_error_iff.2 (Or.inl ⟨_, hfault, rfl⟩)
    · rw [hread]
      exact SourceFile.check_eq_error_iff.2 (Or.inr ⟨hfaultless, _, hunclear, rfl⟩)

/-- Where a tree is right about its errors, a file is accepted only if no node is a fault. -/
lemma accepts_iff_of_flagsFaults {text : String} (htext : d.readText p = .ok text)
    (hflags : FlagsFaults (parser.tree text)) :
    d.Accepts parser p ↔ (∀ n ∈ (parser.tree text).nodes, n.isFault = false) ∧
      ∃ f, SourceFile.ofTree p (parser.tree text) = .ok f := by
  have hfaultless : (parser.tree text).info.hasError = false ↔
      ∀ n ∈ (parser.tree text).nodes, n.isFault = false := by
    rw [← Bool.not_eq_true]
    exact (not_congr hflags).trans (by simp)
  simp only [Accepts, htext, Except.ok.injEq, exists_eq_left', hfaultless]

/-- Every report can be made of an analysis. -/
lemma reportable_of_analyze {a : Analysis} (h : d.analyze parser o path = .ok a) :
    a.Reportable := by
  obtain ⟨paths, files, -, -, -, hparsed, h⟩ := exists_files_of_analyze h
  exact (Analysis.allBelow_of_ofFiles hparsed h).reportable

section

variable (hproper : d.root.Proper) (hsearch : d.search o root = .ok paths)
  (hmethods : ∀ p ∈ paths, ∀ f, d.readSource parser p = .ok f → MethodsAtTop f.tree)

include hproper hsearch hmethods

/-- The files that were read have an analysis. -/
lemma exists_ofFiles_of_read (rootModule : String) {files : List SourceFile}
    (hfiles : paths.mapM (d.readSource parser) = .ok files) :
    ∃ a, Analysis.ofFiles root rootModule files = .ok a := by
  refine Analysis.exists_ofFiles rootModule (fun f hf => ?_) (fun f hf => ?_) (fun f hf => ?_)
  all_goals obtain ⟨p, hp, hread⟩ := exists_of_mem_result hfiles hf
  · exact (path_eq_of_readSource hread).2
  · rw [(path_eq_of_readSource hread).1]
    exact below_of_mem_search hproper hsearch p hp
  · exact hmethods p hp f hread

variable (hroot : d.canonical path = .ok root) (hmodule : d.rootModule root = .ok rootModule)

include hroot hmodule

/-- An analysis succeeds exactly if all files that were found are accepted. -/
lemma exists_analyze_iff :
    (∃ a, d.analyze parser o path = .ok a) ↔ ∀ p ∈ paths, d.Accepts parser p := by
  rw [analyze_eq_bind hroot hmodule hsearch]
  simp only [← exists_readSource_iff]
  constructor
  · rintro ⟨a, ha⟩ p hp
    obtain ⟨files, hfiles, -⟩ := bind_eq_ok_iff.1 ha
    obtain ⟨f, -, hf⟩ := exists_of_mem_of_mapM hfiles hp
    exact ⟨f, hf⟩
  · intro hread
    obtain ⟨files, hfiles⟩ := mapM_succeeds hread
    obtain ⟨a, ha⟩ := exists_ofFiles_of_read hproper hsearch hmethods rootModule hfiles
    exact ⟨a, bind_eq_ok_iff.2 ⟨files, hfiles, ha⟩⟩

/-- Otherwise its error is that of the first file that is rejected. -/
lemma analyze_eq_error_iff :
    d.analyze parser o path = .error e ↔
      ∃ before p after, paths = before ++ p :: after ∧ (∀ q ∈ before, d.Accepts parser q) ∧
        d.Rejects parser p e := by
  simp only [← exists_readSource_iff, ← readSource_eq_error_iff, ← mapM_eq_error_iff]
  rw [analyze_eq_bind hroot hmodule hsearch]
  -- The files are read or not, and after that nothing fails.
  cases hfiles : paths.mapM (d.readSource parser) with
  | error e' => simp [bind, Except.bind]
  | ok files =>
      obtain ⟨a, ha⟩ := exists_ofFiles_of_read hproper hsearch hmethods rootModule hfiles
      simp [bind, Except.bind, ha]

end

/-- **An analysis fails only where a file cannot be read.**  On a proper disk, let the root of a
project exist, its manifest give a module, and the search succeed; and let files that are accepted
declare methods at the top level only.  The analysis succeeds exactly if all files that were found
are accepted, and otherwise its error is that of the first in the order of paths that is rejected.
The files that were read have a table and can be resolved, and every report can be made of an
analysis.  Where the parser says of a tree that it has errors exactly if some node is an error or
missing, a file is accepted only if there is no such node. -/
theorem analyze_completes (hproper : d.root.Proper) (hroot : d.canonical path = .ok root)
    (hmodule : d.rootModule root = .ok rootModule) (hsearch : d.search o root = .ok paths)
    (hmethods : ∀ p ∈ paths, ∀ f, d.readSource parser p = .ok f → MethodsAtTop f.tree) :
    Sorted.Strict Path.compare paths ∧
    ((∃ a, d.analyze parser o path = .ok a) ↔ ∀ p ∈ paths, d.Accepts parser p) ∧
    (∀ e, d.analyze parser o path = .error e ↔
      ∃ before p after, paths = before ++ p :: after ∧ (∀ q ∈ before, d.Accepts parser q) ∧
        d.Rejects parser p e) ∧
    (∀ files, paths.mapM (d.readSource parser) = .ok files →
      ∃ table, NameTable.ofFiles root rootModule files = .ok table ∧
        ∀ f ∈ files, ∃ refs, Scope.resolve ⟨root, rootModule, table⟩ f = .ok refs) ∧
    (∀ a, d.analyze parser o path = .ok a → a.Reportable) ∧
    ∀ p text, d.readText p = .ok text → FlagsFaults (parser.tree text) →
      (d.Accepts parser p ↔ (∀ n ∈ (parser.tree text).nodes, n.isFault = false) ∧
        ∃ f, SourceFile.ofTree p (parser.tree text) = .ok f) := by
  refine ⟨strict_search hproper hsearch, exists_analyze_iff hproper hsearch hmethods hroot hmodule,
    fun e => analyze_eq_error_iff hproper hsearch hmethods hroot hmodule, fun files hfiles => ?_,
    fun a ha => reportable_of_analyze ha,
    fun p text htext hflags => accepts_iff_of_flagsFaults htext hflags⟩
  obtain ⟨a, ha⟩ := exists_ofFiles_of_read hproper hsearch hmethods rootModule hfiles
  obtain ⟨table, htable, -⟩ := Analysis.ofFiles_eq_ok_iff.1 ha
  exact ⟨table, htable, Analysis.exists_resolve_of_ofFiles ha htable⟩

namespace Sample

open Analysis.Sample (older newer stored)

/-- A Go file whose bytes are not text. -/
def garbled : String × Entry := ("c.go", .file ⟨#[255]⟩)

lemma readText_garbled :
    (project (stored ++ [garbled])).readText ⟨"/p/c.go"⟩ = .error .notText := by
  have hbytes : String.fromUTF8? ⟨#[255]⟩ = none :=
    dif_neg (ByteArray.validateUTF8_eq_false_iff.1 (by decide))
  have hget : (project (stored ++ [garbled])).root.get? ["p", "c.go"]
      = some (.file ⟨#[255]⟩) := rfl
  have hfind := find_ofTrail (by simp) (by decide) hget (by simp) true
  rw [readText, show (⟨"/p/c.go"⟩ : Path) = .ofTrail ["p", "c.go"] by decide, hfind]
  simp only [hbytes]

lemma finds_garbled : (project (stored ++ [garbled])).Finds {} ⟨"/p"⟩ "m"
    [⟨"/p/a.go"⟩, ⟨"/p/b.go"⟩, ⟨"/p/c.go"⟩] :=
  finds_project (by simp +decide [stored, garbled, filesBelow]) (by decide)

section

variable (more : List (String × Entry)) {p : Path} (hp : p ∈ [older, newer].map SourceFile.path)

include hp

/-- The two files are accepted, whatever else is in the directory. -/
lemma accepts_stored : (project (stored ++ more)).Accepts (.knowing [older, newer]) p := by
  obtain ⟨f, hf, rfl⟩ := List.mem_map.1 hp
  exact exists_readSource_iff.1 ⟨f, Analysis.Sample.read_stored more f hf⟩

lemma methodsAtTop_stored {f : SourceFile}
    (h : (project (stored ++ more)).readSource (.knowing [older, newer]) p = .ok f) :
    MethodsAtTop f.tree := by
  obtain ⟨g, hg, rfl⟩ := List.mem_map.1 hp
  rw [Analysis.Sample.read_stored more g hg] at h
  exact Except.ok.inj h ▸ (Analysis.Sample.placed g hg).methodsAtTop

end

end Sample

/-- A project with a method and two functions has an analysis and all reports.  If there is also a
file whose bytes are not text, the analysis reads the files before it and fails there. -/
theorem analyze_completes_sample :
    (∃ a, (Sample.project Analysis.Sample.stored).analyze
        (.knowing [Analysis.Sample.older, Analysis.Sample.newer]) {} ⟨"/p"⟩ = .ok a ∧
      a.Reportable) ∧
    (Sample.project (Analysis.Sample.stored ++ [Sample.garbled])).analyze
        (.knowing [Analysis.Sample.older, Analysis.Sample.newer]) {} ⟨"/p"⟩
      = .error (.file ⟨"/p/c.go"⟩ .notText) := by
  constructor
  · have hstores := Analysis.Sample.stores
    obtain ⟨-, hok, -, -, hreports, -⟩ := analyze_completes (by decide) hstores.canonical
      hstores.rootModule hstores.search fun p hp f => Sample.methodsAtTop_stored [] hp
    obtain ⟨a, ha⟩ := hok.2 fun p hp => Sample.accepts_stored [] hp
    exact ⟨a, ha, hreports a ha⟩
  · have hfinds := Sample.finds_garbled
    have hmethods : ∀ p ∈ [(⟨"/p/a.go"⟩ : Path), ⟨"/p/b.go"⟩, ⟨"/p/c.go"⟩], ∀ f,
        (Sample.project (Analysis.Sample.stored ++ [Sample.garbled])).readSource
          (.knowing [Analysis.Sample.older, Analysis.Sample.newer]) p = .ok f →
            MethodsAtTop f.tree := by
      intro p hp f hf
      have hcases : p ∈ [(⟨"/p/a.go"⟩ : Path), ⟨"/p/b.go"⟩] ++ [⟨"/p/c.go"⟩] := hp
      rcases List.mem_append.1 hcases with hp | hp
      · exact Sample.methodsAtTop_stored _ hp hf
      · rw [List.mem_singleton.1 hp, readSource, Sample.readText_garbled] at hf
        cases hf
    obtain ⟨-, -, herror, -⟩ := analyze_completes (by decide) hfinds.canonical hfinds.rootModule
      hfinds.search hmethods
    exact (herror _).2 ⟨[⟨"/p/a.go"⟩, ⟨"/p/b.go"⟩], _, [], rfl, fun p => Sample.accepts_stored _,
      .file Sample.readText_garbled⟩

end Disk

end GoReach
