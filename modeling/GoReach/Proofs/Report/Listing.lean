import GoReach.Proofs.Completion
import GoReach.Proofs.Disk.Selection
import GoReach.Proofs.Targets
import GoReach.Proofs.Text.Bytes

/-!
# The names in a listing

A listing names a declaration by its file and its own name, with colons between the two.  There may
be colons in the names of files, and there are in those of methods, so colons do not tell where the
file ends.  The last dot does: the path of a Go file ends in `.go`
(`Path.SourceBelow.suffix_below?`), and what a Go file declares has no dot in its name
(`Go.Undotted`).  So the name in a listing determines the declaration
(`Declaration.key_eq_of_displayName`), no two declarations have the same, and the sorted names are
strictly increasing (`Analysis.ListsEach`).
-/

namespace GoReach

open GoReach.Go (SourceFile Undotted)

/-! ## Texts of files -/

namespace Path

/-- The path of a Go file somewhere below the root. -/
def SourceBelow (root file : Path) : Prop :=
  ∃ (directory : List Component) (stem : String),
    file.components = root.components ++ (directory ++ [.name (stem ++ ".go")])

/-- As seen from the root, the path of a Go file still ends in `.go`. -/
lemma SourceBelow.suffix_below? {root file p : Path} (h : SourceBelow root file)
    (hp : file.below? root = some p) : ".go".toList <:+ p.text.toList := by
  obtain ⟨directory, stem, hfile⟩ := h
  have hlast : p.components.getLast? = some (.name (stem ++ ".go")) := by
    simp [components_below? hp, hfile]
  refine List.IsSuffix.trans ?_ (suffix_text_below? hp hlast)
  rw [String.toList_append]
  exact List.suffix_append _ _

end Path

/-! ## Names of declarations -/

namespace Declaration

variable {d e : Declaration} {root : Path} {name : String}

/-- What comes after the file in the name of a declaration. -/
def ending (d : Declaration) : List Char :=
  if d.isFileRoot then [] else qualifier.toList ++ d.name.toList

lemma toList_nameIn (d : Declaration) (file : String) :
    (d.nameIn file).toList = file.toList ++ d.ending := by
  have hqualify : qualify [file, d.name] = file ++ qualifier ++ d.name := rfl
  rw [nameIn, ending]
  split
  · simp
  · simp [hqualify]

/-- The ending tells the name. -/
lemma name_eq_of_ending (h : d.ending = e.ending) : d.name = e.name := by
  rw [ending, ending] at h
  split at h
  next hd =>
    split at h
    next he => rw [String.isEmpty_iff.1 hd, String.isEmpty_iff.1 he]
    next => simp [qualifier] at h
  next =>
    split at h
    next => simp [qualifier] at h
    next => exact String.toList_injective (List.append_cancel_left h)

lemma no_dot_ending (h : '.' ∉ d.name.toList) : '.' ∉ d.ending := by
  rw [ending]
  split
  · exact List.not_mem_nil
  · simp [qualifier, h]

/-- A declaration is named after its file, as seen from the root. -/
lemma displayName_eq_ok_iff :
    d.displayName root = .ok name ↔ ∃ p, d.file.below? root = some p ∧ d.nameIn p.text = name := by
  rw [displayName, relativePath]
  cases d.file.below? root with
  | none => simp [Except.map]
  | some p => simp [Except.map]

/-- A text has one last dot. -/
lemma eq_of_append_dot {as as' bs bs' : List Char} (hbs : '.' ∉ bs) (hbs' : '.' ∉ bs')
    (h : as ++ '.' :: bs = as' ++ '.' :: bs') : as = as' ∧ bs = bs' := by
  rcases List.append_eq_append_iff.1 h with ⟨x, rfl, hx⟩ | ⟨x, rfl, hx⟩
  · cases x with
    | nil => simpa using hx
    | cons c x =>
        rw [List.cons_append, List.cons.injEq] at hx
        exact absurd (by simp [hx.2]) hbs
  · cases x with
    | nil => simpa [eq_comm] using hx
    | cons c x =>
        rw [List.cons_append, List.cons.injEq] at hx
        exact absurd (by simp [hx.2]) hbs'

/-- The name in a listing determines the declaration. -/
lemma key_eq_of_displayName (hd : d.displayName root = .ok name)
    (he : e.displayName root = .ok name) (hddot : '.' ∉ d.name.toList) (hedot : '.' ∉ e.name.toList)
    (hfiles : d.file = e.file ∨ (root.SourceBelow d.file ∧ root.SourceBelow e.file)) :
    d.key = e.key := by
  obtain ⟨p, hp, rfl⟩ := displayName_eq_ok_iff.1 hd
  obtain ⟨q, hq, heq⟩ := displayName_eq_ok_iff.1 he
  have htext : p.text.toList ++ d.ending = q.text.toList ++ e.ending := by
    rw [← toList_nameIn, ← toList_nameIn, heq]
  obtain ⟨hfile, hending⟩ : p.text.toList = q.text.toList ∧ d.ending = e.ending := by
    rcases hfiles with hfile | ⟨hdfile, hefile⟩
    · rw [hfile, hq] at hp
      obtain rfl := Option.some.inj hp
      exact ⟨rfl, List.append_cancel_left htext⟩
    · obtain ⟨front, hfront⟩ := hdfile.suffix_below? hp
      obtain ⟨front', hfront'⟩ := hefile.suffix_below? hq
      have hgo : ".go".toList = '.' :: "go".toList := rfl
      rw [← hfront, ← hfront', hgo, List.append_assoc, List.append_assoc, List.cons_append,
        List.cons_append] at htext
      obtain ⟨rfl, hrest⟩ := eq_of_append_dot (by simpa using no_dot_ending hddot)
        (by simpa using no_dot_ending hedot) htext
      exact ⟨hfront.symm.trans hfront', List.append_cancel_left hrest⟩
  have hpq : p = q := by
    cases p
    cases q
    exact congrArg Path.mk (String.toList_injective hfile)
  rw [key, key, Path.components_eq_of_below? hp, Path.components_eq_of_below? hq, hpq,
    name_eq_of_ending hending]

end Declaration

/-! ## Sorted names -/

namespace Analysis

/-- The names are strictly increasing in the order of their bytes, and each of them stands for one
unreachable declaration. -/
structure ListsEach (a : Analysis) (names : List String) : Prop where
  increasing : names.Pairwise fun x y => Text.bytes x < Text.bytes y
  /-- Every unreachable declaration is there. -/
  named : ∀ d ∈ a.unreachable, ∃ name ∈ names, d.displayName a.root = .ok name
  /-- There is nothing else. -/
  onto : ∀ name ∈ names, ∃ d ∈ a.unreachable, d.displayName a.root = .ok name
  /-- Different declarations have different names. -/
  apart : ∀ d ∈ a.unreachable, ∀ e ∈ a.unreachable, ∀ name,
    d.displayName a.root = .ok name → e.displayName a.root = .ok name → d = e

instance : Std.TransCmp fun x y : String => compareOfLessAndEq x y :=
  inferInstanceAs (Std.TransCmp (compare : String → String → Ordering))

/-- The order of names is that of texts. -/
lemma lt_of_compare {x y : String} (h : compareOfLessAndEq x y = .lt) : x < y := by
  rw [compareOfLessAndEq] at h
  split at h
  · assumption
  · split at h <;> cases h

/-- Names that differ are strictly increasing once they are sorted. -/
lemma increasing_sort {names : List String} (h : names.Nodup) :
    (Sorted.sort (fun x y => compareOfLessAndEq x y) names).Pairwise
      fun x y => Text.bytes x < Text.bytes y := by
  have hstrict : Sorted.Strict (fun x y => compareOfLessAndEq x y)
      (Sorted.sort (fun x y => compareOfLessAndEq x y) names) :=
    Sorted.strict_sort (h.imp fun hne heq => hne (compareOfLessAndEq_eq_iff.1 heq))
  exact hstrict.imp fun hlt => Text.bytes_lt_of_lt (lt_of_compare hlt)

namespace Assembled

variable {a : Analysis} {files : List SourceFile} {references : List Reference}
  (h : a.Assembled files references) (hundotted : ∀ f ∈ files, Undotted f.tree)

include h

lemma strict_unreachable : Sorted.Strict Declaration.compare a.unreachable := by
  rw [h.unreachable_eq]
  exact h.consistent.strict_unreachable a.entrypoints

include hundotted

/-- What is unreachable was declared in one of the files, under a name without dots. -/
lemma exists_file_of_unreachable {d : Declaration} (hd : d ∈ a.unreachable) :
    ∃ f ∈ files, d.file = f.path ∧ '.' ∉ d.name.toList := by
  rcases h.mem_nodes ((h.mem_unreachable_iff d).1 hd).1 with ⟨f, hf, hd⟩ | ⟨f, hf, rfl, -⟩
  · obtain ⟨n, hn, hintro⟩ := (h.parsed f hf).exists_introduces hd
    exact ⟨f, hf, (h.parsed f hf).tidy.file_eq d hd,
      (hundotted f hf).no_dot_of_introduces hn hintro⟩
  · exact ⟨f, hf, rfl, List.not_mem_nil⟩

/-- Where every file is a Go file below the root, or there is only one, the names in a listing tell
the declarations apart. -/
lemma apart (hfiles : ∀ f ∈ files, ∀ g ∈ files,
      f.path = g.path ∨ (a.root.SourceBelow f.path ∧ a.root.SourceBelow g.path))
    {d e : Declaration} {name : String} (hd : d ∈ a.unreachable) (he : e ∈ a.unreachable)
    (hdname : d.displayName a.root = .ok name) (hename : e.displayName a.root = .ok name) :
    d = e := by
  obtain ⟨f, hf, hdfile, hddot⟩ := h.exists_file_of_unreachable hundotted hd
  obtain ⟨g, hg, hefile, hedot⟩ := h.exists_file_of_unreachable hundotted he
  have hkey : d.key = e.key := by
    refine Declaration.key_eq_of_displayName hdname hename hddot hedot ?_
    rw [hdfile, hefile]
    exact hfiles f hf g hg
  exact h.strict_unreachable.eq_of_eq hd he (Declaration.compare_eq_iff.2 hkey)

end Assembled

/-- The listing has one name for each unreachable declaration, if no two files are confused. -/
lemma exists_listsEach_of_ofFiles {root : Path} {rootModule : String} {files : List SourceFile}
    {a : Analysis} (hparsed : ∀ f ∈ files, f.Parsed) (hundotted : ∀ f ∈ files, Undotted f.tree)
    (hfiles : ∀ f ∈ files, ∀ g ∈ files,
      f.path = g.path ∨ (root.SourceBelow f.path ∧ root.SourceBelow g.path))
    (h : ofFiles root rootModule files = .ok a) :
    ∃ names, a.unreachableNames = .ok names ∧ a.ListsEach names := by
  obtain ⟨names, hnames⟩ := (allBelow_of_ofFiles hparsed h).exists_unreachableNames
  obtain ⟨references, hassembled⟩ := assembled_of_ofFiles hparsed h
  obtain rfl : a.root = root := by
    obtain ⟨table, -, references, -, rfl⟩ := ofFiles_eq_ok_iff.1 h
    rfl
  have hapart : ∀ d ∈ a.unreachable, ∀ e ∈ a.unreachable, ∀ name,
      d.displayName a.root = .ok name → e.displayName a.root = .ok name → d = e :=
    fun d hd e he name hdname hename => hassembled.apart hundotted hfiles hd he hdname hename
  refine ⟨names, hnames, ?_⟩
  obtain ⟨unsorted, hunsorted, rfl⟩ := map_eq_ok_iff.1 hnames
  refine ⟨?_, fun d hd => ?_, fun name hname => ?_, hapart⟩
  · exact increasing_sort (nodup_of_mapM hunsorted hassembled.strict_unreachable.nodup hapart)
  · obtain ⟨name, hname, hd⟩ := exists_of_mem_of_mapM hunsorted hd
    exact ⟨name, Sorted.mem_sort.2 hname, hd⟩
  · exact exists_of_mem_result hunsorted (Sorted.mem_sort.1 hname)

end Analysis

/-! ## Files on a disk -/

/-- A search finds Go files below its root, unless the root is itself a file. -/
lemma Disk.sourceBelow_of_search {d : Disk} {o : SearchOptions} {root : Path} {paths : List Path}
    (hproper : d.root.Proper) (h : d.search o root = .ok paths) :
    paths = [root] ∨ ∀ p ∈ paths, root.SourceBelow p := by
  obtain rfl | rfl | ⟨trail, entries, hget, rfl⟩ := search_cases h
  · exact .inl rfl
  · exact .inr (by simp)
  · refine .inr fun p hp => ?_
    have hentries := hproper.of_get? hget
    obtain ⟨way, name, rfl, hselected⟩ :=
      selected_of_mem_filesBelow hentries (Sorted.mem_sort.1 hp)
    obtain ⟨content, hfile⟩ := hselected.file
    obtain ⟨stem, -, rfl⟩ := hselected.wanted.extension
    refine ⟨way.map .name, stem, ?_⟩
    rw [Path.components_descend root (Entry.plain_of_get? hentries hfile), List.map_append,
      List.map_singleton]

namespace Analysis

/-- **A listing has every unreachable declaration under a name of its own.**  In the analysis of Go
files below the root whose names have no dots, the listed names are strictly increasing in the order
of their bytes; each is that of an unreachable declaration, each of these is listed, and no two have
the same name, whatever colons are in the paths of the files.  The files that are found on a disk
are such files. -/
theorem unreachableNames_one_to_one :
    (∀ {root : Path} {rootModule : String} {files : List SourceFile} {a : Analysis},
      (∀ f ∈ files, f.Parsed) → (∀ f ∈ files, Undotted f.tree) →
      (∀ f ∈ files, root.SourceBelow f.path) → ofFiles root rootModule files = .ok a →
        ∃ names, a.unreachableNames = .ok names ∧ a.ListsEach names) ∧
    ∀ {parser : Go.Parser} {d : Disk} {o : SearchOptions} {path : Path} {a : Analysis},
      d.root.Proper → d.analyze parser o path = .ok a →
        ∃ paths files,
          d.search o a.root = .ok paths ∧ paths.mapM (d.readSource parser) = .ok files ∧
          ((∀ f ∈ files, Undotted f.tree) →
            ∃ names, a.unreachableNames = .ok names ∧ a.ListsEach names) := by
  constructor
  · intro root rootModule files a hparsed hundotted hbelow h
    exact exists_listsEach_of_ofFiles hparsed hundotted
      (fun f hf g hg => .inr ⟨hbelow f hf, hbelow g hg⟩) h
  · intro parser d o path a hproper h
    obtain ⟨paths, files, hsearch, hread, hpaths, hparsed, h⟩ := Disk.exists_files_of_analyze h
    refine ⟨paths, files, hsearch, hread, fun hundotted => ?_⟩
    refine exists_listsEach_of_ofFiles hparsed hundotted (fun f hf g hg => ?_) h
    have hmem : ∀ f ∈ files, f.path ∈ paths := fun f hf => hpaths ▸ List.mem_map_of_mem hf
    rcases Disk.sourceBelow_of_search hproper hsearch with rfl | hbelow
    · rw [List.mem_singleton.1 (hmem f hf), List.mem_singleton.1 (hmem g hg)]
      exact .inl rfl
    · exact .inr ⟨hbelow _ (hmem f hf), hbelow _ (hmem g hg)⟩

namespace Sample

open Scope.Sample (function)

/-- A file in a directory whose name looks like that of a file and a type. -/
def disguised : SourceFile where
  path := ⟨"/p/a.go::T/m.go"⟩
  declarations := [{ file := ⟨"/p/a.go::T/m.go"⟩, name := "f", span := some ⟨1, 1, 1, 1⟩ }]
  tree := Syntax.Node.numberFrom 0 <| .node { kind := "source_file" } [function "f" []]

lemma parsed_disguised : ∀ f ∈ [older, disguised], f.Parsed := by
  refine List.forall_mem_cons.2 ⟨parsed older List.mem_cons_self, List.forall_mem_singleton.2 ?_⟩
  exact ⟨rfl, Syntax.Node.distinctIds_numberFrom 0 _⟩

lemma undotted : ∀ f ∈ [older, disguised], Undotted f.tree := by decide

/-- Both paths end in `.go`, whatever stands before that. -/
lemma sourceBelow : ∀ f ∈ [older, disguised], Scope.Sample.root.SourceBelow f.path := by
  rw [List.forall_mem_cons, List.forall_mem_singleton]
  exact ⟨⟨[], "a", by decide⟩, ⟨[.name "a.go::T"], "m", by decide⟩⟩

/-- The two files on a disk, each with its own path for a text. -/
def lookalikes : Disk :=
  Disk.Sample.project [("a.go", .file "/p/a.go".toUTF8),
    ("a.go::T", .directory [("m.go", .file "/p/a.go::T/m.go".toUTF8)])]

lemma stores_lookalikes :
    lookalikes.Stores (.knowing [older, disguised]) {} ⟨"/p"⟩ "m" [older, disguised] where
  toFinds := Disk.Sample.finds_project (by simp +decide [Disk.filesBelow]) (by decide)
  read := Disk.readSource_knowing [["p", "a.go"], ["p", "a.go::T", "m.go"]] parsed_disguised rfl
    (by decide) (by decide) (by decide) rfl

end Sample

/-- The method `T::m` of `a.go` is listed beside what is declared in the directory `a.go::T`. -/
theorem unreachableNames_one_to_one_sample :
    ∃ a names, ofFiles Scope.Sample.root "m" [Sample.older, Sample.disguised] = .ok a ∧
      Sample.lookalikes.analyze (.knowing [Sample.older, Sample.disguised]) {} ⟨"/p"⟩ = .ok a ∧
      a.unreachableNames = .ok names ∧ a.ListsEach names ∧ "a.go::T::m" ∈ names := by
  have hbelow : ∀ f ∈ [Sample.older, Sample.disguised],
      Scope.Sample.root.components <+: f.path.components := by decide
  have hplaced : ∀ f ∈ [Sample.older, Sample.disguised], Go.Placed f.tree := by decide
  have hnamed : ∀ f ∈ [Sample.older, Sample.disguised], Go.WellNamed f.tree := by decide
  obtain ⟨a, ha⟩ := exists_ofFiles "m" Sample.parsed_disguised hbelow
    fun f hf => (hplaced f hf).methodsAtTop
  have hanalyze := Sample.stores_lookalikes.analyze_eq.trans ha
  obtain ⟨paths, files, hsearch, hread, hstored⟩ :=
    unreachableNames_one_to_one.2 (by decide) hanalyze
  obtain rfl := Sample.stores_lookalikes.files_eq hanalyze hsearch hread
  obtain ⟨names, hnames, hlists⟩ := hstored Sample.undotted
  refine ⟨a, names, ha, hanalyze, hnames, hlists, ?_⟩
  obtain ⟨references, hassembled⟩ := assembled_of_ofFiles Sample.parsed_disguised ha
  have hmethod := (hassembled.targetsWin (by decide) hnamed).method_unreachable Sample.older
    List.mem_cons_self _ List.mem_cons_self rfl
  obtain ⟨names', hnames', hlists'⟩ := unreachableNames_one_to_one.1 Sample.parsed_disguised
    Sample.undotted Sample.sourceBelow ha
  obtain rfl : names = names' := Except.ok.inj (hnames.symm.trans hnames')
  obtain ⟨name, hname, hdisplay⟩ := hlists'.named _ hmethod
  obtain ⟨t, ht, references, -, rfl⟩ := ofFiles_eq_ok_iff.1 ha
  obtain ⟨p, hp, rfl⟩ := Declaration.displayName_eq_ok_iff.1 hdisplay
  have hfile : Path.below? ⟨"/p/a.go"⟩ Scope.Sample.root = some ⟨"a.go"⟩ := by decide
  obtain rfl : ⟨"a.go"⟩ = p := Option.some.inj (hfile.symm.trans hp)
  exact hname

end Analysis

end GoReach
