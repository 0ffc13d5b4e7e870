import GoReach.Analysis
import GoReach.Proofs.Disk.Selection
import GoReach.Proofs.Go.Extraction

/-!
# Projects on a disk

An analysis finds out where the root of a project is and what its module is called, searches it, and
reads the files that were found.  `Disk.Stores` says that a disk has the given files in the places
where an analysis looks for them.  The analysis of such a disk is that of the files
(`Disk.Stores.analyze_eq`), so what is said of the analysis of files is said of disks.

**Trails.**  A path that is made of the names of a trail leads straight to the end of the trail, if
there is no link (`Disk.find_ofTrail`).  So it is enough to look at the tree of entries to know what
can be read at such a path, and that the path is a canonical one.

**Parsers.**  Any list of files can be put on a disk, whatever their trees are: let the text of each
file be its own path, and let the parser know the trees by these paths (`Go.Parser.knowing`).
-/

namespace GoReach

open GoReach.Go (SourceFile Parser)

/-! ## Trails -/

namespace Path

/-- Names between slashes can be read back. -/
lemma segments_intercalate {names : List String} (hne : names ≠ [])
    (hslash : ∀ name ∈ names, '/' ∉ name.toList) :
    segments ("/".intercalate names).toList = names.map String.toList := by
  induction names with
  | nil => exact absurd rfl hne
  | cons name rest ih =>
      rw [List.forall_mem_cons] at hslash
      cases rest with
      | nil => simp [segments_of_no_slash hslash.1]
      | cons next rest =>
          have hlist : ("/".intercalate (name :: next :: rest)).toList
              = name.toList ++ '/' :: ("/".intercalate (next :: rest)).toList := by
            rw [String.intercalate_cons_cons]
            simp
          rw [hlist, segments_append, segments_of_no_slash hslash.1,
            ih (List.cons_ne_nil next rest) hslash.2]
          rfl

/-- The text of a trail ends with its last name. -/
lemma suffix_text_ofTrail (front : List String) (last : String) :
    last.toList <:+ (ofTrail (front ++ [last])).text.toList := by
  by_cases hfront : front = []
  · exact ⟨['/'], by simp [ofTrail, hfront]⟩
  · refine ⟨("/" ++ "/".intercalate front ++ "/").toList, ?_⟩
    rw [ofTrail, String.intercalate_append_of_ne_nil hfront (List.cons_ne_nil last [])]
    simp

/-- A trail goes on with the name of an entry. -/
lemma join_ofTrail {trail : List String} (hne : trail ≠ []) (hplain : ∀ name ∈ trail, Plain name)
    {name : String} (hname : Plain name) :
    (ofTrail trail).join ⟨name⟩ = ofTrail (trail ++ [name]) := by
  have htext : (ofTrail trail).text.isEmpty = false := by
    simp [ofTrail, String.isEmpty_eq_false_iff]
  have hslash : ((ofTrail trail).text.toList.getLast? == some '/') = false := by
    obtain ⟨front, last, rfl⟩ := (List.eq_nil_or_concat trail).resolve_left hne
    rw [List.concat_eq_append] at hplain ⊢
    have hlast := hplain last (by simp)
    obtain ⟨before, hbefore⟩ := suffix_text_ofTrail front last
    rw [← hbefore, List.getLast?_append_of_ne_nil _
      (fun h => hlast.ne_empty (String.toList_eq_nil_iff.1 h)), beq_eq_false_iff_ne]
    exact fun h => hlast.no_slash (List.mem_of_getLast? h)
  rw [join, isAbsolute_of_plain hname, htext, hslash]
  simp only [Bool.or_self, Bool.false_eq_true, if_false, ofTrail]
  rw [String.intercalate_append_of_ne_nil hne (List.cons_ne_nil name [])]
  simp [String.append_assoc]

end Path

namespace Disk

variable {d : Disk} {trail : List String} {e : Entry}

lemma segmentsOf_ofTrail (hne : trail ≠ []) (hplain : ∀ name ∈ trail, Path.Plain name) :
    segmentsOf (Path.ofTrail trail).text = "" :: trail := by
  have hlist : (Path.ofTrail trail).text.toList = [] ++ '/' :: ("/".intercalate trail).toList := by
    simp [Path.ofTrail]
  rw [segmentsOf, hlist, Path.segments_append,
    Path.segments_intercalate hne fun name hname => (hplain name hname).no_slash]
  simp [Path.segments]

/-- Names are followed one after another, as long as there is no link at the end. -/
lemma follow_trail {root base : Entry} {start : List String} (hstart : root.get? start = some base)
    (hplain : ∀ name ∈ trail, Path.Plain name) (hget : base.get? trail = some e)
    (hlink : ∀ target, e ≠ .link target) (through : Bool) (links : Nat) :
    follow root through links start trail = .ok (.taken (start ++ trail) e) := by
  induction trail generalizing start base with
  | nil =>
      rw [Entry.get?] at hget
      rw [follow, hstart, ← Option.some.inj hget, List.append_nil]
  | cons name rest ih =>
      rw [List.forall_mem_cons] at hplain
      obtain ⟨hname, hrest⟩ := hplain
      cases base with
      | file content => cases hget
      | link target => cases hget
      | directory entries =>
          rw [Entry.get?] at hget
          obtain ⟨child, hchild, hget⟩ := Option.bind_eq_some_iff.1 hget
          have hnolink : ∀ target, child ≠ .link target := by
            rintro target rfl
            cases rest with
            | nil => exact hlink target (Option.some.inj hget).symm
            | cons next rest => cases hget
          have hnext := ih (Entry.get?_concat hstart hchild) hrest hget
          rw [List.append_assoc, List.singleton_append] at hnext
          rw [follow, hstart]
          simp only [hname.ne_empty, hname.ne_dot, hname.ne_parent, beq_iff_eq, Bool.or_eq_true,
            or_self, if_false, hchild]
          cases child with
          | link target => exact absurd rfl (hnolink target)
          | file content => exact hnext
          | directory inner => exact hnext

section

variable (hne : trail ≠ []) (hplain : ∀ name ∈ trail, Path.Plain name)

include hne hplain

/-- **A trail of names leads straight to its end**, if there is no link. -/
lemma find_ofTrail (hget : d.root.get? trail = some e) (hlink : ∀ target, e ≠ .link target)
    (through : Bool) : d.find (.ofTrail trail) through = .ok (trail, e) := by
  have habsolute : (Path.ofTrail trail).isAbsolute = true := by simp [Path.isAbsolute, Path.ofTrail]
  have hempty : (Path.ofTrail trail).text.isEmpty = false := by
    simp [Path.ofTrail, String.isEmpty_eq_false_iff]
  have hroot : ∃ entries, d.root = .directory entries := by
    cases hroot : d.root with
    | directory entries => exact ⟨entries, rfl⟩
    | file content =>
        obtain ⟨name, rest, rfl⟩ := List.exists_cons_of_ne_nil hne
        rw [hroot] at hget
        cases hget
    | link target =>
        obtain ⟨name, rest, rfl⟩ := List.exists_cons_of_ne_nil hne
        rw [hroot] at hget
        cases hget
  obtain ⟨entries, hroot⟩ := hroot
  have hstart : d.root.get? [] = some d.root := rfl
  have hfollow := follow_trail hstart hplain hget hlink through linkLimit
  -- The segment before the first slash is empty, and does not lead away from the root.
  have hslash : follow d.root through linkLimit [] ("" :: trail)
      = follow d.root through linkLimit [] trail := by
    rw [follow, hroot]
    simp [Entry.get?]
  rw [find, locate, hempty, habsolute, segmentsOf_ofTrail hne hplain]
  simp only [Bool.false_eq_true, if_false, if_true, hslash, hfollow, List.nil_append]

lemma canonical_ofTrail (hget : d.root.get? trail = some e) (hlink : ∀ target, e ≠ .link target) :
    d.canonical (.ofTrail trail) = .ok (.ofTrail trail) := by
  rw [canonical, find_ofTrail hne hplain hget hlink]
  rfl

lemma readText_ofTrail {text : String} (hget : d.root.get? trail = some (.file text.toUTF8)) :
    d.readText (.ofTrail trail) = .ok text := by
  have htext : String.fromUTF8? text.toUTF8 = some text := dif_pos text.isValidUTF8
  rw [readText, find_ofTrail hne hplain hget (by simp)]
  simp only [htext]

end

/-! ## Files in their places -/

variable {parser : Parser} {o : SearchOptions} {path root : Path} {rootModule : String}
  {files : List SourceFile}

lemma path_eq_of_readSource {f : SourceFile} (h : d.readSource parser path = .ok f) :
    f.path = path ∧ f.Parsed := by
  rw [readSource] at h
  split at h
  · cases h
  · exact SourceFile.parsed_of_ofText h

/-- A file is read from its text if the parser gives the text its tree. -/
lemma readSource_of_parsed {f : SourceFile} (hparsed : f.Parsed) {text : String}
    (htext : d.readText f.path = .ok text) (htree : parser.tree text = f.tree) :
    d.readSource parser f.path = .ok f := by
  rw [readSource, htext]
  change SourceFile.check f.path (parser.tree text) = .ok f
  rw [htree, hparsed.accepted]

/-- What an analysis does once it knows the paths. -/
lemma analyze_eq_bind (hroot : d.canonical path = .ok root)
    (hmodule : d.rootModule root = .ok rootModule) {paths : List Path}
    (hsearch : d.search o root = .ok paths) :
    d.analyze parser o path
      = paths.mapM (d.readSource parser) >>= Analysis.ofFiles root rootModule := by
  rw [analyze, hroot]
  change (d.rootModule root >>= fun rootModule => _) = _
  rw [hmodule]
  change (d.search o root >>= fun paths => _) = _
  rw [hsearch]
  rfl

/-- What an analysis of a root finds before it reads any file. -/
structure Finds (d : Disk) (o : SearchOptions) (root : Path) (rootModule : String)
    (paths : List Path) : Prop where
  canonical : d.canonical root = .ok root
  rootModule : d.rootModule root = .ok rootModule
  search : d.search o root = .ok paths

/-- The files are in the places where an analysis of the root looks for them, and the parser reads
each of them from what is there. -/
structure Stores (d : Disk) (parser : Parser) (o : SearchOptions) (root : Path)
    (rootModule : String) (files : List SourceFile) : Prop extends
    d.Finds o root rootModule (files.map SourceFile.path) where
  read : ∀ f ∈ files, d.readSource parser f.path = .ok f

/-- In a directory at the end of a trail, the manifest names the module, and the search finds what
is below the directory, if that is in order. -/
lemma finds_of_get? (trail : List String) (hne : trail ≠ [])
    (hplain : ∀ name ∈ trail, Path.Plain name) {entries : List (String × Entry)}
    (hget : d.root.get? trail = some (.directory entries)) (manifest : String)
    (hmanifest : entries.lookup Manifest.fileName = some (.file manifest.toUTF8))
    (hmodule : Manifest.modulePath? manifest = some rootModule) {paths : List Path}
    (hfound : filesBelow o (.ofTrail trail) entries = paths)
    (hsorted : Sorted.Strict Path.compare paths) :
    d.Finds o (.ofTrail trail) rootModule paths where
  canonical := canonical_ofTrail hne hplain hget (by simp)
  rootModule := by
    have hname : Path.Plain Manifest.fileName := by decide
    have htext : d.readText ((Path.ofTrail trail).join ⟨Manifest.fileName⟩) = .ok manifest := by
      rw [Path.join_ofTrail hne hplain hname]
      refine readText_ofTrail (by simp) ?_ (Entry.get?_concat hget hmanifest)
      exact List.forall_mem_append.2 ⟨hplain, List.forall_mem_singleton.2 hname⟩
    simp only [Disk.rootModule, htext, hmodule]
  search := by
    rw [search_eq_of_find (find_ofTrail hne hplain hget (by simp) true), hfound, Sorted.sort,
      List.mergeSort_of_pairwise (hsorted.imp fun hlt => by rw [hlt]; rfl)]

namespace Stores

variable (h : d.Stores parser o root rootModule files)

include h

lemma mapM_readSource : (files.map SourceFile.path).mapM (d.readSource parser) = .ok files := by
  rw [mapM_eq_ok_iff, List.forall₂_map_left_iff, List.forall₂_same]
  exact h.read

/-- **The analysis of a project is that of its files.** -/
lemma analyze_eq : d.analyze parser o root = Analysis.ofFiles root rootModule files := by
  rw [analyze_eq_bind h.canonical h.rootModule h.search, h.mapM_readSource]
  rfl

end Stores

end Disk

/-! ## Parsers that know their files -/

namespace Go

/-- Reads the path of a file as the tree of that file. -/
def Parser.knowing (files : List SourceFile) : Parser := fun text =>
  ((files.find? fun f => f.path.text == text).map SourceFile.tree).getD default

/-- The parser knows the files that it was made of, if their trees are numbered as it would number
them. -/
lemma Parser.tree_knowing {files : List SourceFile} (hpaths : (files.map SourceFile.path).Nodup)
    {f : SourceFile} (hf : f ∈ files) (hnumbered : f.tree.numberFrom 0 = f.tree) :
    (knowing files).tree f.path.text = f.tree := by
  have hfind : (files.find? fun g => g.path.text == f.path.text) = some f := by
    induction files with
    | nil => cases hf
    | cons g rest ih =>
        rw [List.map_cons, List.nodup_cons] at hpaths
        rcases List.mem_cons.1 hf with rfl | hf
        · exact List.find?_cons_of_pos (by simp)
        · rw [List.find?_cons_of_neg, ih hpaths.2 hf]
          rw [beq_iff_eq]
          intro htext
          exact hpaths.1 (List.mem_map.2 ⟨f, hf, Path.text_injective htext.symm⟩)
  rw [tree, knowing, hfind]
  exact hnumbered

end Go

/-- Files that have their own paths for texts are read by a parser that knows them. -/
lemma Disk.readSource_knowing {d : Disk} {files : List SourceFile} (ways : List (List String))
    (hparsed : ∀ f ∈ files, f.Parsed)
    (hnumbered : files.map (fun f => f.tree.numberFrom 0) = files.map SourceFile.tree)
    (hways : files.map SourceFile.path = ways.map Path.ofTrail)
    (hdistinct : (files.map SourceFile.path).Nodup)
    (hplain : ∀ way ∈ ways, way ≠ [] ∧ ∀ name ∈ way, Path.Plain name)
    (hstored : ways.map d.root.get?
      = ways.map fun way => some (.file (Path.ofTrail way).text.toUTF8)) :
    ∀ f ∈ files, d.readSource (.knowing files) f.path = .ok f := by
  intro f hf
  have hpath : f.path ∈ ways.map Path.ofTrail := hways ▸ List.mem_map_of_mem hf
  obtain ⟨way, hway, hpath⟩ := List.mem_map.1 hpath
  have htext : d.readText f.path = .ok f.path.text := by
    rw [← hpath]
    exact readText_ofTrail (hplain way hway).1 (hplain way hway).2
      (List.map_inj_left.1 hstored way hway)
  have htree := Parser.tree_knowing hdistinct hf (List.map_inj_left.1 hnumbered f hf)
  exact readSource_of_parsed (hparsed f hf) htext htree

/-! ## A small project -/

namespace Disk.Sample

/-- The directory `p` with a manifest and other entries. -/
def project (entries : List (String × Entry)) : Disk where
  root := .directory [("p", .directory (("go.mod", .file "module m\n".toUTF8) :: entries))]

lemma finds_project {entries : List (String × Entry)} {o : SearchOptions} {paths : List Path}
    (hfound : filesBelow o ⟨"/p"⟩ entries = paths) (hsorted : Sorted.Strict Path.compare paths) :
    (project entries).Finds o ⟨"/p"⟩ "m" paths := by
  have hmanifest : o.selects "go.mod" = false := by
    rw [SearchOptions.selects, show Path.extension? "go.mod" = some "mod" by decide]
    rfl
  refine finds_of_get? ["p"] (by simp) (by decide) rfl "module m\n" rfl (by cbv) ?_ hsorted
  rw [filesBelow, hmanifest]
  exact hfound

end Disk.Sample

end GoReach
