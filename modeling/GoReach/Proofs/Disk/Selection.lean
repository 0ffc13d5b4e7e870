import GoReach.Proofs.Disk.Writing
import GoReach.Proofs.Text.Characters

/-!
# Which files a search selects

A search of a directory finds the files to which a trail of names leads, through directories that
are not to be left out, and whose own name is one that is searched for (`Selected`).  There are two
sides to this.  Going down a trail one meets the entries that the search goes through
(`mem_filesBelow_of_selected`), and whatever the search finds was found at the end of such a trail
(`selected_of_mem_filesBelow`).

`Selected` looks names up in directories, and so it cannot tell in which order their entries are
listed.  Whoever lists them in another order (`Entry.Relisted`) finds alike entries at the end of
every trail (`Entry.Relisted.alike`), and the same files in a search.
-/

namespace GoReach

namespace Path

/-- The path at the end of a trail of names. -/
def descend (base : Path) : List String → Path
  | [] => base
  | name :: rest => (base.join ⟨name⟩).descend rest

/-- Going down a trail adds its names. -/
lemma components_descend (base : Path) {trail : List String} (h : ∀ name ∈ trail, Plain name) :
    (base.descend trail).components = base.components ++ trail.map Component.name := by
  induction trail generalizing base with
  | nil => simp [descend]
  | cons name rest ih =>
      rw [List.forall_mem_cons] at h
      rw [descend, ih _ h.2, components_join base h.1, List.map_cons, List.append_assoc,
        List.singleton_append]

/-- Different trails of names lead to different paths. -/
lemma descend_injective {base : Path} {trail trail' : List String} (h : ∀ name ∈ trail, Plain name)
    (h' : ∀ name ∈ trail', Plain name) (heq : base.descend trail = base.descend trail') :
    trail = trail' := by
  have hcomponents := congrArg components heq
  rw [components_descend base h, components_descend base h', List.append_right_inj] at hcomponents
  exact List.map_injective_iff.2 (fun _ _ hname => Component.name.inj hname) hcomponents

/-- The extension of a name stands after its last dot, and something stands before that dot. -/
lemma extension?_eq_some_iff {name ext : String} :
    extension? name = some ext ↔
      '.' ∉ ext.toList ∧ ∃ stem, stem ≠ "" ∧ name = stem ++ "." ++ ext := by
  rw [extension?]
  constructor
  · intro h
    obtain ⟨hsplit, hafter, hdot⟩ :=
      (Text.takeWhile_dropWhile_iff (p := (· != '.'))).1 ⟨rfl, rfl⟩
    generalize name.toList.reverse.takeWhile (· != '.') = after at h hsplit hafter
    generalize name.toList.reverse.dropWhile (· != '.') = rest at h hsplit hdot
    cases rest with
    | nil => cases h
    | cons c before =>
        obtain rfl : c = '.' := by simpa using hdot c rfl
        cases before with
        | nil => cases h
        | cons c before =>
            obtain rfl : String.ofList after.reverse = ext := Option.some.inj h
            refine ⟨fun hmem => ?_, String.ofList (c :: before).reverse, by simp, ?_⟩
            · simpa using hafter '.' (by simpa using hmem)
            · rw [← String.toList_inj, ← List.reverse_inj, hsplit]
              simp
  · rintro ⟨hdot, stem, hstem, rfl⟩
    have hext : ∀ c ∈ ext.toList.reverse, (c != '.') = true := by
      intro c hc
      rw [bne_iff_ne]
      rintro rfl
      exact hdot (List.mem_reverse.1 hc)
    have hreverse : (stem ++ "." ++ ext).toList.reverse
        = ext.toList.reverse ++ '.' :: stem.toList.reverse := by simp
    obtain ⟨htake, hdrop⟩ := Text.takeWhile_dropWhile_iff.2 ⟨hreverse, hext, by simp⟩
    rw [htake, hdrop]
    simp [hstem]

end Path

namespace SearchOptions

/-- The name is that of a Go file, and not of a test unless tests are asked for. -/
structure Wants (o : SearchOptions) (name : String) : Prop where
  extension : ∃ stem, stem ≠ "" ∧ name = stem ++ ".go"
  test : o.includeTests = true ∨ ¬ "_test.go".toList <:+ name.toList

/-- The test of a name decides whether it is wanted. -/
lemma selects_iff {o : SearchOptions} {name : String} : o.selects name = true ↔ o.Wants name := by
  have hextension :
      Path.extension? name = some "go" ↔ ∃ stem, stem ≠ "" ∧ name = stem ++ ".go" := by
    rw [Path.extension?_eq_some_iff, and_iff_right (by decide)]
    simp only [String.append_assoc]
    rfl
  rw [selects, Bool.and_eq_true, beq_iff_eq, hextension, Bool.or_eq_true, Bool.not_eq_true',
    ← Bool.not_eq_true, List.isSuffixOf_iff_suffix]
  exact ⟨fun h => ⟨h.1, h.2⟩, fun h => ⟨h.1, h.2⟩⟩

example : ["a.go", "a_test.go", ".go", "a.go.txt"].map ({} : SearchOptions).selects
    = [true, false, false, false] := by decide

end SearchOptions

namespace Disk

namespace Entry

/-! ## Entries by name -/

/-- Where names are different, every entry is found by its name. -/
lemma lookup_of_mem {entries : List (String × Entry)} (hdistinct : (entries.map Prod.fst).Nodup)
    {name : String} {e : Entry} (h : (name, e) ∈ entries) : entries.lookup name = some e := by
  induction entries with
  | nil => cases h
  | cons x rest ih =>
      rw [List.map_cons, List.nodup_cons] at hdistinct
      rcases List.mem_cons.1 h with rfl | hrest
      · exact List.lookup_cons_self
      · have hne : (name == x.1) = false := by
          rw [beq_eq_false_iff_ne]
          rintro rfl
          exact hdistinct.1 (List.mem_map.2 ⟨_, hrest, rfl⟩)
        obtain ⟨n, e'⟩ := x
        rw [List.lookup_cons, hne]
        exact ih hdistinct.2 hrest

/-- A name that comes first in a directory hides nothing that is found under other names. -/
lemma get?_cons_of_get? {x : String × Entry} {rest : List (String × Entry)} {trail : List String}
    {e : Entry} (hnew : x.1 ∉ rest.map Prod.fst) (htrail : trail ≠ [])
    (h : (directory rest).get? trail = some e) : (directory (x :: rest)).get? trail = some e := by
  obtain ⟨name, more, rfl⟩ := List.exists_cons_of_ne_nil htrail
  rw [get?] at h ⊢
  obtain ⟨child, hchild, hmore⟩ := Option.bind_eq_some_iff.1 h
  have hne : (name == x.1) = false := by
    rw [beq_eq_false_iff_ne]
    rintro rfl
    exact hnew (List.mem_map.2 ⟨_, mem_of_lookup hchild, rfl⟩)
  obtain ⟨n, e'⟩ := x
  rw [List.lookup_cons, hne, hchild]
  exact hmore

/-- The names on a trail of a proper tree are plain. -/
lemma plain_of_get? {e e' : Entry} {trail : List String} (h : e.Proper)
    (hget : e.get? trail = some e') : ∀ name ∈ trail, Path.Plain name := by
  induction trail generalizing e with
  | nil => simp
  | cons name rest ih =>
      cases h with
      | file content => cases hget
      | link target => cases hget
      | directory distinct plain proper =>
          rw [get?] at hget
          obtain ⟨child, hchild, hrest⟩ := Option.bind_eq_some_iff.1 hget
          have hmem := mem_of_lookup hchild
          exact List.forall_mem_cons.2 ⟨plain _ hmem, ih (proper _ hmem) hrest⟩

end Entry

/-! ## Trails to files -/

variable {o : SearchOptions} {way : List String} {name : String}

/-- From an entry on, names lead through directories to a file that is searched for, and none of the
directories is to be left out. -/
structure Selected (o : SearchOptions) (e : Entry) (way : List String) (name : String) : Prop where
  file : ∃ content, e.get? (way ++ [name]) = some (.file content)
  wanted : o.Wants name
  kept : ∀ n ∈ way, n ∉ o.ignored

/-- What is selected in a directory is selected if there is one more entry. -/
lemma Selected.cons {x : String × Entry} {rest : List (String × Entry)}
    (h : Selected o (.directory rest) way name) (hnew : x.1 ∉ rest.map Prod.fst) :
    Selected o (.directory (x :: rest)) way name where
  file := h.file.imp fun _ hget => Entry.get?_cons_of_get? hnew (by simp) hget
  wanted := h.wanted
  kept := h.kept

variable {directory : Path} {entries : List (String × Entry)}

/-- A file with a wanted name is found, ... -/
lemma mem_filesBelow_of_file {content : ByteArray} (h : (name, Entry.file content) ∈ entries)
    (hname : o.selects name = true) : directory.join ⟨name⟩ ∈ filesBelow o directory entries := by
  fun_induction filesBelow o directory entries <;> grind

/-- ... and so is what is found in a directory that is not ignored. -/
lemma mem_filesBelow_of_directory {inner : List (String × Entry)}
    (h : (name, Entry.directory inner) ∈ entries) (hname : name ∉ o.ignored) {p : Path}
    (hp : p ∈ filesBelow o (directory.join ⟨name⟩) inner) : p ∈ filesBelow o directory entries := by
  fun_induction filesBelow o directory entries <;> grind

/-- What a trail leads to is found. -/
lemma mem_filesBelow_of_selected (h : Selected o (.directory entries) way name) :
    directory.descend (way ++ [name]) ∈ filesBelow o directory entries := by
  induction way generalizing directory entries with
  | nil =>
      obtain ⟨content, hget⟩ := h.file
      rw [List.nil_append, Entry.get?] at hget
      obtain ⟨child, hchild, hget⟩ := Option.bind_eq_some_iff.1 hget
      rw [Entry.get?] at hget
      obtain rfl := Option.some.inj hget
      exact mem_filesBelow_of_file (Entry.mem_of_lookup hchild)
        (SearchOptions.selects_iff.2 h.wanted)
  | cons n way ih =>
      obtain ⟨content, hget⟩ := h.file
      rw [List.cons_append, Entry.get?] at hget
      obtain ⟨child, hchild, hget⟩ := Option.bind_eq_some_iff.1 hget
      have hkept := List.forall_mem_cons.1 h.kept
      cases child with
      | file content' => cases way <;> cases hget
      | link target => cases way <;> cases hget
      | directory inner =>
          exact mem_filesBelow_of_directory (Entry.mem_of_lookup hchild) hkept.1
            (ih ⟨⟨content, hget⟩, h.wanted, hkept.2⟩)

/-- What is found is at the end of a trail. -/
lemma selected_of_mem_filesBelow (hproper : (Entry.directory entries).Proper) {p : Path}
    (h : p ∈ filesBelow o directory entries) :
    ∃ way name, p = directory.descend (way ++ [name]) ∧
      Selected o (.directory entries) way name := by
  have later : ∀ {directory : Path} {x : String × Entry} {rest : List (String × Entry)},
      x.1 ∉ rest.map Prod.fst →
      (∃ way name, p = directory.descend (way ++ [name]) ∧ Selected o (.directory rest) way name) →
      ∃ way name, p = directory.descend (way ++ [name]) ∧
        Selected o (.directory (x :: rest)) way name :=
    fun hnew ⟨way, name, hp, hselected⟩ => ⟨way, name, hp, hselected.cons hnew⟩
  fun_induction filesBelow o directory entries with
  | case1 => cases h
  | case2 directory name content rest more hselects ih =>
      obtain ⟨-, hnew, -, hrest⟩ := Entry.proper_cons_iff.1 hproper
      rcases List.mem_cons.1 h with rfl | h
      · refine ⟨[], name, rfl, ⟨content, ?_⟩, SearchOptions.selects_iff.1 hselects, by simp⟩
        simp [Entry.get?]
      · exact later hnew (ih hrest h)
  | case3 directory name content rest more hselects ih =>
      obtain ⟨-, hnew, -, hrest⟩ := Entry.proper_cons_iff.1 hproper
      exact later hnew (ih hrest h)
  | case4 directory name inner rest more hignored ih =>
      obtain ⟨-, hnew, -, hrest⟩ := Entry.proper_cons_iff.1 hproper
      exact later hnew (ih hrest h)
  | case5 directory name inner rest more hignored ihrest ihinner =>
      obtain ⟨-, hnew, hinner, hrest⟩ := Entry.proper_cons_iff.1 hproper
      rcases List.mem_append.1 h with h | h
      · obtain ⟨way, last, hp, hselected⟩ := ihinner hinner h
        obtain ⟨content, hget⟩ := hselected.file
        refine ⟨name :: way, last, hp, ⟨content, ?_⟩, hselected.wanted, ?_⟩
        · simpa [Entry.get?] using hget
        · exact List.forall_mem_cons.2 ⟨by simpa using hignored, hselected.kept⟩
      · exact later hnew (ihrest hrest h)
  | case6 directory name target rest ih =>
      obtain ⟨-, hnew, -, hrest⟩ := Entry.proper_cons_iff.1 hproper
      exact later hnew (ih hrest h)

/-- A search finds what is selected. -/
lemma mem_filesBelow_iff (hproper : (Entry.directory entries).Proper) {p : Path} :
    p ∈ filesBelow o directory entries ↔
      ∃ way name, p = directory.descend (way ++ [name]) ∧
        Selected o (.directory entries) way name := by
  refine ⟨selected_of_mem_filesBelow hproper, ?_⟩
  rintro ⟨way, name, rfl, hselected⟩
  exact mem_filesBelow_of_selected hselected

/-! ## The order of entries -/

namespace Entry

/-- The same tree, with the entries of its directories listed in another order. -/
inductive Relisted : Entry → Entry → Prop where
  | refl (e : Entry) : Relisted e e
  | trans {e₁ e₂ e₃ : Entry} (h₁₂ : Relisted e₁ e₂) (h₂₃ : Relisted e₂ e₃) : Relisted e₁ e₃
  /-- The entries of the directory itself change places. -/
  | here {entries entries' : List (String × Entry)} (h : entries.Perm entries') :
      Relisted (.directory entries) (.directory entries')
  /-- Something changes within one of the entries. -/
  | inside {before after : List (String × Entry)} {name : String} {e e' : Entry}
      (h : Relisted e e') :
      Relisted (.directory (before ++ (name, e) :: after))
        (.directory (before ++ (name, e') :: after))

/-- The order of entries does not matter for a tree to be proper, ... -/
lemma Relisted.proper {e e' : Entry} (h : Relisted e e') (hproper : e.Proper) : e'.Proper := by
  induction h with
  | refl e => exact hproper
  | trans _ _ ih₁₂ ih₂₃ => exact ih₂₃ (ih₁₂ hproper)
  | here h =>
      obtain _ | _ | ⟨distinct, plain, proper⟩ := hproper
      exact .directory ((h.map Prod.fst).nodup_iff.1 distinct)
        (fun x hx => plain x (h.mem_iff.2 hx)) fun x hx => proper x (h.mem_iff.2 hx)
  | inside h ih =>
      obtain _ | _ | ⟨distinct, plain, proper⟩ := hproper
      simp only [List.forall_mem_append, List.forall_mem_cons] at plain proper
      refine .directory (by simpa using distinct) ?_ ?_
      · simpa only [List.forall_mem_append, List.forall_mem_cons] using plain
      · simp only [List.forall_mem_append, List.forall_mem_cons]
        exact ⟨proper.1, ih proper.2.1, proper.2.2⟩

lemma Alike.trans {o₁ o₂ o₃ : Option Entry} (h₁₂ : Alike o₁ o₂) (h₂₃ : Alike o₂ o₃) :
    Alike o₁ o₃ := by
  cases h₁₂ with
  | refl => exact h₂₃
  | directories entries entries' =>
      cases h₂₃ with
      | refl => exact .directories entries entries'
      | directories _ entries'' => exact .directories entries entries''

lemma Alike.exists_directory {entries : List (String × Entry)} {o : Option Entry}
    (h : Alike (some (.directory entries)) o) : ∃ entries', o = some (.directory entries') := by
  cases h with
  | refl => exact ⟨entries, rfl⟩
  | directories _ entries' => exact ⟨entries', rfl⟩

lemma Alike.exists_file_iff {o o' : Option Entry} (h : Alike o o') :
    (∃ content, o = some (.file content)) ↔ ∃ content, o' = some (.file content) := by
  cases h with
  | refl => rfl
  | directories entries entries' => simp

/-- ... or for finding them by their names. -/
lemma lookup_eq_of_perm {entries entries' : List (String × Entry)}
    (hdistinct : (entries.map Prod.fst).Nodup) (h : entries.Perm entries') (name : String) :
    entries'.lookup name = entries.lookup name := by
  refine Option.ext fun e => ⟨fun he => ?_, fun he => ?_⟩
  · exact lookup_of_mem hdistinct (h.mem_iff.2 (mem_of_lookup he))
  · exact lookup_of_mem ((h.map Prod.fst).nodup_iff.1 hdistinct) (h.mem_iff.1 (mem_of_lookup he))

/-- In whatever order entries are listed, trails lead to alike entries. -/
lemma Relisted.alike {e e' : Entry} (h : Relisted e e') (hproper : e.Proper) (trail : List String) :
    Alike (e.get? trail) (e'.get? trail) := by
  induction h generalizing trail with
  | refl e => exact .refl _
  | trans h₁₂ _ ih₁₂ ih₂₃ => exact (ih₁₂ hproper trail).trans (ih₂₃ (h₁₂.proper hproper) trail)
  | here h =>
      obtain _ | _ | ⟨distinct, -, -⟩ := hproper
      cases trail with
      | nil => exact .directories _ _
      | cons n rest =>
          rw [get?, get?, lookup_eq_of_perm distinct h]
          exact .refl _
  | @inside before after name e e' h ih =>
      obtain _ | _ | ⟨-, -, proper⟩ := hproper
      cases trail with
      | nil => exact .directories _ _
      | cons n rest =>
          rw [get?, get?, List.lookup_append, List.lookup_append]
          cases before.lookup n with
          | some x => exact .refl _
          | none =>
              rw [Option.none_or, Option.none_or, List.lookup_cons, List.lookup_cons]
              cases n == name with
              | true => exact ih (proper (name, e) (by simp)) rest
              | false => exact .refl _

end Entry

variable {d : Disk} {root : Path} {trail : List String}

/-- A path leads to an entry if that is what is at its destination. -/
lemma find_eq_ok_iff {p : Path} {e : Entry} :
    d.find p true = .ok (trail, e) ↔
      d.destination? p = some trail ∧ d.root.get? trail = some e := by
  rw [find, destination?]
  cases hlocate : d.locate p true with
  | error fault => simp [Except.toOption]
  | ok place =>
      cases place with
      | taken t e' =>
          have hget := get?_of_locate_taken hlocate
          simp only [Except.toOption, Place.trail, Option.map_some, Except.ok.injEq, Prod.mk.injEq,
            Option.some.injEq]
          refine and_congr_right fun ht => ?_
          rw [← ht, hget, Option.some.injEq]
      | free directory name =>
          obtain ⟨entries, hget, hnone⟩ := exists_directory_of_locate hlocate
          simp only [Except.toOption, Place.trail, Option.map_some, Option.some.injEq, reduceCtorEq,
            false_iff, not_and]
          rintro rfl
          simp [Entry.get?_append, hget, Entry.get?, hnone]

/-- In whatever order entries are listed, a path that leads to a directory leads to one with the
same files below it. -/
lemma find_of_relisted (hproper : d.root.Proper) {tree : Entry} (h : d.root.Relisted tree)
    (hfind : d.find root true = .ok (trail, .directory entries)) :
    ∃ entries', ({ d with root := tree } : Disk).find root true = .ok (trail, .directory entries') ∧
      ∀ way name, Selected o (.directory entries) way name ↔
        Selected o (.directory entries') way name := by
  obtain ⟨hdestination, hget⟩ := find_eq_ok_iff.1 hfind
  have halike := h.alike hproper
  obtain ⟨entries', hget'⟩ : ∃ entries', tree.get? trail = some (.directory entries') :=
    (hget ▸ halike trail).exists_directory
  refine ⟨entries', find_eq_ok_iff.2 ⟨?_, hget'⟩, fun way name => ?_⟩
  · rw [destination?_of_becomes fun t => (halike t).becomes, hdestination]
  · have hfile := (halike (trail ++ (way ++ [name]))).exists_file_iff
    rw [Entry.get?_append, Entry.get?_append, hget, hget', Option.bind_some,
      Option.bind_some] at hfile
    exact ⟨fun h => ⟨hfile.1 h.file, h.wanted, h.kept⟩, fun h => ⟨hfile.2 h.file, h.wanted, h.kept⟩⟩

/-- A search goes through the directory to which the path leads, be it through a link. -/
lemma search_eq_of_find (hfind : d.find root true = .ok (trail, .directory entries)) :
    d.search o root = .ok (Sorted.sort Path.compare (filesBelow o root entries)) := by
  by_cases hlink : d.IsLink root
  · obtain ⟨t, target, hlocate⟩ := hlink
    rw [search, find, hlocate]
    simp only [hfind]
  · rw [search, find, ← locate_through hlink, ← find, hfind]

/-- **A search finds what it selects, in order.**  On a proper disk, a search of a path that leads
to a directory succeeds.  The paths that it finds are in strict order, and they are those to which
trails of names lead down from the path, through directories whose names are not to be left out, to
a file whose name ends in `.go`, is longer than that, and does not end in `_test.go` unless tests
are asked for.  The name of the directory itself does not matter, and neither does the order in
which any directory lists its entries. -/
theorem search_selects (hproper : d.root.Proper)
    (hfind : d.find root true = .ok (trail, .directory entries)) :
    ∃ paths, d.search o root = .ok paths ∧ Sorted.Strict Path.compare paths ∧
      (∀ p, p ∈ paths ↔ ∃ way name, p = root.descend (way ++ [name]) ∧
        Selected o (.directory entries) way name) ∧
      (∀ way name, (∀ n ∈ way ++ [name], Path.Plain n) →
        (root.descend (way ++ [name]) ∈ paths ↔ Selected o (.directory entries) way name)) ∧
      ∀ tree, d.root.Relisted tree →
        ({ d with root := tree } : Disk).search o root = .ok paths := by
  have hentries := hproper.of_get? (get?_of_find hfind)
  have hmem : ∀ p, p ∈ Sorted.sort Path.compare (filesBelow o root entries) ↔
      ∃ way name, p = root.descend (way ++ [name]) ∧ Selected o (.directory entries) way name :=
    fun p => Sorted.mem_sort.trans (mem_filesBelow_iff hentries)
  refine ⟨_, search_eq_of_find hfind, strict_sort_filesBelow hentries, hmem,
    fun way name hplain => ?_, fun tree htree => ?_⟩
  · rw [hmem]
    constructor
    · rintro ⟨way', name', heq, hselected⟩
      obtain ⟨content, hget⟩ := hselected.file
      have htrails := Path.descend_injective hplain (Entry.plain_of_get? hentries hget) heq
      obtain ⟨rfl, hname⟩ := List.append_inj' htrails rfl
      exact List.singleton_inj.1 hname ▸ hselected
    · exact fun hselected => ⟨way, name, rfl, hselected⟩
  · obtain ⟨entries', hfind', hsame⟩ := find_of_relisted (o := o) hproper htree hfind
    have hentries' := (htree.proper hproper).of_get? (get?_of_find hfind')
    rw [search_eq_of_find hfind']
    -- Both are strictly sorted, so it is enough that they have the same elements.
    refine congrArg Except.ok (Sorted.Strict.eq_of_mem_iff (strict_sort_filesBelow hentries')
      (strict_sort_filesBelow hentries) fun p => ?_)
    rw [hmem, Sorted.mem_sort, mem_filesBelow_iff hentries']
    simp only [hsame]

end Disk

end GoReach
