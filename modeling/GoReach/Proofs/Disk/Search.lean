import GoReach.Disk.Search
import GoReach.Proofs.Order
import GoReach.Proofs.Path
import GoReach.Proofs.Sorted

/-!
# What a search finds

On a disk as there can be one, the entries of a directory have different names, and each name is one
component of a path (`Entry.Proper`).  A search goes down from one entry, so whatever it finds below
an entry has the path of that entry at its beginning (`exists_entry_of_mem_filesBelow`).  Below
different entries there are different paths, so the paths that are found are in strict order
(`strict_search`).  A search without tests finds the same paths but for the tests among them
(`search_withoutTests`).
-/

namespace GoReach.Disk

namespace Entry

/-- In every directory the names differ, and each of them is one component of a path. -/
inductive Proper : Entry → Prop where
  | file (content : ByteArray) : Proper (.file content)
  | link (target : String) : Proper (.link target)
  | directory {entries : List (String × Entry)} (distinct : (entries.map Prod.fst).Nodup)
      (plain : ∀ x ∈ entries, Path.Plain x.1) (proper : ∀ x ∈ entries, Proper x.2) :
      Proper (.directory entries)

/-- An entry more: its name is a plain one that no other entry has. -/
lemma proper_cons_iff {name : String} {e : Entry} {rest : List (String × Entry)} :
    (directory ((name, e) :: rest)).Proper ↔
      Path.Plain name ∧ name ∉ rest.map Prod.fst ∧ e.Proper ∧ (directory rest).Proper := by
  constructor
  · rintro (_ | _ | ⟨distinct, plain, proper⟩)
    rw [List.map_cons, List.nodup_cons] at distinct
    rw [List.forall_mem_cons] at plain proper
    exact ⟨plain.1, distinct.1, proper.1, .directory distinct.2 plain.2 proper.2⟩
  · rintro ⟨hname, hnew, he, _ | _ | ⟨distinct, plain, proper⟩⟩
    exact .directory (List.nodup_cons.2 ⟨hnew, distinct⟩) (List.forall_mem_cons.2 ⟨hname, plain⟩)
      (List.forall_mem_cons.2 ⟨he, proper⟩)

mutual

/-- Whether an entry is proper. -/
def isProper : Entry → Bool
  | .file _ => true
  | .link _ => true
  | .directory entries => areProper entries

def areProper : List (String × Entry) → Bool
  | [] => true
  | (name, e) :: rest =>
    decide (Path.Plain name) && !(rest.map Prod.fst).contains name && e.isProper && areProper rest

end

mutual

lemma isProper_iff : ∀ {e : Entry}, e.isProper = true ↔ e.Proper
  | .file content => iff_of_true (by rw [isProper]) (.file content)
  | .link target => iff_of_true (by rw [isProper]) (.link target)
  | .directory entries => by rw [isProper, areProper_iff]

lemma areProper_iff : ∀ {entries : List (String × Entry)},
    areProper entries = true ↔ (directory entries).Proper
  | [] => iff_of_true (by rw [areProper]) (.directory (by simp) (by simp) (by simp))
  | (name, e) :: rest => by
      rw [proper_cons_iff, areProper, ← isProper_iff (e := e), ← areProper_iff]
      simp [and_assoc]

end

instance (e : Entry) : Decidable e.Proper := decidable_of_iff _ isProper_iff

lemma mem_of_lookup {entries : List (String × Entry)} {name : String} {e : Entry}
    (h : entries.lookup name = some e) : (name, e) ∈ entries := by
  induction entries with
  | nil => cases h
  | cons x rest ih =>
      obtain ⟨n, e'⟩ := x
      rw [List.lookup_cons] at h
      split at h
      next hname =>
        rw [beq_iff_eq.1 hname, ← Option.some.inj h]
        exact List.mem_cons_self
      next => exact List.mem_cons_of_mem _ (ih h)

/-- What is stored in a proper tree is proper. -/
lemma Proper.of_get? {e e' : Entry} {trail : List String} (h : e.Proper)
    (hget : e.get? trail = some e') : e'.Proper := by
  induction trail generalizing e with
  | nil =>
      rw [get?] at hget
      exact Option.some.inj hget ▸ h
  | cons name rest ih =>
      cases h with
      | file content => cases hget
      | link target => cases hget
      | directory distinct plain proper =>
          rw [get?] at hget
          obtain ⟨child, hchild, hrest⟩ := Option.bind_eq_some_iff.1 hget
          exact ih (proper _ (mem_of_lookup hchild)) hrest

/-- Trails are followed one after the other. -/
lemma get?_append (e : Entry) (trail rest : List String) :
    e.get? (trail ++ rest) = (e.get? trail).bind fun e' => e'.get? rest := by
  induction trail generalizing e with
  | nil => simp [get?]
  | cons name more ih =>
      cases e with
      | file content => simp [get?]
      | link target => simp [get?]
      | directory entries => simp [get?, Option.bind_assoc, ih]

lemma get?_concat {e child : Entry} {entries : List (String × Entry)} {trail : List String}
    {name : String} (h : e.get? trail = some (.directory entries))
    (hname : entries.lookup name = some child) : e.get? (trail ++ [name]) = some child := by
  simp [get?_append, h, get?, hname]

end Entry

/-! ## Finding -/

/-- Following a path leads to what is at the end of the trail. -/
lemma get?_of_follow {root : Entry} {through : Bool} {links : Nat} {trail segments : List String}
    {trail' : List String} {e : Entry}
    (h : follow root through links trail segments = .ok (.taken trail' e)) :
    root.get? trail' = some e := by
  fun_induction follow root through links trail segments <;> grind [Entry.get?_concat]

/-- What is found at a path is at the end of its trail. -/
lemma get?_of_find {d : Disk} {p : Path} {through : Bool} {trail : List String} {e : Entry}
    (h : d.find p through = .ok (trail, e)) : d.root.get? trail = some e := by
  rw [find] at h
  split at h
  next trail' e' hlocate =>
    obtain ⟨rfl, rfl⟩ := Prod.mk.inj (Except.ok.inj h)
    rw [locate] at hlocate
    split at hlocate
    · cases hlocate
    · exact get?_of_follow hlocate
  next => cases h
  next => cases h

/-! ## Searching -/

variable {o : SearchOptions} {directory : Path} {entries : List (String × Entry)}

/-- What is found has the path of an entry at its beginning. -/
lemma exists_entry_of_mem_filesBelow (hproper : (Entry.directory entries).Proper) {p : Path}
    (h : p ∈ filesBelow o directory entries) :
    ∃ name ∈ entries.map Prod.fst, directory.components ++ [.name name] <+: p.components := by
  have later : ∀ {directory : Path} {x : String × Entry} {rest : List (String × Entry)},
      (∃ name ∈ rest.map Prod.fst, directory.components ++ [.name name] <+: p.components) →
      ∃ name ∈ (x :: rest).map Prod.fst, directory.components ++ [.name name] <+: p.components :=
    fun ⟨name, hname, hprefix⟩ => ⟨name, List.mem_cons_of_mem _ hname, hprefix⟩
  fun_induction filesBelow o directory entries with
  | case1 => cases h
  | case2 directory name content rest more hselects ih =>
      obtain ⟨hplain, -, -, hrest⟩ := Entry.proper_cons_iff.1 hproper
      rcases List.mem_cons.1 h with rfl | h
      · exact ⟨name, List.mem_cons_self, Path.prefix_components_join directory hplain⟩
      · exact later (ih hrest h)
  | case3 directory name content rest more hselects ih =>
      exact later (ih (Entry.proper_cons_iff.1 hproper).2.2.2 h)
  | case4 directory name inner rest more hignored ih =>
      exact later (ih (Entry.proper_cons_iff.1 hproper).2.2.2 h)
  | case5 directory name inner rest more hignored ihrest ihinner =>
      obtain ⟨hplain, -, hinner, hrest⟩ := Entry.proper_cons_iff.1 hproper
      rcases List.mem_append.1 h with h | h
      · obtain ⟨deeper, -, hprefix⟩ := ihinner hinner h
        refine ⟨name, List.mem_cons_self, ?_⟩
        rw [Path.components_join directory hplain] at hprefix
        exact (List.prefix_append _ _).trans hprefix
      · exact later (ihrest hrest h)
  | case6 directory name target rest ih =>
      exact later (ih (Entry.proper_cons_iff.1 hproper).2.2.2 h)

/-- What is found below an entry is not found below the entries after it. -/
lemma components_ne_of_mem_filesBelow {name : String} (hproper : (Entry.directory entries).Proper)
    (hnew : name ∉ entries.map Prod.fst) {p q : Path}
    (hp : directory.components ++ [.name name] <+: p.components)
    (hq : q ∈ filesBelow o directory entries) : p.components ≠ q.components := by
  intro heq
  obtain ⟨other, hother, hprefix⟩ := exists_entry_of_mem_filesBelow hproper hq
  rw [← heq] at hprefix
  have hlast := List.prefix_of_prefix_length_le hp hprefix (by simp)
  have hsame : name = other := by simpa using hlast
  exact hnew (hsame ▸ hother)

/-- A search finds no file twice. -/
lemma distinct_filesBelow (hproper : (Entry.directory entries).Proper) :
    (filesBelow o directory entries).Pairwise fun p q => p.components ≠ q.components := by
  fun_induction filesBelow o directory entries with
  | case1 => exact List.Pairwise.nil
  | case2 directory name content rest more hselects ih =>
      obtain ⟨hplain, hnew, -, hrest⟩ := Entry.proper_cons_iff.1 hproper
      refine List.pairwise_cons.2 ⟨fun q hq => ?_, ih hrest⟩
      exact components_ne_of_mem_filesBelow hrest hnew
        (Path.prefix_components_join directory hplain) hq
  | case3 directory name content rest more hselects ih =>
      exact ih (Entry.proper_cons_iff.1 hproper).2.2.2
  | case4 directory name inner rest more hignored ih =>
      exact ih (Entry.proper_cons_iff.1 hproper).2.2.2
  | case5 directory name inner rest more hignored ihrest ihinner =>
      obtain ⟨hplain, hnew, hinner, hrest⟩ := Entry.proper_cons_iff.1 hproper
      refine List.pairwise_append.2 ⟨ihinner hinner, ihrest hrest, fun p hp q hq => ?_⟩
      obtain ⟨deeper, -, hprefix⟩ := exists_entry_of_mem_filesBelow hinner hp
      rw [Path.components_join directory hplain] at hprefix
      exact components_ne_of_mem_filesBelow hrest hnew
        ((List.prefix_append _ _).trans hprefix) hq
  | case6 directory name target rest ih => exact ih (Entry.proper_cons_iff.1 hproper).2.2.2

/-- So the sorted list is strictly increasing. -/
lemma strict_sort_filesBelow (hproper : (Entry.directory entries).Proper) :
    Sorted.Strict Path.compare (Sorted.sort Path.compare (filesBelow o directory entries)) := by
  refine Sorted.strict_sort ((distinct_filesBelow hproper).imp ?_)
  exact fun hne heq => hne (Path.compare_eq_iff.1 heq)

/-- A search finds a file in place of a directory, or what is below a directory, or nothing. -/
lemma search_cases {d : Disk} {root : Path} {paths : List Path} (h : d.search o root = .ok paths) :
    paths = [root] ∨ paths = [] ∨ ∃ trail entries, d.root.get? trail = some (.directory entries) ∧
      paths = Sorted.sort Path.compare (filesBelow o root entries) := by
  rw [search] at h
  split at h
  next => cases h
  next =>
    rw [← Except.ok.inj h]
    split
    · exact Or.inl rfl
    · exact Or.inr (Or.inl rfl)
  next trail entries hfind =>
    exact Or.inr (Or.inr ⟨trail, entries, get?_of_find hfind, (Except.ok.inj h).symm⟩)
  next =>
    split at h
    next => cases h
    next trail entries hfind =>
      exact Or.inr (Or.inr ⟨trail, entries, get?_of_find hfind, (Except.ok.inj h).symm⟩)
    next => exact Or.inr (Or.inl (Except.ok.inj h).symm)

/-- The paths that are found on a proper disk are in strict order. -/
lemma strict_search {d : Disk} (hproper : d.root.Proper) {root : Path} {paths : List Path}
    (h : d.search o root = .ok paths) : Sorted.Strict Path.compare paths := by
  obtain rfl | rfl | ⟨trail, entries, hget, rfl⟩ := search_cases h
  · exact List.pairwise_singleton _ root
  · exact List.Pairwise.nil
  · exact strict_sort_filesBelow (hproper.of_get? hget)

/-- The files that are found have different paths, however they are written. -/
lemma distinct_search {d : Disk} (hproper : d.root.Proper) {root : Path} {paths : List Path}
    (h : d.search o root = .ok paths) : paths.Pairwise fun p q => ¬ p.same q := by
  refine (strict_search hproper h).imp fun {p q} hlt hsame => ?_
  rw [Path.compare_eq_iff.2 (beq_iff_eq.1 hsame)] at hlt
  cases hlt

/-- Whatever is found lies below the root of the search. -/
lemma below_of_mem_search {d : Disk} (hproper : d.root.Proper) {root : Path} {paths : List Path}
    (h : d.search o root = .ok paths) : ∀ p ∈ paths, root.components <+: p.components := by
  intro p hp
  obtain rfl | rfl | ⟨trail, entries, hget, rfl⟩ := search_cases h
  · exact List.mem_singleton.1 hp ▸ List.prefix_rfl
  · cases hp
  · rw [Sorted.mem_sort] at hp
    obtain ⟨name, -, hname⟩ := exists_entry_of_mem_filesBelow (hproper.of_get? hget) hp
    exact (List.prefix_append _ _).trans hname

/-! ## Tests -/

/-- Whether the path is that of a test. -/
def isTest (p : Path) : Bool :=
  p.fileName?.any fun name => "_test.go".toList.isSuffixOf name.toList

lemma isTest_join (directory : Path) {name : String} (h : Path.Plain name) :
    isTest (directory.join ⟨name⟩) = "_test.go".toList.isSuffixOf name.toList := by
  rw [isTest, Path.fileName?, Path.components_join directory h]
  simp [Path.Component.name?]

/-- Without tests, the names are those of before without the tests. -/
lemma selects_withoutTests (o : SearchOptions) (name : String) :
    ({ o with includeTests := false } : SearchOptions).selects name
      = (({ o with includeTests := true } : SearchOptions).selects name &&
          !"_test.go".toList.isSuffixOf name.toList) := by
  simp [SearchOptions.selects]

/-- Among the entries of a directory, a search without tests leaves out the tests. -/
lemma filesBelow_withoutTests (hproper : (Entry.directory entries).Proper) :
    filesBelow { o with includeTests := false } directory entries
      = (filesBelow { o with includeTests := true } directory entries).filter (!isTest ·) := by
  fun_induction filesBelow { o with includeTests := true } directory entries with
  | case1 =>
      rw [filesBelow]
      rfl
  | case2 directory name content rest more hselects ih =>
      obtain ⟨hplain, -, -, hrest⟩ := Entry.proper_cons_iff.1 hproper
      rw [filesBelow, List.filter_cons, isTest_join directory hplain, selects_withoutTests,
        hselects, Bool.true_and, ih hrest]
  | case3 directory name content rest more hselects ih =>
      rw [filesBelow, selects_withoutTests, eq_false_of_ne_true hselects, Bool.false_and]
      exact ih (Entry.proper_cons_iff.1 hproper).2.2.2
  | case4 directory name inner rest more hignored ih =>
      rw [filesBelow, if_pos hignored]
      exact ih (Entry.proper_cons_iff.1 hproper).2.2.2
  | case5 directory name inner rest more hignored ihrest ihinner =>
      obtain ⟨-, -, hinner, hrest⟩ := Entry.proper_cons_iff.1 hproper
      rw [filesBelow, if_neg hignored, List.filter_append, ihinner hinner, ihrest hrest]
  | case6 directory name target rest ih =>
      rw [filesBelow]
      exact ih (Entry.proper_cons_iff.1 hproper).2.2.2

/-- On a proper disk, a search without tests finds what a search with tests finds, but for the
tests. -/
lemma search_withoutTests {d : Disk} (hproper : d.root.Proper) {root : Path} {paths : List Path}
    (h : d.search { o with includeTests := true } root = .ok paths) :
    d.search { o with includeTests := false } root = .ok (paths.filter (!isTest ·)) := by
  have hsorted : ∀ {trail : List String} {entries : List (String × Entry)},
      d.root.get? trail = some (.directory entries) →
      Sorted.sort Path.compare (filesBelow { o with includeTests := false } root entries)
        = (Sorted.sort Path.compare
            (filesBelow { o with includeTests := true } root entries)).filter (!isTest ·) := by
    intro trail entries hget
    have hentries := hproper.of_get? hget
    -- Both are strictly sorted, so it is enough that they have the same elements.
    refine Sorted.Strict.eq_of_mem_iff (strict_sort_filesBelow hentries)
      ((strict_sort_filesBelow hentries).filter _) fun p => ?_
    rw [List.mem_filter, Sorted.mem_sort, Sorted.mem_sort, filesBelow_withoutTests hentries,
      List.mem_filter]
  rw [search] at h ⊢
  split at h
  next => cases h
  next hfind =>
    rw [← Except.ok.inj h]
    cases hname : root.fileName? with
    | none => simp
    | some name =>
        have htest : isTest root = "_test.go".toList.isSuffixOf name.toList := by
          rw [isTest, hname, Option.any_some]
        rw [Option.any_some, Option.any_some, selects_withoutTests]
        cases ({ o with includeTests := true } : SearchOptions).selects name with
        | false => simp
        | true => simp [List.filter_cons, htest]
  next hfind => rw [← Except.ok.inj h, hsorted (get?_of_find hfind)]
  next =>
    split at h
    next => cases h
    next hfind => rw [← Except.ok.inj h, hsorted (get?_of_find hfind)]
    next => rw [← Except.ok.inj h]; rfl

end GoReach.Disk
