import Mathlib.Data.List.Chain
import GoReach.Proofs.NameTable

/-!
# What a table records

Where a declaration takes the place of another one, the table records a collision.  For every name
of a module the records are a function of the declarations that the module's files give to it:
`takeovers` lists the neighbours among them that are not the same.

**One declaration, one file, all files.**  Adding a declaration records at most one takeover, that
of the declaration found so far (`collisions_add`).  A file declares a name at most once, so the
same holds for a file (`collisionsOf_addFile`).  The run over all files (`collisionsOf_foldlM`)
carries the declaration found so far in front of those that are still to come.

**Accounting.**  A declaration that is not found any more was replaced by one that is not the same
(`found_or_replaced`).  If no two files have the same path, every further declaration of a name
collides with the one before (`takeovers_of_distinct`).
-/

namespace GoReach

open GoReach.Go (SourceFile)

namespace NameTable

/-- The collisions of a name in a module, in the order in which they were met. -/
def collisionsOf (t : NameTable) (module name : String) : List Collision :=
  t.collisions.toList.filter fun c => c.module == module && c.name == name

/-- The collisions between neighbours in a list of declarations: the later one is kept. -/
def takeovers (module name : String) (ds : List Declaration) : List Collision :=
  ((ds.zip ds.tail).filter fun p => !p.1.same p.2).map fun p => ⟨module, name, p.2, p.1⟩

section Takeovers

variable {module name : String}

@[simp] lemma takeovers_nil : takeovers module name [] = [] := rfl

@[simp] lemma takeovers_singleton (d : Declaration) : takeovers module name [d] = [] := rfl

/-- A declaration takes the name from the one before it, unless they are the same. -/
lemma takeovers_cons_cons (a b : Declaration) (ds : List Declaration) :
    takeovers module name (a :: b :: ds)
      = (if a.same b then [] else [⟨module, name, b, a⟩]) ++ takeovers module name (b :: ds) := by
  cases hab : a.same b <;> simp [takeovers, hab]

/-- The takeovers of a list are those up to a declaration and those from it on. -/
lemma takeovers_append_cons (as : List Declaration) (d : Declaration) (ds : List Declaration) :
    takeovers module name (as ++ d :: ds)
      = takeovers module name (as ++ [d]) ++ takeovers module name (d :: ds) := by
  induction as with
  | nil => simp
  | cons a as ih =>
      cases as with
      | nil => simp [takeovers_cons_cons]
      | cons b as =>
          simp only [List.cons_append, takeovers_cons_cons, List.append_assoc] at ih ⊢
          rw [ih]

/-- A name that is declared once is not taken over. -/
lemma takeovers_of_length_le_one {module name : String} {ds : List Declaration}
    (h : ds.length ≤ 1) : takeovers module name ds = [] := by
  match ds, h with
  | [], _ => rfl
  | [_], _ => rfl

/-- Only declarations are replaced. -/
lemma replaced_mem_of_mem_takeovers {ds : List Declaration} {c : Collision}
    (h : c ∈ takeovers module name ds) : c.replaced ∈ ds := by
  obtain ⟨p, hp, rfl⟩ := List.mem_map.1 h
  exact (List.of_mem_zip (List.mem_filter.1 hp).1).1

/-- Every declaration of a list is the same as the last one or as one that was replaced. -/
lemma found_or_replaced {ds : List Declaration} {d : Declaration} (hd : d ∈ ds) :
    (∃ e, ds.getLast? = some e ∧ e.same d) ∨
      ∃ c ∈ takeovers module name ds, c.replaced.same d := by
  induction ds generalizing d with
  | nil => cases hd
  | cons a ds ih =>
      cases ds with
      | nil =>
          obtain rfl := List.mem_singleton.1 hd
          exact Or.inl ⟨d, rfl, Declaration.same_iff.2 rfl⟩
      | cons b ds =>
          rw [takeovers_cons_cons, List.getLast?_cons_cons]
          -- What holds of a later declaration holds of all that are the same.
          have hlater : ∀ e ∈ b :: ds, e.same d →
              (∃ x, (b :: ds).getLast? = some x ∧ x.same d) ∨
                ∃ c ∈ (if a.same b then [] else [⟨module, name, b, a⟩]) ++
                  takeovers module name (b :: ds), c.replaced.same d := by
            intro e he hed
            rcases ih he with ⟨x, hx, hsame⟩ | ⟨c, hc, hsame⟩
            · exact Or.inl ⟨x, hx, Declaration.same_trans hsame hed⟩
            · exact Or.inr ⟨c, List.mem_append_right _ hc, Declaration.same_trans hsame hed⟩
          rcases List.mem_cons.1 hd with rfl | hd
          · by_cases hdb : d.same b
            · exact hlater b List.mem_cons_self (Declaration.same_symm hdb)
            · exact Or.inr ⟨⟨module, name, b, d⟩, by simp [hdb], Declaration.same_iff.2 rfl⟩
          · exact hlater d hd (Declaration.same_iff.2 rfl)

/-- Among declarations of which no two are the same, every one but the last is replaced by the
next. -/
lemma takeovers_of_distinct {ds : List Declaration} (h : ds.Pairwise fun a b => ¬ a.same b) :
    (takeovers module name ds).map Collision.replaced = ds.dropLast ∧
      (takeovers module name ds).map Collision.kept = ds.tail := by
  induction ds with
  | nil => simp
  | cons a ds ih =>
      obtain ⟨ha, hrest⟩ := List.pairwise_cons.1 h
      cases ds with
      | nil => simp
      | cons b ds =>
          obtain ⟨hreplaced, hkept⟩ := ih hrest
          rw [takeovers_cons_cons, if_neg (ha b List.mem_cons_self)]
          simp [hreplaced, hkept]

/-- Each takeover replaces what the one before it has kept. -/
lemma isChain_takeovers {ds : List Declaration} (h : ds.Pairwise fun a b => ¬ a.same b) :
    (takeovers module name ds).IsChain fun c c' => c.kept = c'.replaced := by
  induction ds with
  | nil => simp
  | cons a ds ih =>
      obtain ⟨ha, hrest⟩ := List.pairwise_cons.1 h
      cases ds with
      | nil => simp
      | cons b ds =>
          rw [takeovers_cons_cons, if_neg (ha b List.mem_cons_self), List.singleton_append,
            List.isChain_cons]
          refine ⟨fun c hc => ?_, ih hrest⟩
          -- The next collision is that of `b` with what comes after it.
          cases ds with
          | nil => simp at hc
          | cons d ds =>
              have hbd : ¬ b.same d := (List.pairwise_cons.1 hrest).1 d List.mem_cons_self
              rw [takeovers_cons_cons, if_neg hbd] at hc
              simp only [List.singleton_append, List.head?_cons, Option.mem_some_iff] at hc
              rw [← hc]

end Takeovers

/-! ## One declaration -/

/-- Adding a declaration reports at most the takeover of its own name. -/
lemma collisions_add (module other name : String) (n : Namespace) (d : Declaration) :
    ((n.add module d).collisions.toList.filter fun c => c.module == other && c.name == name)
      = (n.collisions.toList.filter fun c => c.module == other && c.name == name) ++
        if module = other ∧ d.name = name then
          takeovers other name (n.names[name]?.toList ++ [d])
        else [] := by
  rw [Namespace.add]
  by_cases hthis : module = other ∧ d.name = name
  · obtain ⟨rfl, rfl⟩ := hthis
    cases hfound : n.names[d.name]? with
    | none => simp
    | some replaced => by_cases hsame : replaced.same d <;> simp [takeovers_cons_cons, hsame]
  · rw [if_neg hthis, List.append_nil]
    have hother : ¬ (module == other && d.name == name) = true := by simpa using hthis
    cases hfound : n.names[d.name]? with
    | none => rfl
    | some replaced => by_cases hsame : replaced.same d <;> simp [hsame, hother]

/-! ## One file -/

/-- A list of declarations with different names records at most one takeover of a name. -/
lemma collisions_foldl_add (module other name : String) (ds : List Declaration) (n : Namespace)
    (hds : ds.Pairwise fun a b => a.name ≠ b.name) :
    ((ds.foldl (Namespace.add module) n).collisions.toList.filter
        fun c => c.module == other && c.name == name)
      = (n.collisions.toList.filter fun c => c.module == other && c.name == name) ++
        if module = other then
          takeovers other name
            (n.names[name]?.toList ++ (ds.find? fun d => d.name == name).toList)
        else [] := by
  induction ds generalizing n with
  | nil => cases n.names[name]? <;> simp
  | cons d ds ih =>
      obtain ⟨hd, hrest⟩ := List.pairwise_cons.1 hds
      rw [List.foldl_cons, ih _ hrest, collisions_add, List.append_assoc]
      congr 1
      by_cases hmodule : module = other
      · by_cases hname : d.name = name
        · -- No later declaration has the name, and `d` alone takes nothing over.
          have hnone : (ds.find? fun e => e.name == name) = none :=
            List.find?_eq_none.2 fun e he heq => hd e he (hname.trans (beq_iff_eq.1 heq).symm)
          rw [List.find?_cons_of_pos (by simpa using hname), hnone]
          simp [hmodule, hname, Namespace.add]
        · rw [List.find?_cons_of_neg (by simpa using hname)]
          simp [hmodule, hname, Namespace.add, Std.HashMap.getElem?_insert]
      · simp [hmodule]

/-- A file takes over what its module has found for a name so far. -/
lemma collisionsOf_addFile (t : NameTable) (module other name : String) {f : SourceFile}
    (hf : f.Tidy) :
    (t.addFile module f).collisionsOf other name
      = t.collisionsOf other name ++
        if module = other then
          takeovers other name ((t.lookup other name).toList ++ (f.declaration? name).toList)
        else [] := by
  rw [collisionsOf, addFile, collisions_foldl_add module other name _ _ hf.names_ne, collisionsOf]
  congr 1
  by_cases hmodule : module = other
  · subst hmodule
    rw [if_pos rfl, if_pos rfl, Std.HashMap.getD_eq_getD_getElem?, lookup]
    cases t.modules[module]? <;> simp [SourceFile.declaration?]
  · rw [if_neg hmodule, if_neg hmodule]

/-- A file adds its own module. -/
lemma mem_modules_addFile (t : NameTable) (module other : String) (f : SourceFile) :
    other ∈ (t.addFile module f).modules ↔ module = other ∨ other ∈ t.modules := by
  simp [addFile]

/-! ## All files -/

section Files

variable {root : Path} {rootModule : String} {files : List SourceFile}

/-- The takeovers of a name follow the declaration found so far through all files of its module. -/
lemma collisionsOf_foldlM (htidy : ∀ f ∈ files, f.Tidy) {t t' : NameTable}
    (h : files.foldlM (step root rootModule) t = .ok t') (module name : String) :
    t'.collisionsOf module name
      = t.collisionsOf module name ++
        takeovers module name
          ((t.lookup module name).toList ++ declarationsOf root rootModule files module name) := by
  induction files generalizing t with
  | nil =>
      rw [List.foldlM_nil] at h
      rw [Except.ok.inj h]
      cases t'.lookup module name <;> simp [declarationsOf]
  | cons f files ih =>
      rw [List.foldlM_cons] at h
      obtain ⟨t₁, ht₁, hrest⟩ := bind_eq_ok_iff.1 h
      obtain ⟨m, hm, rfl⟩ := map_eq_ok_iff.1 ht₁
      have hf := htidy f List.mem_cons_self
      rw [ih (fun g hg => htidy g (List.mem_cons_of_mem f hg)) hrest,
        collisionsOf_addFile t m module name hf, lookup_addFile t m module name hf,
        declarationsOf_cons hm, List.append_assoc]
      congr 1
      by_cases hmodule : m = module
      · cases hd : f.declaration? name with
        | none => cases t.lookup module name <;> simp [hmodule]
        | some d =>
            simp only [hmodule, if_true, Option.some_or, Option.toList_some, List.cons_append,
              List.nil_append]
            exact (takeovers_append_cons _ d _).symm
      · simp [hmodule]

/-- The modules of a table are those of its files. -/
lemma mem_modules_foldlM {t t' : NameTable} (h : files.foldlM (step root rootModule) t = .ok t')
    (module : String) :
    module ∈ t'.modules ↔
      module ∈ t.modules ∨ ∃ f ∈ files, Module.ofFile root rootModule f.path = .ok module := by
  induction files generalizing t with
  | nil =>
      rw [List.foldlM_nil] at h
      simp [Except.ok.inj h]
  | cons f files ih =>
      rw [List.foldlM_cons] at h
      obtain ⟨t₁, ht₁, hrest⟩ := bind_eq_ok_iff.1 h
      obtain ⟨m, hm, rfl⟩ := map_eq_ok_iff.1 ht₁
      rw [ih hrest, mem_modules_addFile]
      simp only [List.exists_mem_cons_iff, hm, Except.ok.injEq]
      exact or_assoc.trans or_left_comm

/-- The collisions of a name are its takeovers, in the order of the files. -/
lemma collisionsOf_ofFiles (htidy : ∀ f ∈ files, f.Tidy) {t : NameTable}
    (h : ofFiles root rootModule files = .ok t) (module name : String) :
    t.collisionsOf module name
      = takeovers module name (declarationsOf root rootModule files module name) := by
  rw [ofFiles_eq_foldlM] at h
  rw [collisionsOf_foldlM htidy h]
  simp [collisionsOf, lookup]

/-- A collision is reported exactly if it is a takeover. -/
lemma mem_collisions_iff (htidy : ∀ f ∈ files, f.Tidy) {t : NameTable}
    (h : ofFiles root rootModule files = .ok t) {c : Collision} :
    c ∈ t.collisions ↔
      c ∈ takeovers c.module c.name (declarationsOf root rootModule files c.module c.name) := by
  rw [← collisionsOf_ofFiles htidy h, collisionsOf, List.mem_filter, Array.mem_toList_iff]
  simp

/-- Nothing is recorded exactly if there is nothing to record for any name. -/
lemma collisions_eq_empty_iff (htidy : ∀ f ∈ files, f.Tidy) {t : NameTable}
    (h : ofFiles root rootModule files = .ok t) :
    t.collisions = #[] ↔ ∀ module name,
      takeovers module name (declarationsOf root rootModule files module name) = [] := by
  constructor
  · intro hnone module name
    rw [← collisionsOf_ofFiles htidy h, collisionsOf, hnone]
    rfl
  · intro hnone
    rw [← Array.toList_eq_nil_iff, List.eq_nil_iff_forall_not_mem]
    intro c hc
    have hmem : c ∈ t.collisionsOf c.module c.name := List.mem_filter.2 ⟨hc, by simp⟩
    rw [collisionsOf_ofFiles htidy h, hnone] at hmem
    cases hmem

lemma mem_moduleNames_ofFiles {t : NameTable} (h : ofFiles root rootModule files = .ok t)
    (module : String) :
    module ∈ t.moduleNames ↔
      ∃ f ∈ files, Module.ofFile root rootModule f.path = .ok module := by
  rw [ofFiles_eq_foldlM] at h
  rw [moduleNames, Sorted.mem_sort, Std.HashMap.mem_keys, mem_modules_foldlM h]
  simp

lemma nodup_moduleNames (t : NameTable) : t.moduleNames.Nodup :=
  (List.mergeSort_perm _ _).nodup_iff.2 Std.HashMap.nodup_keys

/-- If no two files have the same path, no two of their declarations are the same. -/
lemma declarationsOf_distinct (htidy : ∀ f ∈ files, f.Tidy)
    (hpaths : files.Pairwise fun f g => ¬ f.path.same g.path) (module name : String) :
    (declarationsOf root rootModule files module name).Pairwise fun a b => ¬ a.same b := by
  rw [declarationsOf, List.pairwise_filterMap]
  refine (hpaths.filter _).imp_of_mem fun {f g} hf hg hfg a ha b hb hab => hfg ?_
  have hfile : ∀ {f}, f ∈ files.filter (Module.holds root rootModule module) →
      ∀ {d}, f.declaration? name = some d → d.file = f.path := by
    intro f hf d hd
    exact (htidy f (List.mem_filter.1 hf).1).file_eq d (List.mem_of_find?_eq_some hd)
  have hkey := Declaration.same_iff.1 hab
  rw [Path.same, ← hfile hf ha, ← hfile hg hb, beq_iff_eq]
  exact congrArg Declaration.Key.file hkey

/-- **No declaration is lost without a record.**  There is a table exactly if all files lie below
the root.  A name finds its last declaration among the files of the module, the modules are those of
the files, and the collisions of a name are the takeovers among its declarations.  So every
declaration of a file is found or was replaced, and `k` declarations of a name in files with
different paths make `k - 1` collisions, each of which replaces what the one before has kept. -/
theorem collisions_ofFiles (root : Path) (rootModule : String) {files : List SourceFile}
    (htidy : ∀ f ∈ files, f.Tidy) :
    ((∃ e, ofFiles root rootModule files = .error e) ↔
      ∃ f ∈ files, ¬ root.components <+: f.path.components) ∧
    ∀ t, ofFiles root rootModule files = .ok t →
      (∀ module name, t.lookup module name
        = (declarationsOf root rootModule files module name).getLast?) ∧
      t.moduleNames.Nodup ∧
      (∀ module, module ∈ t.moduleNames ↔
        ∃ f ∈ files, Module.ofFile root rootModule f.path = .ok module) ∧
      (∀ module name, t.collisionsOf module name
        = takeovers module name (declarationsOf root rootModule files module name)) ∧
      (∀ f ∈ files, ∀ d ∈ f.declarations, ∃ module,
        Module.ofFile root rootModule f.path = .ok module ∧
          ((∃ e, t.lookup module d.name = some e ∧ e.same d) ∨
            ∃ c ∈ t.collisionsOf module d.name, c.replaced.same d)) ∧
      ((files.Pairwise fun f g => ¬ f.path.same g.path) → ∀ module name,
        (t.collisionsOf module name).length
          = (declarationsOf root rootModule files module name).length - 1 ∧
        (t.collisionsOf module name).IsChain fun c c' => c.kept = c'.replaced) := by
  refine ⟨?_, fun t h => ⟨lookup_ofFiles htidy h, nodup_moduleNames t, mem_moduleNames_ofFiles h,
    collisionsOf_ofFiles htidy h, fun f hf d hd => ?_, fun hpaths module name => ?_⟩⟩
  · rw [exists_error_iff]
    constructor
    · intro hnone
      by_contra hall
      push Not at hall
      exact hnone (exists_ofFiles rootModule hall)
    · rintro ⟨f, hf, houtside⟩ ⟨t, ht⟩
      exact houtside (below_of_ofFiles ht f hf)
  · obtain ⟨module, hmodule⟩ := Module.exists_ofFile_iff.2 (below_of_ofFiles h f hf)
    have hmem : d ∈ declarationsOf root rootModule files module d.name :=
      (mem_declarationsOf_iff htidy).2 ⟨f, hf, hmodule, hd, rfl⟩
    refine ⟨module, hmodule, ?_⟩
    rw [lookup_ofFiles htidy h, collisionsOf_ofFiles htidy h]
    exact found_or_replaced hmem
  · have hdistinct : (declarationsOf root rootModule files module name).Pairwise _ :=
      declarationsOf_distinct htidy hpaths module name
    rw [collisionsOf_ofFiles htidy h]
    refine ⟨?_, isChain_takeovers hdistinct⟩
    rw [← List.length_map Collision.kept, (takeovers_of_distinct hdistinct).2, List.length_tail]

end Files

namespace Sample

/-- A file that declares `f` and nothing else. -/
def declaring (path : String) : SourceFile where
  path := ⟨path⟩
  declarations := [{ file := ⟨path⟩, name := "f" }]

end Sample

/-- Three files of one module declare `f`: the last one is found, and the other two were
replaced. -/
theorem collisions_ofFiles_sample :
    ∃ t, ofFiles ⟨"/p"⟩ "m" (["/p/a.go", "/p/b.go", "/p/c.go"].map Sample.declaring) = .ok t ∧
      t.lookup "m" "f" = some { file := ⟨"/p/c.go"⟩, name := "f" } ∧
      t.collisionsOf "m" "f" =
        [⟨"m", "f", { file := ⟨"/p/b.go"⟩, name := "f" }, { file := ⟨"/p/a.go"⟩, name := "f" }⟩,
         ⟨"m", "f", { file := ⟨"/p/c.go"⟩, name := "f" }, { file := ⟨"/p/b.go"⟩, name := "f" }⟩] ∧
      (t.collisionsOf "m" "f").IsChain fun c c' => c.kept = c'.replaced := by
  have htidy : ∀ f ∈ ["/p/a.go", "/p/b.go", "/p/c.go"].map Sample.declaring, f.Tidy := by
    intro f hf
    obtain ⟨path, -, rfl⟩ := List.mem_map.1 hf
    exact ⟨List.pairwise_singleton _ _, by simp [Sample.declaring], List.Pairwise.nil⟩
  obtain ⟨hfails, htable⟩ := collisions_ofFiles ⟨"/p"⟩ "m" htidy
  have hbelow : ¬ ∃ f ∈ ["/p/a.go", "/p/b.go", "/p/c.go"].map Sample.declaring,
      ¬ Path.components ⟨"/p"⟩ <+: f.path.components := by decide
  obtain ⟨t, ht⟩ := not_not.1 (mt exists_error_iff.2 (mt hfails.1 hbelow))
  obtain ⟨hlookup, -, -, hcollisions, -, hdistinct⟩ := htable t ht
  refine ⟨t, ht, ?_, ?_, (hdistinct (by decide) "m" "f").2⟩
  · rw [hlookup]
    decide
  · rw [hcollisions]
    decide

end NameTable

end GoReach
