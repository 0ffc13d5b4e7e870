import Mathlib.Data.List.Flatten
import GoReach.Proofs.Attribution

/-!
# Names where they are declared

The name of a declaration is a node like any other name, so it is looked up when references are
resolved.  It mostly finds the declaration itself, and that is no reference.  But a file can lose a
name to another file of its module that comes later; then the name finds the declaration of the
other file, and the declaration that lost it refers to the one that won, though nothing in its body
does.

`referencesAt_defining` says what the defining name of a declaration at the top level refers to.
Hence leaving out defining names makes no difference exactly if the file has lost none of them
(`skipping_defining_names`).  `lost_name_refers_to_winner` is a file that has lost one.
-/

namespace GoReach

open GoReach.Syntax (Node)

/-! ## Defining names -/

namespace Go

open SourceFile (introducing specs topLevel)

/-- The nodes from which the names of a declaration are read, but for those of methods, which are
put together from two. -/
def definingNames (d : Node) : List Node :=
  match d.kind with
  | "function_declaration" => (d.childInField? "name").toList
  | "type_spec" => (d.childInField? "name").toList
  | "type_alias" => (d.childInField? "name").toList
  | "var_spec" => (d.childrenInField "name").filter Node.isNamed
  | "const_spec" => (d.childrenInField "name").filter Node.isNamed
  | _ => []

/-- Whether a node, with its ancestors before it, is a defining name of its outermost declaration,
which stands at the top level of the tree. -/
def isDefining (t : Node) (v : List Node × Node) : Bool :=
  match v.1.getLast?, outermost? v.1 with
  | some parent, some d =>
    parent.info.id == d.info.id && ((topLevel t).any fun e => e.info.id == d.info.id) &&
      (definingNames d).any fun n => n.info.id == v.2.info.id
  | _, _ => false

/-- The names of declarations at the top level are names of their own. -/
def PlainNames (t : Node) : Prop :=
  ∀ d ∈ topLevel t, ∀ n ∈ definingNames d, n.kind = "identifier" ∨ n.kind = "type_identifier"

instance (t : Node) : Decidable (PlainNames t) :=
  inferInstanceAs (Decidable (∀ d ∈ topLevel t, ∀ n ∈ definingNames d,
    n.kind = "identifier" ∨ n.kind = "type_identifier"))

lemma mem_children_of_mem_definingNames {d n : Node} (h : n ∈ definingNames d) :
    n ∈ d.children := by
  have hfirst : n ∈ (d.childInField? "name").toList → n ∈ d.children := by
    intro h
    exact List.mem_of_find?_eq_some (Option.mem_toList.1 h)
  have hnamed : n ∈ (d.childrenInField "name").filter Node.isNamed → n ∈ d.children := by
    intro h
    exact (List.mem_filter.1 (List.mem_filter.1 h).1).1
  rw [definingNames] at h
  split at h
  · exact hfirst h
  · exact hfirst h
  · exact hfirst h
  · exact hnamed h
  · exact hnamed h
  · cases h

/-- A declaration introduces its defining names, unless they are not to be used. -/
lemma mem_usableNames_of_defining {d n : Node} (h : n ∈ definingNames d)
    (hused : n.text ≠ discard) : n.text ∈ Scope.usableNames d := by
  rw [definingNames] at h
  have hfirst : n ∈ (d.childInField? "name").toList → fieldText? d "name" = some n.text := by
    intro h
    rw [fieldText?, Option.mem_toList.1 h]
    rfl
  rw [Scope.usableNames, declaredNames]
  split at h
  next hkind => simp [hkind, hfirst h, hused]
  next hkind => simp [hkind, hfirst h, hused]
  next hkind => simp [hkind, hfirst h, hused]
  next hkind =>
    simp only [hkind, declaredNames.valueNames]
    exact List.mem_filter.2 ⟨List.mem_map_of_mem h, by simpa using hused⟩
  next hkind =>
    simp only [hkind, declaredNames.valueNames]
    exact List.mem_filter.2 ⟨List.mem_map_of_mem h, by simpa using hused⟩
  next => cases h

/-- A defining name is a name on its own. -/
lemma shape?_of_defining {d n : Node} (h : n ∈ definingNames d)
    (hkind : n.kind = "identifier" ∨ n.kind = "type_identifier") :
    shape? n (some d) = some (.name n.text) := by
  have hparent : d.kind ≠ "qualified_type" := by
    intro heq
    simp [definingNames, heq] at h
  rcases hkind with hkind | hkind <;> simp [shape?, shape?.plain, hkind, hparent]

/-- The node is visited with no declaration around it. -/
def Exposed (t n : Node) : Prop :=
  ∃ above, (above, n) ∈ t.visits [] ∧ ∀ a ∈ above, isDeclaration a = false

lemma Exposed.child {t n c : Node} (h : Exposed t n) (hn : isDeclaration n = false)
    (hc : c ∈ n.children) : Exposed t c := by
  obtain ⟨above, hvisit, habove⟩ := h
  refine ⟨above ++ [n], Node.mem_visits_of_child hvisit hc, ?_⟩
  simpa [or_imp, forall_and, hn] using habove

lemma Exposed.specs {t c d : Node} {kind : String} (h : Exposed t c) (hc : isDeclaration c = false)
    (hd : d ∈ specs c kind) : d.kind = kind ∧ Exposed t d := by
  obtain ⟨l, hl, hd⟩ := List.mem_flatMap.1 hd
  have hlchild : l ∈ c.children := (List.mem_filter.1 hl).1
  split at hd
  next hkind =>
    rw [List.mem_singleton.1 hd]
    exact ⟨beq_iff_eq.1 hkind, h.child hc hlchild⟩
  next =>
    split at hd
    next hlist =>
      obtain ⟨hd, hkind⟩ := List.mem_filter.1 hd
      have hldecl : isDeclaration l = false := by
        have hkinds : ∀ k ∈ declarationKinds, "_list".toList.isSuffixOf k.toList = false := by
          decide
        rw [isDeclaration, List.contains_eq_mem, decide_eq_false_iff_not]
        intro hmem
        rw [hkinds _ hmem] at hlist
        cases hlist
      exact ⟨beq_iff_eq.1 hkind, (h.child hc hlchild).child hldecl (List.mem_filter.1 hd).1⟩
    next => cases hd

/-- No declaration stands around one at the top level. -/
lemma exposed_of_mem_topLevel {t d : Node} (ht : t.kind = "source_file") (hd : d ∈ topLevel t) :
    isDeclaration d = true ∧ Exposed t d := by
  obtain ⟨c, hc, hd⟩ := List.mem_flatMap.1 hd
  have hroot : Exposed t t := ⟨[], by simp [Node.visits_eq_cons], by simp⟩
  have hchild : Exposed t c :=
    hroot.child (by simp [isDeclaration, declarationKinds, ht]) (List.mem_filter.1 hc).1
  have hspec : ∀ kind ∈ declarationKinds, isDeclaration c = false → d ∈ specs c kind →
      isDeclaration d = true ∧ Exposed t d := by
    intro kind hkind hcdecl hd
    obtain ⟨hdkind, hexposed⟩ := hchild.specs hcdecl hd
    exact ⟨by simpa [isDeclaration, hdkind] using hkind, hexposed⟩
  rw [introducing] at hd
  split at hd
  next hkind =>
    rw [List.mem_singleton.1 hd]
    exact ⟨by simp [isDeclaration, declarationKinds, hkind], hchild⟩
  next hkind =>
    rw [List.mem_singleton.1 hd]
    exact ⟨by simp [isDeclaration, declarationKinds, hkind], hchild⟩
  next hkind =>
    have hcdecl : isDeclaration c = false := by simp [isDeclaration, declarationKinds, hkind]
    rcases List.mem_append.1 hd with hd | hd
    · exact hspec "type_spec" (by decide) hcdecl hd
    · exact hspec "type_alias" (by decide) hcdecl hd
  next hkind =>
    exact hspec "var_spec" (by decide) (by simp [isDeclaration, declarationKinds, hkind]) hd
  next hkind =>
    exact hspec "const_spec" (by decide) (by simp [isDeclaration, declarationKinds, hkind]) hd
  next => cases hd

/-- The visit of a defining name. -/
structure Defines (t : Node) (v : List Node × Node) (d : Node) : Prop where
  parent : v.1.getLast? = some d
  outermost : outermost? v.1 = some d
  top : d ∈ topLevel t
  name : v.2 ∈ definingNames d

lemma isDefining_iff {t : Node} (hids : t.DistinctIds) {v : List Node × Node}
    (hv : v ∈ t.visits []) : isDefining t v = true ↔ ∃ d, Defines t v d := by
  have hnode : v.2 ∈ t.nodes := List.mem_map_of_mem hv
  rw [isDefining]
  constructor
  · intro h
    split at h
    next parent d hparent houter =>
      have hp : parent ∈ t.nodes :=
        Node.mem_nodes_of_mem_ancestors hv (List.mem_of_getLast? hparent)
      have hd : d ∈ t.nodes := Node.mem_nodes_of_mem_ancestors hv (List.mem_of_find?_eq_some houter)
      simp only [Bool.and_eq_true, beq_iff_eq, List.any_eq_true] at h
      obtain ⟨⟨hpd, e, he, hed⟩, n, hn, hnv⟩ := h
      have hpd : parent = d := hids.eq_of_id_eq hp hd hpd
      have hed : e = d := hids.eq_of_id_eq (SourceFile.mem_nodes_of_mem_topLevel he) hd hed
      have hnv : n = v.2 := hids.eq_of_id_eq
        (Node.mem_nodes_of_mem_children hd (mem_children_of_mem_definingNames hn)) hnode hnv
      exact ⟨d, hpd ▸ hparent, houter, hed ▸ he, hnv ▸ hn⟩
    next => cases h
  · rintro ⟨d, hparent, houter, htop, hname⟩
    simp only [hparent, houter, beq_self_eq_true, Bool.true_and, Bool.and_eq_true, List.any_eq_true,
      beq_iff_eq]
    exact ⟨⟨d, htop, rfl⟩, v.2, hname, rfl⟩

/-- Every defining name at the top level is visited as such. -/
lemma exists_visit_defines {t d n : Node} (ht : t.kind = "source_file") (hd : d ∈ topLevel t)
    (hn : n ∈ definingNames d) : ∃ v ∈ t.visits [], v.2 = n ∧ Defines t v d := by
  obtain ⟨hdecl, above, hvisit, habove⟩ := exposed_of_mem_topLevel ht hd
  refine ⟨(above ++ [d], n), Node.mem_visits_of_child hvisit (mem_children_of_mem_definingNames hn),
    rfl, ?_, ?_, hd, hn⟩
  · simp
  · rw [outermost?, List.find?_append, List.find?_eq_none.2 (by simpa using habove)]
    simp [hdecl]

end Go

namespace Scope

open GoReach.Go (SourceFile Placed PlainNames Defines definingNames isDefining)
open GoReach.Go.SourceFile (topLevel)

/-! ## Leaving out nodes -/

/-- The references of a file, without looking at the nodes that are to be skipped. -/
def resolveBut (s : Scope) (skip : List Node × Node → Bool) (f : SourceFile) :
    Except Error (List Reference) := do
  let module ← Module.ofFile s.root s.rootModule f.path
  let visit (p : Progress) (ancestors : List Node) (n : Node) :=
    if skip (ancestors, n) then .ok p else s.visit module f p ancestors n
  let p ← (f.tree.walk visit {}).mapError (Error.extraction f.path)
  return p.references.reverse

lemma foldlM_unless {α σ ε : Type} (step : σ → α → Except ε σ) (skip : α → Bool) (as : List α)
    (s : σ) : as.foldlM (fun s a => if skip a then .ok s else step s a) s
      = (as.filter fun a => !skip a).foldlM step s := by
  induction as generalizing s with
  | nil => rfl
  | cons a as ih =>
      rw [List.foldlM_cons]
      cases hskip : skip a with
      | true =>
          rw [List.filter_cons_of_neg (by simp [hskip]), if_pos rfl, ← ih]
          rfl
      | false =>
          rw [List.filter_cons_of_pos (by simp [hskip]), List.foldlM_cons]
          exact congrArg _ (funext fun s => ih s)

/-- Elements can be left out of a list of lists exactly if nothing comes from them. -/
lemma flatMap_filter_eq_iff {α β : Type} {g : α → List β} {keep : α → Bool} {as : List α} :
    (as.filter keep).flatMap g = as.flatMap g ↔ ∀ a ∈ as, keep a = false → g a = [] := by
  induction as with
  | nil => simp
  | cons a as ih =>
      cases hkeep : keep a with
      | true =>
          rw [List.filter_cons_of_pos hkeep, List.flatMap_cons, List.flatMap_cons,
            List.append_cancel_left_eq, ih]
          simp [hkeep]
      | false =>
          rw [List.filter_cons_of_neg (by simp [hkeep]), List.flatMap_cons, List.forall_mem_cons,
            ← ih]
          constructor
          · intro h
            have hsub : ((as.filter keep).flatMap g).Sublist (as.flatMap g) :=
              List.filter_sublist.flatMap g
            have hlength := hsub.length_le
            rw [h, List.length_append] at hlength
            have hnil : g a = [] := List.length_eq_zero_iff.1 (by omega)
            rw [hnil, List.nil_append] at h
            exact ⟨fun _ => hnil, h⟩
          · rintro ⟨ha, h⟩
            rw [ha hkeep, List.nil_append, h]

variable {s : Scope} {module : String} {f : SourceFile}

/-- What is left are the references of the nodes that are not skipped. -/
lemma resolveBut_eq (skip : List Node × Node → Bool) (hf : f.Parsed) (hplaced : Placed f.tree)
    (hmodule : Module.ofFile s.root s.rootModule f.path = .ok module) :
    s.resolveBut skip f = .ok (((f.tree.visits []).filter fun v => !skip v).flatMap
      (referencesAt (s.target? module f) f)) := by
  have hvisits : ∀ v ∈ (f.tree.visits []).filter fun v => !skip v, v ∈ f.tree.visits [] :=
    fun v hv => (List.mem_filter.1 hv).1
  have hvisit : ∀ v ∈ (f.tree.visits []).filter fun v => !skip v,
      ∀ p, ∃ p', s.visit module f p v.1 v.2 = .ok p' :=
    fun v hv => exists_visit hf hplaced.methodsAtTop (hvisits v hv)
  obtain ⟨p, hp⟩ := foldlM_succeeds hvisit {}
  have hrefs := references_foldlM hf.distinctIds hvisits Progress.sound_empty hp
  have hwalk := Node.walk_eq_foldlM
    (fun p ancestors n => if skip (ancestors, n) then .ok p else s.visit module f p ancestors n)
    f.tree {}
  rw [foldlM_unless (fun p v => s.visit module f p v.1 v.2) skip, hp] at hwalk
  rw [resolveBut, hmodule]
  refine bind_eq_ok_iff.2 ⟨module, rfl, bind_eq_ok_iff.2 ⟨p, mapError_eq_ok_iff.2 hwalk, ?_⟩⟩
  rw [hrefs, List.append_nil, List.reverse_reverse]
  rfl

/-- Nothing is skipped when a file is resolved. -/
lemma resolve_eq (hf : f.Parsed) (hplaced : Placed f.tree)
    (hmodule : Module.ofFile s.root s.rootModule f.path = .ok module) :
    s.resolve f = .ok ((f.tree.visits []).flatMap (referencesAt (s.target? module f) f)) := by
  obtain ⟨refs, hrefs⟩ := exists_resolve hf hplaced.methodsAtTop hmodule
  rw [hrefs, eq_flatMap_of_resolve hf.distinctIds hmodule hrefs]

/-! ## What a defining name refers to -/

/-- The file declares the name, but the name finds the declaration of another file. -/
def LosesName (s : Scope) (module : String) (f : SourceFile) (name : String) : Prop :=
  ∃ own winner, f.declaration? name = some own ∧ s.table.lookup module name = some winner ∧
    ¬ winner.same own

section Visit

variable {v : List Node × Node} {d : Node} (hv : Defines f.tree v d)

include hv

lemma sourcesAt_of_defines :
    sourcesAt f v.1 = (usableNames d).filterMap f.declaration? := by
  have houter := hv.outermost
  rw [Go.outermost?] at houter
  rw [sourcesAt, houter]

/-- A name that can be used is one of those to which its node belongs. -/
lemma own_mem_sourcesAt (hused : v.2.text ≠ Go.discard) {own : Declaration}
    (hown : f.declaration? v.2.text = some own) : own ∈ sourcesAt f v.1 := by
  rw [sourcesAt_of_defines hv]
  exact List.mem_filterMap.2 ⟨_, Go.mem_usableNames_of_defining hv.name hused, hown⟩

lemma referencesAt_of_defines (hplain : PlainNames f.tree) :
    referencesAt (s.target? module f) f v =
      match s.table.lookup module v.2.text with
      | none => []
      | some winner =>
        if (sourcesAt f v.1).any winner.same then []
        else (sourcesAt f v.1).map fun source => ⟨source, winner⟩ := by
  have hshape := Go.shape?_of_defining hv.name (hplain d hv.top v.2 hv.name)
  cases hlookup : s.table.lookup module v.2.text with
  | none => simp only [referencesAt, hv.parent, hshape, Option.bind_some, target?, hlookup]
  | some winner => simp only [referencesAt, hv.parent, hshape, Option.bind_some, target?, hlookup]

end Visit

section Files

variable {root : Path} {rootModule : String} {files : List SourceFile} {table : NameTable}
  (hparsed : ∀ g ∈ files, g.Parsed) (htable : NameTable.ofFiles root rootModule files = .ok table)

include hparsed htable

/-- Nothing is found by the name of what is not to be used. -/
lemma lookup_discard : table.lookup module Go.discard = none := by
  have htidy : ∀ g ∈ files, g.Tidy := fun g hg => (hparsed g hg).tidy
  cases hlookup : table.lookup module Go.discard with
  | none => rfl
  | some winner =>
      rw [NameTable.lookup_ofFiles htidy htable] at hlookup
      obtain ⟨g, hg, -, hwinner, hname⟩ :=
        (NameTable.mem_declarationsOf_iff htidy).1 (List.mem_of_getLast? hlookup)
      obtain ⟨n, -, ⟨_, -, -, hused⟩, -⟩ := (hparsed g hg).collects.exists_node winner hwinner
      exact absurd hname hused

variable (hf : f ∈ files) (hplain : PlainNames f.tree) {v : List Node × Node} {d : Node}
  (hv : Defines f.tree v d)

include hf hplain hv

/-- A name that the file has lost refers to the winner, from all that share the declaration. -/
lemma referencesAt_of_loses {own winner : Declaration}
    (hown : f.declaration? v.2.text = some own)
    (hwinner : table.lookup module v.2.text = some winner) (hlost : ¬ winner.same own) :
    own ∈ sourcesAt f v.1 ∧
      referencesAt (target? ⟨root, rootModule, table⟩ module f) f v
        = (sourcesAt f v.1).map fun source => ⟨source, winner⟩ := by
  have htidy : ∀ g ∈ files, g.Tidy := fun g hg => (hparsed g hg).tidy
  have hused : v.2.text ≠ Go.discard := by
    intro heq
    rw [heq, lookup_discard hparsed htable] at hwinner
    cases hwinner
  refine ⟨own_mem_sourcesAt hv hused hown, ?_⟩
  have hother : ¬ (sourcesAt f v.1).any winner.same = true := by
    rw [List.any_eq_true]
    rintro ⟨source, hsource, hsame⟩
    rw [sourcesAt_of_defines hv] at hsource
    obtain ⟨name, -, hname⟩ := List.mem_filterMap.1 hsource
    -- a source that is the winner would have its name, and be the file's own declaration
    have hsourceName := ((htidy f hf).declaration?_eq_some_iff.1 hname).2
    have hwinnerName := (NameTable.ofFile_of_lookup htidy htable hwinner).2
    have hkeyName : winner.name = source.name :=
      congrArg Declaration.Key.name (Declaration.same_iff.1 hsame)
    rw [← hsourceName, ← hkeyName, hwinnerName, hown] at hname
    exact hlost (Option.some.inj hname ▸ hsame)
  rw [referencesAt_of_defines hv hplain, hwinner]
  exact if_neg hother

/-- A name that the file has not lost finds the declaration itself, which is no reference. -/
lemma referencesAt_of_keeps (hkeeps : ¬ LosesName ⟨root, rootModule, table⟩ module f v.2.text) :
    referencesAt (target? ⟨root, rootModule, table⟩ module f) f v = [] := by
  rw [referencesAt_of_defines hv hplain]
  cases hwinner : table.lookup module v.2.text with
  | none => rfl
  | some winner =>
      have hused : v.2.text ≠ Go.discard := by
        intro heq
        rw [heq, lookup_discard hparsed htable] at hwinner
        cases hwinner
      have hdeclared : (f.declaration? v.2.text).isSome = true :=
        (isSome_declaration?_iff (hparsed f hf)).2
          ⟨d, hv.top, Go.mem_usableNames_of_defining hv.name hused⟩
      obtain ⟨own, hown⟩ := Option.isSome_iff_exists.1 hdeclared
      have hsame : winner.same own = true := by
        by_contra hlost
        exact hkeeps ⟨own, winner, hown, hwinner, hlost⟩
      exact if_pos (List.any_eq_true.2 ⟨own, own_mem_sourcesAt hv hused hown, hsame⟩)

/-- What a defining name refers to. -/
lemma referencesAt_defining :
    referencesAt (target? ⟨root, rootModule, table⟩ module f) f v = [] ↔
      ¬ LosesName ⟨root, rootModule, table⟩ module f v.2.text := by
  constructor
  · rintro hnil ⟨own, winner, hown, hwinner, hlost⟩
    obtain ⟨hmem, hrefs⟩ :=
      referencesAt_of_loses hparsed htable hf hplain hv hown hwinner hlost
    rw [hnil, eq_comm, List.map_eq_nil_iff] at hrefs
    rw [hrefs] at hmem
    cases hmem
  · exact referencesAt_of_keeps hparsed htable hf hplain hv

end Files

/-- **Leaving out the names where they are declared.**  In a file whose declarations stand where the
grammar has them, that changes the references exactly if the file has lost one of these names to
another file.  A name that is lost gives a reference to the winner from everything that its
declaration introduces; a name that is not lost gives none. -/
theorem skipping_defining_names {root : Path} (rootModule : String) {files : List SourceFile}
    (hparsed : ∀ g ∈ files, g.Parsed)
    (hbelow : ∀ g ∈ files, root.components <+: g.path.components) (hf : f ∈ files)
    (hplaced : Placed f.tree) (hplain : PlainNames f.tree) :
    ∃ table module refs kept,
      NameTable.ofFiles root rootModule files = .ok table ∧
      Module.ofFile root rootModule f.path = .ok module ∧
      resolve ⟨root, rootModule, table⟩ f = .ok refs ∧
      resolveBut ⟨root, rootModule, table⟩ (isDefining f.tree) f = .ok kept ∧
      kept.Sublist refs ∧
      (kept = refs ↔ ∀ d ∈ topLevel f.tree, ∀ n ∈ definingNames d,
        ¬ LosesName ⟨root, rootModule, table⟩ module f n.text) ∧
      ∀ v ∈ f.tree.visits [], isDefining f.tree v = true →
        (¬ LosesName ⟨root, rootModule, table⟩ module f v.2.text →
          referencesAt (target? ⟨root, rootModule, table⟩ module f) f v = []) ∧
        ∀ own winner, f.declaration? v.2.text = some own →
          table.lookup module v.2.text = some winner → ¬ winner.same own →
          own ∈ sourcesAt f v.1 ∧
          referencesAt (target? ⟨root, rootModule, table⟩ module f) f v
            = (sourcesAt f v.1).map fun source => ⟨source, winner⟩ := by
  have hfparsed : f.Parsed := hparsed f hf
  have hsource : f.tree.kind = "source_file" :=
    (hplaced.root ([], f.tree) (by simp [Node.visits_eq_cons])).2 rfl
  obtain ⟨table, htable⟩ := NameTable.exists_ofFiles rootModule hbelow
  obtain ⟨module, hmodule⟩ := Module.exists_ofFile_iff.2 (hbelow f hf)
  refine ⟨table, module, _, _, htable, hmodule, resolve_eq hfparsed hplaced hmodule,
    resolveBut_eq (isDefining f.tree) hfparsed hplaced hmodule, ?_, ?_, ?_⟩
  · exact List.filter_sublist.flatMap _
  · rw [flatMap_filter_eq_iff]
    constructor
    · intro h d hd n hn
      obtain ⟨v, hv, rfl, hdefines⟩ := Go.exists_visit_defines hsource hd hn
      have hskip := (Go.isDefining_iff hfparsed.distinctIds hv).2 ⟨d, hdefines⟩
      exact (referencesAt_defining hparsed htable hf hplain hdefines).1 (h v hv (by simp [hskip]))
    · intro h v hv hskip
      obtain ⟨d, hdefines⟩ :=
        (Go.isDefining_iff hfparsed.distinctIds hv).1 (by simpa using hskip)
      exact (referencesAt_defining hparsed htable hf hplain hdefines).2
        (h d hdefines.top v.2 hdefines.name)
  · intro v hv hskip
    obtain ⟨d, hdefines⟩ := (Go.isDefining_iff hfparsed.distinctIds hv).1 hskip
    exact ⟨referencesAt_of_keeps hparsed htable hf hplain hdefines, fun own winner =>
      referencesAt_of_loses hparsed htable hf hplain hdefines⟩

namespace Sample

/-- Declares the function `f` and the variables `x` and `y`, and uses nothing. -/
def losing : SourceFile where
  path := ⟨"/p/a.go"⟩
  declarations :=
    [{ file := ⟨"/p/a.go"⟩, name := "f", span := some ⟨1, 1, 1, 1⟩ },
     { file := ⟨"/p/a.go"⟩, name := "x", kind := .value, span := some ⟨1, 1, 1, 1⟩ },
     { file := ⟨"/p/a.go"⟩, name := "y", kind := .value, span := some ⟨1, 1, 1, 1⟩ }]
  tree := Node.numberFrom 0 <| .node { kind := "source_file" }
    [function "f" [],
     .node { kind := "var_declaration" }
      [.node { kind := "var_spec" }
        [leaf "identifier" "name" "x",
         .node { kind := ",", named := false, field := some "name" } [],
         leaf "identifier" "name" "y", leaf "type_identifier" "type" "int"]]]

/-- Declares functions `f` and `y` in the same module. -/
def winning : SourceFile where
  path := ⟨"/p/b.go"⟩
  declarations := ["f", "y"].map fun name =>
    { file := ⟨"/p/b.go"⟩, name, span := some ⟨1, 1, 1, 1⟩ }
  tree := Node.numberFrom 0 <| .node { kind := "source_file" } [function "f" [], function "y" []]

lemma parsed_rivals : ∀ f ∈ [losing, winning], f.Parsed := by
  simp only [List.forall_mem_cons]
  exact ⟨⟨rfl, Node.distinctIds_numberFrom 0 _⟩, ⟨rfl, Node.distinctIds_numberFrom 0 _⟩, by simp⟩

lemma below_rivals : ∀ f ∈ [losing, winning], root.components <+: f.path.components := by decide

lemma placed_rivals : ∀ f ∈ [losing, winning], Placed f.tree := by decide

lemma plainNames_rivals : ∀ f ∈ [losing, winning], PlainNames f.tree := by decide

end Sample

/-- In the sample, skipping makes a difference exactly if a name is lost. -/
theorem skipping_defining_names_sample :
    ∃ table refs kept,
      NameTable.ofFiles Sample.root "m" [Sample.losing, Sample.winning] = .ok table ∧
      resolve ⟨Sample.root, "m", table⟩ Sample.losing = .ok refs ∧
      resolveBut ⟨Sample.root, "m", table⟩ (isDefining Sample.losing.tree) Sample.losing
        = .ok kept ∧
      (kept = refs ↔ ∀ d ∈ topLevel Sample.losing.tree, ∀ n ∈ definingNames d,
        ¬ LosesName ⟨Sample.root, "m", table⟩ "m" Sample.losing n.text) := by
  obtain ⟨table, module, refs, kept, htable, hmodule, hrefs, hkept, -, hsame, -⟩ :=
    skipping_defining_names "m" Sample.parsed_rivals Sample.below_rivals List.mem_cons_self
      (Sample.placed_rivals _ List.mem_cons_self) (Sample.plainNames_rivals _ List.mem_cons_self)
  obtain rfl : "m" = module := Except.ok.inj hmodule
  exact ⟨table, refs, kept, htable, hrefs, hkept, hsame⟩

/-- The file uses nothing, but its declarations refer to those that have taken their names. -/
theorem lost_name_refers_to_winner :
    ∃ table, NameTable.ofFiles Sample.root "m" [Sample.losing, Sample.winning] = .ok table ∧
      resolveBut ⟨Sample.root, "m", table⟩ (isDefining Sample.losing.tree) Sample.losing = .ok [] ∧
      ∃ refs, resolve ⟨Sample.root, "m", table⟩ Sample.losing = .ok refs ∧
        refs.map (fun r => (r.source.qualifiedName, r.target.qualifiedName))
          = [("/p/a.go::f", "/p/b.go::f"), ("/p/a.go::x", "/p/b.go::y"),
              ("/p/a.go::y", "/p/b.go::y")] := by
  have hmodule : Module.ofFile Sample.root "m" Sample.losing.path = .ok "m" := rfl
  have hparsed : Sample.losing.Parsed := Sample.parsed_rivals _ List.mem_cons_self
  have hplaced : Placed Sample.losing.tree := Sample.placed_rivals _ List.mem_cons_self
  obtain ⟨table, htable⟩ := NameTable.exists_ofFiles "m" Sample.below_rivals
  have htarget : target? ⟨Sample.root, "m", table⟩ "m" Sample.losing = _ :=
    target?_eq_targetIn (fun g hg => (Sample.parsed_rivals g hg).tidy) List.mem_cons_self htable
  have hall := resolve_eq (s := ⟨Sample.root, "m", table⟩) hparsed hplaced hmodule
  have hkept := resolveBut_eq (s := ⟨Sample.root, "m", table⟩) (isDefining Sample.losing.tree)
    hparsed hplaced hmodule
  refine ⟨table, htable, ?_, _, hall, ?_⟩
  · rw [hkept, htarget, Except.ok.injEq]
    decide
  · rw [htarget]
    decide

end Scope

end GoReach
