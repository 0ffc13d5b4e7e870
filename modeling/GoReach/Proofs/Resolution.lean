import GoReach.Proofs.NameTable
import GoReach.Resolution

/-!
# What the references of a file are

Resolving a file walks through its tree and keeps what it has found out about declarations.  Here
the references are said without the walk and without anything kept: they are those of one node after
another (`referencesAt`), each with the declarations to which the node belongs (`sourcesAt`) as
sources and with what its shape refers to among the listed files (`targetIn`) as target.

**One visit.**  What is kept for a number is what is found out about the node of that number
(`Progress.Sound`); as no two nodes share a number, it makes no difference whether it is looked up
or found out again.  `Progress.Sound.visit` says what one visit adds.

**All visits.**  `references_foldlM` is the run lemma: visits add the references of their nodes, in
order.  `resolve_ofFiles` puts it together with what names find in a table of files.
-/

namespace GoReach

namespace Scope

open GoReach.Go (SourceFile Shape)
open GoReach.Go.SourceFile (MethodsAtTop)
open GoReach.Syntax (Node)

/-! ## The declarations to which a node belongs -/

/-- The names that a declaration introduces, without those that are declared not to be used. -/
def usableNames (declaration : Node) : List String :=
  match Go.declaredNames declaration with
  | .ok (some (_, names)) => names.filter (· != Go.discard)
  | _ => []

/-- The declarations to which a node with the given ancestors belongs: the file root if none of
them is a declaration, and otherwise what the file declares by the names of the outermost one. -/
def sourcesAt (f : SourceFile) (ancestors : List Node) : List Declaration :=
  match ancestors.find? Go.isDeclaration with
  | none => [.fileRoot f.path]
  | some declaration => (usableNames declaration).filterMap f.declaration?

lemma originsOf_eq_map (f : SourceFile) (declaration : Node) :
    originsOf f declaration
      = (Go.declaredNames declaration).map fun _ =>
          (usableNames declaration).filterMap f.declaration? := by
  rw [originsOf, Go.enclosingOf, usableNames]
  cases Go.declaredNames declaration with
  | error fault => rfl
  | ok declared =>
      cases declared with
      | none => rfl
      | some kindAndNames =>
          simp only [Except.map]
          cases kindAndNames.2.filter (· != Go.discard) <;> rfl

lemma eq_of_originsOf {f : SourceFile} {declaration : Node} {found : List Declaration}
    (h : originsOf f declaration = .ok found) :
    found = (usableNames declaration).filterMap f.declaration? := by
  rw [originsOf_eq_map] at h
  obtain ⟨_, _, rfl⟩ := map_eq_ok_iff.1 h
  rfl

/-- A file's references come from its file root and from its own declarations. -/
lemma mem_sourcesAt {f : SourceFile} {ancestors : List Node} {d : Declaration}
    (h : d ∈ sourcesAt f ancestors) : d = .fileRoot f.path ∨ d ∈ f.declarations := by
  rw [sourcesAt] at h
  split at h
  · exact Or.inl (List.mem_singleton.1 h)
  · obtain ⟨name, -, hd⟩ := List.mem_filterMap.1 h
    exact Or.inr (List.mem_of_find?_eq_some hd)

namespace Progress

variable {f : SourceFile}

/-- What is kept is what would be found out again. -/
def Sound (f : SourceFile) (p : Progress) : Prop :=
  ∀ n ∈ f.tree.nodes, ∀ known, p.origins[n.info.id]? = some known → originsOf f n = .ok known

lemma sound_empty : Sound f {} := by
  intro n _ known h
  simp at h

/-- Keeping one more result is sound, since no other node has the number. -/
lemma Sound.insert {p : Progress} (hp : p.Sound f) (hids : f.tree.DistinctIds) {d : Node}
    (hd : d ∈ f.tree.nodes) {found : List Declaration} (hfound : originsOf f d = .ok found) :
    Sound f { p with origins := p.origins.insert d.info.id found } := by
  intro n hn known hknown
  rw [Std.HashMap.getElem?_insert] at hknown
  split at hknown
  next hid =>
    rw [← hids.eq_of_id_eq hd hn (beq_iff_eq.1 hid), ← Option.some.inj hknown]
    exact hfound
  next => exact hp n hn known hknown

/-- Looking up what a node belongs to, or finding it out, gives its sources. -/
lemma Sound.originsAt {p p' : Progress} (hp : p.Sound f) (hids : f.tree.DistinctIds)
    {ancestors : List Node} (hancestors : ∀ a ∈ ancestors, a ∈ f.tree.nodes)
    {sources : List Declaration} (h : p.originsAt f ancestors = .ok (sources, p')) :
    sources = sourcesAt f ancestors ∧ p'.references = p.references ∧ p'.Sound f := by
  rw [Progress.originsAt, Go.outermost?] at h
  rw [sourcesAt]
  cases houter : ancestors.find? Go.isDeclaration with
  | none =>
      rw [houter] at h
      obtain ⟨rfl, rfl⟩ := Prod.mk.inj (Except.ok.inj h)
      exact ⟨rfl, rfl, hp⟩
  | some d =>
      have hd : d ∈ f.tree.nodes := hancestors d (List.mem_of_find?_eq_some houter)
      simp only [houter] at h
      cases hknown : p.origins[d.info.id]? with
      | some known =>
          simp only [hknown] at h
          obtain ⟨rfl, rfl⟩ := Prod.mk.inj (Except.ok.inj h)
          exact ⟨eq_of_originsOf (hp d hd known hknown), rfl, hp⟩
      | none =>
          simp only [hknown] at h
          obtain ⟨found, hfound, heq⟩ := map_eq_ok_iff.1 h
          obtain ⟨rfl, rfl⟩ := Prod.mk.inj heq
          exact ⟨eq_of_originsOf hfound, rfl, hp.insert hids hd hfound⟩

/-- What a node belongs to is found if the names of the declarations around it can be made out. -/
lemma exists_originsAt (p : Progress) {ancestors : List Node}
    (h : ∀ a ∈ ancestors, ∃ names, Go.declaredNames a = .ok names) :
    ∃ r, p.originsAt f ancestors = .ok r := by
  rw [Progress.originsAt, Go.outermost?]
  cases houter : ancestors.find? Go.isDeclaration with
  | none => exact ⟨_, rfl⟩
  | some d =>
      obtain ⟨names, hnames⟩ := h d (List.mem_of_find?_eq_some houter)
      cases hknown : p.origins[d.info.id]? with
      | some known => exact ⟨(known, p), by simp only [hknown]⟩
      | none =>
          simp only [hknown, originsOf_eq_map, hnames]
          exact ⟨_, rfl⟩

end Progress

/-! ## One visit -/

/-- The references of a node, with its ancestors before it, if `target?` says what shapes refer to.
A reference to one of the declarations to which the node belongs is none. -/
def referencesAt (target? : Shape → Option Declaration) (f : SourceFile)
    (v : List Node × Node) : List Reference :=
  match (Go.shape? v.2 v.1.getLast?).bind target? with
  | none => []
  | some target =>
    if (sourcesAt f v.1).any target.same then []
    else (sourcesAt f v.1).map fun source => ⟨source, target⟩

lemma mem_referencesAt {target? : Shape → Option Declaration} {f : SourceFile}
    {v : List Node × Node} {r : Reference} (h : r ∈ referencesAt target? f v) :
    r.source ∈ sourcesAt f v.1 ∧ r.source.key ≠ r.target.key ∧
      ∃ shape, Go.shape? v.2 v.1.getLast? = some shape ∧ target? shape = some r.target := by
  rw [referencesAt] at h
  split at h
  next => cases h
  next target htarget =>
    split at h
    next => cases h
    next hnot =>
      obtain ⟨source, hsource, rfl⟩ := List.mem_map.1 h
      refine ⟨hsource, fun hkey => hnot ?_, Option.bind_eq_some_iff.1 htarget⟩
      exact List.any_eq_true.2 ⟨source, hsource, Declaration.same_iff.2 hkey.symm⟩

variable {s : Scope} {module : String} {f : SourceFile}

lemma references_add (p : Progress) (sources : List Declaration) (target : Declaration) :
    (p.add sources target).references
      = (if sources.any target.same then []
          else sources.map fun source => ⟨source, target⟩).reverse ++ p.references := by
  rw [Progress.add]
  split <;> rfl

lemma Progress.Sound.add {p : Progress} (hp : p.Sound f) (sources : List Declaration)
    (target : Declaration) : (p.add sources target).Sound f := by
  rw [Progress.add]
  split
  · exact hp
  · exact hp

/-- A visit adds the references of its node. -/
lemma Progress.Sound.visit {p p' : Progress} (hp : p.Sound f) (hids : f.tree.DistinctIds)
    {v : List Node × Node} (hv : v ∈ f.tree.visits [])
    (h : s.visit module f p v.1 v.2 = .ok p') :
    p'.references = (referencesAt (s.target? module f) f v).reverse ++ p.references ∧
      p'.Sound f := by
  rw [Scope.visit] at h
  rw [referencesAt]
  cases hshape : Go.shape? v.2 v.1.getLast? with
  | none =>
      rw [hshape] at h
      rw [← Except.ok.inj h]
      exact ⟨rfl, hp⟩
  | some shape =>
      simp only [hshape] at h
      obtain ⟨⟨sources, q⟩, hq, hp'⟩ := map_eq_ok_iff.1 h
      obtain ⟨rfl, hrefs, hsound⟩ :=
        hp.originsAt hids (fun a ha => Node.mem_nodes_of_mem_ancestors hv ha) hq
      rw [Option.bind_some]
      cases htarget : s.target? module f shape with
      | none =>
          simp only [htarget] at hp'
          rw [← hp']
          exact ⟨hrefs, hsound⟩
      | some target =>
          simp only [htarget] at hp'
          rw [← hp', references_add, hrefs]
          exact ⟨rfl, hsound.add _ target⟩

/-! ## All visits -/

/-- Visits add the references of their nodes, in order. -/
lemma references_foldlM (hids : f.tree.DistinctIds) {vs : List (List Node × Node)}
    (hvs : ∀ v ∈ vs, v ∈ f.tree.visits []) {p p' : Progress} (hp : p.Sound f)
    (h : vs.foldlM (fun p v => s.visit module f p v.1 v.2) p = .ok p') :
    p'.references
      = (vs.flatMap (referencesAt (s.target? module f) f)).reverse ++ p.references := by
  induction vs generalizing p with
  | nil =>
      rw [List.foldlM_nil] at h
      rw [← Except.ok.inj h]
      rfl
  | cons v vs ih =>
      rw [List.foldlM_cons] at h
      obtain ⟨q, hq, hrest⟩ := bind_eq_ok_iff.1 h
      obtain ⟨hrefs, hsound⟩ := hp.visit hids (hvs v List.mem_cons_self) hq
      rw [ih (fun w hw => hvs w (List.mem_cons_of_mem v hw)) hsound hrest, hrefs,
        List.flatMap_cons, List.reverse_append, List.append_assoc]

lemma resolve_eq_ok_iff {refs : List Reference} :
    s.resolve f = .ok refs ↔
      ∃ module, Module.ofFile s.root s.rootModule f.path = .ok module ∧
        ∃ p, (f.tree.visits []).foldlM (fun p v => s.visit module f p v.1 v.2) {} = .ok p ∧
          p.references.reverse = refs := by
  rw [resolve, bind_eq_ok_iff]
  refine exists_congr fun module => and_congr_right fun _ => ?_
  rw [bind_eq_ok_iff]
  refine exists_congr fun p => and_congr ?_ ⟨fun h => Except.ok.inj h, fun h => congrArg _ h⟩
  rw [mapError_eq_ok_iff, Node.walk_eq_foldlM]

/-- The references of a file are those of its nodes. -/
lemma eq_flatMap_of_resolve (hids : f.tree.DistinctIds)
    (hmodule : Module.ofFile s.root s.rootModule f.path = .ok module) {refs : List Reference}
    (h : s.resolve f = .ok refs) :
    refs = (f.tree.visits []).flatMap (referencesAt (s.target? module f) f) := by
  obtain ⟨m, hm, p, hp, rfl⟩ := resolve_eq_ok_iff.1 h
  obtain rfl : m = module := Except.ok.inj (hm.symm.trans hmodule)
  rw [references_foldlM hids (fun _ hv => hv) Progress.sound_empty hp, List.append_nil,
    List.reverse_reverse]

/-- No visit of a parsed file fails, if it declares its methods at the top level. -/
lemma exists_visit (hf : f.Parsed) (hmethods : MethodsAtTop f.tree) {v : List Node × Node}
    (hv : v ∈ f.tree.visits []) (p : Progress) : ∃ p', s.visit module f p v.1 v.2 = .ok p' := by
  rw [Scope.visit]
  cases Go.shape? v.2 v.1.getLast? with
  | none => exact ⟨p, rfl⟩
  | some shape =>
      obtain ⟨r, hr⟩ := p.exists_originsAt fun a ha =>
        hf.exists_declaredNames hmethods (Node.mem_nodes_of_mem_ancestors hv ha)
      exact ⟨_, map_eq_ok_iff.2 ⟨r, hr, rfl⟩⟩

/-- All references of a parsed file are found, if it declares its methods at the top level. -/
lemma exists_resolve (hf : f.Parsed) (hmethods : MethodsAtTop f.tree)
    (hmodule : Module.ofFile s.root s.rootModule f.path = .ok module) :
    ∃ refs, s.resolve f = .ok refs := by
  have hvisit : ∀ v ∈ f.tree.visits [], ∀ p, ∃ p', s.visit module f p v.1 v.2 = .ok p' :=
    fun v hv => exists_visit hf hmethods hv
  obtain ⟨p, hp⟩ := foldlM_succeeds hvisit {}
  exact ⟨_, resolve_eq_ok_iff.2 ⟨module, hmodule, p, hp, rfl⟩⟩

/-! ## What references refer to -/

/-- What a shape in a file of the given module refers to among listed files.  A name is the last
declaration of it in the file's own module.  A member is a declaration in the module that is
imported by the name before the dot, the one with the least path if there are several, unless the
file's own module declares that name. -/
def targetIn (root : Path) (rootModule : String) (files : List SourceFile) (module : String)
    (f : SourceFile) : Shape → Option Declaration
  | .name name => (NameTable.declarationsOf root rootModule files module name).getLast?
  | .member object name =>
    if NameTable.declarationsOf root rootModule files module object = [] then
      (((f.imports.filter fun i => i.name == object).map Import.path).min?).bind fun path =>
        (NameTable.declarationsOf root rootModule files path name).getLast?
    else none

section Files

variable {root : Path} {rootModule : String} {files : List SourceFile}

lemma mem_declarations_of_targetIn {shape : Shape} {d : Declaration}
    (h : targetIn root rootModule files module f shape = some d) :
    ∃ g ∈ files, d ∈ g.declarations := by
  cases shape with
  | name name => exact NameTable.mem_declarationsOf (List.mem_of_getLast? h)
  | member object name =>
      rw [targetIn] at h
      split at h
      · obtain ⟨path, -, hd⟩ := Option.bind_eq_some_iff.1 h
        exact NameTable.mem_declarationsOf (List.mem_of_getLast? hd)
      · cases h

/-- A table of files finds what is declared in the files. -/
lemma target?_eq_targetIn (htidy : ∀ g ∈ files, g.Tidy) (hf : f ∈ files) {table : NameTable}
    (htable : NameTable.ofFiles root rootModule files = .ok table) :
    target? ⟨root, rootModule, table⟩ module f = targetIn root rootModule files module f := by
  have hlookup := NameTable.lookup_ofFiles htidy htable
  funext shape
  cases shape with
  | name name => exact hlookup module name
  | member object name =>
      rw [target?, targetIn, ← (htidy f hf).import?_path_eq_min?, Option.bind_map]
      simp only [hlookup]
      by_cases hnil : NameTable.declarationsOf root rootModule files module object = []
      · rw [if_neg (by simp [hnil]), if_pos hnil]
        rfl
      · rw [if_pos (by simpa [List.getLast?_isSome] using hnil), if_neg hnil]

/-- The references of the nodes of a file, in the order of its text. -/
def referencesOf (root : Path) (rootModule : String) (files : List SourceFile) (module : String)
    (f : SourceFile) : List Reference :=
  (f.tree.visits []).flatMap (referencesAt (targetIn root rootModule files module f) f)

/-- A reference leads from the file to a declaration of some file, and not to its own source. -/
lemma mem_referencesOf (hf : f.Tidy) {r : Reference}
    (h : r ∈ referencesOf root rootModule files module f) :
    (r.source = .fileRoot f.path ∨ r.source ∈ f.declarations) ∧ r.source.file = f.path ∧
      (∃ g ∈ files, r.target ∈ g.declarations) ∧ r.source.key ≠ r.target.key := by
  obtain ⟨v, -, hr⟩ := List.mem_flatMap.1 h
  obtain ⟨hsource, hne, shape, -, hshape⟩ := mem_referencesAt hr
  have hcases := mem_sourcesAt hsource
  refine ⟨hcases, ?_, mem_declarations_of_targetIn hshape, hne⟩
  rcases hcases with heq | hmem
  · rw [heq]
    rfl
  · exact hf.file_eq _ hmem

/-- What resolving gives, if anything, are the references of the nodes. -/
lemma eq_referencesOf (hparsed : ∀ g ∈ files, g.Parsed) (hf : f ∈ files) {table : NameTable}
    (htable : NameTable.ofFiles root rootModule files = .ok table)
    (hmodule : Module.ofFile root rootModule f.path = .ok module) {refs : List Reference}
    (h : resolve ⟨root, rootModule, table⟩ f = .ok refs) :
    refs = referencesOf root rootModule files module f := by
  have htarget : target? ⟨root, rootModule, table⟩ module f = _ :=
    target?_eq_targetIn (fun g hg => (hparsed g hg).tidy) hf htable
  have hrefs := eq_flatMap_of_resolve (s := ⟨root, rootModule, table⟩)
    (hparsed f hf).distinctIds hmodule h
  rw [hrefs, htarget, referencesOf]

/-- What is resolved leads from the file to a declaration of a listed file. -/
lemma mem_of_resolve (hparsed : ∀ g ∈ files, g.Parsed) (hf : f ∈ files) {table : NameTable}
    (htable : NameTable.ofFiles root rootModule files = .ok table) {refs : List Reference}
    (h : resolve ⟨root, rootModule, table⟩ f = .ok refs) {r : Reference} (hr : r ∈ refs) :
    (r.source = .fileRoot f.path ∨ r.source ∈ f.declarations) ∧ r.source.file = f.path ∧
      (∃ g ∈ files, r.target ∈ g.declarations) ∧ r.source.key ≠ r.target.key := by
  obtain ⟨module, hmodule, -⟩ := resolve_eq_ok_iff.1 h
  rw [eq_referencesOf hparsed hf htable hmodule h] at hr
  exact mem_referencesOf (hparsed f hf).tidy hr

/-- **The references of a file among listed files.**  Files below the root have a table, and every
file belongs to a module.  Resolving a file gives the references of its nodes in the order of the
text, whatever was kept on the way; and it does give them, if methods are declared at the top level
only.  They lead from the file root or a declaration of the file to a declaration of a listed file,
which is not their source. -/
theorem resolve_ofFiles (rootModule : String) (hparsed : ∀ g ∈ files, g.Parsed)
    (hbelow : ∀ g ∈ files, root.components <+: g.path.components) (hf : f ∈ files) :
    ∃ table module,
      NameTable.ofFiles root rootModule files = .ok table ∧
      Module.ofFile root rootModule f.path = .ok module ∧
      (∀ refs, resolve ⟨root, rootModule, table⟩ f = .ok refs →
        refs = (f.tree.visits []).flatMap
          (referencesAt (targetIn root rootModule files module f) f)) ∧
      (MethodsAtTop f.tree →
        resolve ⟨root, rootModule, table⟩ f = .ok ((f.tree.visits []).flatMap
          (referencesAt (targetIn root rootModule files module f) f))) ∧
      ∀ refs, resolve ⟨root, rootModule, table⟩ f = .ok refs → ∀ r ∈ refs,
        (r.source = .fileRoot f.path ∨ r.source ∈ f.declarations) ∧ r.source.file = f.path ∧
        (∃ g ∈ files, r.target ∈ g.declarations) ∧ ¬ r.source.same r.target := by
  obtain ⟨table, htable⟩ := NameTable.exists_ofFiles rootModule hbelow
  obtain ⟨module, hmodule⟩ := Module.exists_ofFile_iff.2 (hbelow f hf)
  have hrefs : ∀ refs, resolve ⟨root, rootModule, table⟩ f = .ok refs →
      refs = referencesOf root rootModule files module f :=
    fun refs => eq_referencesOf hparsed hf htable hmodule
  refine ⟨table, module, htable, hmodule, hrefs, fun hmethods => ?_, fun refs h r hr => ?_⟩
  · obtain ⟨refs, h⟩ := exists_resolve (s := ⟨root, rootModule, table⟩) (hparsed f hf) hmethods
      hmodule
    rw [h, hrefs refs h, referencesOf]
  · rw [Declaration.same_iff]
    exact mem_of_resolve hparsed hf htable h hr

end Files

/-! ## A small project -/

namespace Sample

def root : Path := ⟨"/p"⟩

def leaf (kind field text : String) : Node := .node { kind, field := some field, text } []

/-- The declaration of a function without anything in it but the given nodes. -/
def function (name : String) (body : List Node) : Node :=
  .node { kind := "function_declaration" } (leaf "identifier" "name" name :: body)

/-- Imports `m/u`, declares `run`, which refers to `u.Go`, and `idle`, and calls `run` outside of
them. -/
def caller : SourceFile where
  path := ⟨"/p/a.go"⟩
  declarations := ["idle", "run"].map fun name =>
    { file := ⟨"/p/a.go"⟩, name, span := some ⟨1, 1, 1, 1⟩ }
  imports := [⟨"u", "m/u"⟩]
  tree := Node.numberFrom 0 <| .node { kind := "source_file" }
    [.node { kind := "import_declaration" }
      [.node { kind := "import_spec" } [leaf "interpreted_string_literal" "path" "\"m/u\""]],
     function "run"
      [.node { kind := "selector_expression" }
        [leaf "identifier" "operand" "u", leaf "field_identifier" "field" "Go"]],
     function "idle" [],
     .node { kind := "expression_statement" } [leaf "identifier" "call" "run"]]

/-- Declares `Go` in the module `m/u`. -/
def callee : SourceFile where
  path := ⟨"/p/u/b.go"⟩
  declarations := [{ file := ⟨"/p/u/b.go"⟩, name := "Go", span := some ⟨1, 1, 1, 1⟩ }]
  tree := Node.numberFrom 0 <| .node { kind := "source_file" } [function "Go" []]

lemma parsed : ∀ f ∈ [caller, callee], f.Parsed := by
  simp only [List.forall_mem_cons]
  exact ⟨⟨rfl, Node.distinctIds_numberFrom 0 _⟩, ⟨rfl, Node.distinctIds_numberFrom 0 _⟩,
    fun _ h => nomatch h⟩

lemma below : ∀ f ∈ [caller, callee], root.components <+: f.path.components := by decide

lemma methodsAtTop : ∀ f ∈ [caller, callee], MethodsAtTop f.tree := by
  have hkinds : ∀ f ∈ [caller, callee], ∀ n ∈ f.tree.nodes, n.kind ≠ "method_declaration" := by
    decide
  exact fun f hf n hn hkind => absurd hkind (hkinds f hf n hn)

end Sample

/-- The function refers to the imported one, and the code outside of it to the function. -/
theorem resolve_sample :
    ∃ table, NameTable.ofFiles Sample.root "m" [Sample.caller, Sample.callee] = .ok table ∧
      resolve ⟨Sample.root, "m", table⟩ Sample.caller = .ok
        [⟨{ file := ⟨"/p/a.go"⟩, name := "run", span := some ⟨1, 1, 1, 1⟩ },
          { file := ⟨"/p/u/b.go"⟩, name := "Go", span := some ⟨1, 1, 1, 1⟩ }⟩,
         ⟨.fileRoot ⟨"/p/a.go"⟩,
          { file := ⟨"/p/a.go"⟩, name := "run", span := some ⟨1, 1, 1, 1⟩ }⟩] := by
  obtain ⟨table, module, htable, hmodule, -, hrefs, -⟩ :=
    resolve_ofFiles "m" Sample.parsed Sample.below List.mem_cons_self
  obtain rfl : "m" = module := Except.ok.inj hmodule
  refine ⟨table, htable, ?_⟩
  rw [hrefs (Sample.methodsAtTop _ List.mem_cons_self), Except.ok.injEq]
  decide

end Scope

end GoReach
