import GoReach.Proofs.Analysis

/-!
# Two analyses side by side

Declarations of two analyses are compared by `Declaration.same`, since each graph keeps its nodes as
they came first.  An analysis is `Within` another one if its nodes, edges and entrypoints are there
as well.  Then whatever it reaches, the other one reaches (`Within.exists_reached`), and what is
live in it is live in the other one (`Within.live`); so two analyses that are within each other call
the same declarations unreachable (`Within.exists_unreachable`).  An analysis is within every one
that has its files and resolves its references (`within_of_resolves`).

Entrypoints are live (`Assembled.live_of_marked`), and so is what something live refers to
(`Assembled.live_of_resolves`).

What a file refers to depends on the lookups in its own module and in those that it imports
(`Scope.resolve_congr`), and on nothing else in the table.  Whether its references can be resolved
at all does not depend on the table (`Scope.exists_resolve_of_resolve`).
-/

namespace GoReach

open GoReach.Go (SourceFile Shape)
open GoReach.Syntax (Node)

/-! ## Paths in two graphs -/

namespace ReferenceGraph

variable {g g' : ReferenceGraph}

lemma Consistent.eq_of_key (h : Consistent g) {a b : Declaration} (ha : a ∈ g.nodes.toList)
    (hb : b ∈ g.nodes.toList) (hkey : a.key = b.key) : a = b :=
  List.inj_on_of_nodup_map h.nodup_keys ha hb hkey

/-- A path can be followed in every graph that has the edges of the first one. -/
lemma Consistent.reaches_mono (h : Consistent g) (h' : Consistent g')
    (hedges : ∀ x y, g.containsEdge x y → g'.containsEdge x y) {n n' d : Declaration}
    (hn' : n' ∈ g'.nodes.toList) (hkey : n'.key = n.key) (hreach : g.Reaches n d) :
    ∃ d' ∈ g'.nodes.toList, d'.key = d.key ∧ g'.Reaches n' d' := by
  induction hreach with
  | refl => exact ⟨n', hn', hkey, .refl⟩
  | @tail x y _ hxy ih =>
      obtain ⟨x', hx', hxkey, hreach'⟩ := ih
      have hedge : g.containsEdge x y = true := h.containsEdge_iff.2 ⟨(x, y), hxy, rfl, rfl⟩
      obtain ⟨⟨u, v⟩, he, hu, hv⟩ := h'.containsEdge_iff.1 (hedges x y hedge)
      obtain ⟨hunode, hvnode⟩ := mem_nodes_of_mem_edgeList he
      -- The edge of the other graph starts where its path has come to.
      have hux : u = x' := h'.eq_of_key hunode hx' (hu.trans hxkey.symm)
      subst hux
      exact ⟨v, hvnode, hv, hreach'.tail he⟩

end ReferenceGraph

/-! ## Resolving in two tables -/

namespace Scope

variable {root : Path} {rootModule : String} {t t' : NameTable} {f : SourceFile}

lemma target?_congr {module : String}
    (h : ∀ m, (m = module ∨ ∃ i ∈ f.imports, i.path = m) →
      ∀ name, t'.lookup m name = t.lookup m name) :
    target? ⟨root, rootModule, t'⟩ module f = target? ⟨root, rootModule, t⟩ module f := by
  have hown := h module (Or.inl rfl)
  funext shape
  cases shape with
  | name name => exact hown name
  | member object name =>
      simp only [target?, hown]
      split
      · rfl
      · cases himport : f.import? object with
        | none => rfl
        | some i => exact h i.path (Or.inr ⟨i, List.mem_of_find?_eq_some himport, rfl⟩) name

/-- Resolving a file looks up names in the file's own module and in those that it imports. -/
lemma resolve_congr
    (h : ∀ module, Module.ofFile root rootModule f.path = .ok module →
      ∀ m, (m = module ∨ ∃ i ∈ f.imports, i.path = m) →
        ∀ name, t'.lookup m name = t.lookup m name) :
    resolve ⟨root, rootModule, t'⟩ f = resolve ⟨root, rootModule, t⟩ f := by
  rw [resolve, resolve]
  cases hmodule : Module.ofFile root rootModule f.path with
  | error e => rfl
  | ok module =>
      have hvisit :
          visit ⟨root, rootModule, t'⟩ module f = visit ⟨root, rootModule, t⟩ module f := by
        funext p ancestors n
        rw [visit, visit, target?_congr (h module hmodule)]
      change (f.tree.walk (visit ⟨root, rootModule, t'⟩ module f) {} |>.mapError _) >>= _
        = (f.tree.walk (visit ⟨root, rootModule, t⟩ module f) {} |>.mapError _) >>= _
      rw [hvisit]

/-- The declarations to which a node belongs are found out without regard to the references so
far. -/
lemma Progress.originsAt_follows {p q p' : Progress} (hpq : p.origins = q.origins)
    {ancestors : List Node} {sources : List Declaration}
    (h : p.originsAt f ancestors = .ok (sources, p')) :
    ∃ q', q.originsAt f ancestors = .ok (sources, q') ∧ p'.origins = q'.origins := by
  rw [originsAt] at h ⊢
  cases houter : Go.outermost? ancestors with
  | none =>
      rw [houter] at h
      obtain ⟨rfl, rfl⟩ := Prod.mk.inj (Except.ok.inj h)
      exact ⟨q, rfl, hpq⟩
  | some d =>
      simp only [houter, ← hpq] at h ⊢
      cases hknown : p.origins[d.info.id]? with
      | some known =>
          simp only [hknown] at h ⊢
          obtain ⟨rfl, rfl⟩ := Prod.mk.inj (Except.ok.inj h)
          exact ⟨q, rfl, hpq⟩
      | none =>
          simp only [hknown] at h ⊢
          obtain ⟨found, hfound, heq⟩ := map_eq_ok_iff.1 h
          obtain ⟨rfl, rfl⟩ := Prod.mk.inj heq
          exact ⟨_, map_eq_ok_iff.2 ⟨found, hfound, rfl⟩, rfl⟩

lemma origins_add (p : Progress) (sources : List Declaration) (target : Declaration) :
    (p.add sources target).origins = p.origins := by
  rw [Progress.add]
  split <;> rfl

/-- A visit that succeeds in one project succeeds in every other. -/
lemma visit_follows {s s' : Scope} {module : String} {p q p' : Progress}
    (hpq : p.origins = q.origins) {v : List Node × Node}
    (h : s.visit module f p v.1 v.2 = .ok p') :
    ∃ q', s'.visit module f q v.1 v.2 = .ok q' ∧ p'.origins = q'.origins := by
  rw [visit] at h ⊢
  cases hshape : Go.shape? v.2 v.1.getLast? with
  | none =>
      rw [hshape] at h
      exact ⟨q, rfl, Except.ok.inj h ▸ hpq⟩
  | some shape =>
      simp only [hshape] at h
      obtain ⟨⟨sources, p₁⟩, hp₁, heq⟩ := map_eq_ok_iff.1 h
      obtain ⟨q₁, hq₁, hsame⟩ := Progress.originsAt_follows hpq hp₁
      refine ⟨_, map_eq_ok_iff.2 ⟨(sources, q₁), hq₁, rfl⟩, ?_⟩
      rw [← heq]
      cases s.target? module f shape <;> cases s'.target? module f shape <;>
        simp [origins_add, hsame]

/-- Whether a file can be resolved does not depend on the table. -/
lemma exists_resolve_of_resolve (t' : NameTable) {refs : List Reference}
    (h : resolve ⟨root, rootModule, t⟩ f = .ok refs) :
    ∃ refs', resolve ⟨root, rootModule, t'⟩ f = .ok refs' := by
  obtain ⟨module, hmodule, p, hp, -⟩ := resolve_eq_ok_iff.1 h
  have hfollows : ∀ (p q : Progress) (v : List Node × Node) (p' : Progress),
      p.origins = q.origins → visit ⟨root, rootModule, t⟩ module f p v.1 v.2 = .ok p' →
        ∃ q', visit ⟨root, rootModule, t'⟩ module f q v.1 v.2 = .ok q' ∧ p'.origins = q'.origins :=
    fun _ _ _ _ hpq hvisit => visit_follows hpq hvisit
  obtain ⟨q, hq, -⟩ := foldlM_follows hfollows rfl hp
  exact ⟨_, resolve_eq_ok_iff.2 ⟨module, hmodule, q, hq, rfl⟩⟩

/-- A node has the same references in two tables in which its shape refers to the same. -/
lemma referencesAt_congr {target? target?' : Shape → Option Declaration} {v : List Node × Node}
    {shape : Shape} (hshape : Go.shape? v.2 v.1.getLast? = some shape)
    (h : target? shape = target?' shape) :
    referencesAt target? f v = referencesAt target?' f v := by
  rw [referencesAt, referencesAt, hshape, Option.bind_some, Option.bind_some, h]

end Scope

/-! ## Which declaration is meant -/

namespace Analysis

/-- What a declaration is that the analysis of the files knows of. -/
def Known (a : Analysis) (files : List SourceFile) (d : Declaration) : Prop :=
  Extracted files d ∨ a.ActiveRoot files d

/-- Of files with different paths, a path belongs to one. -/
lemma eq_of_path_same {files : List SourceFile}
    (hpaths : files.Pairwise fun f g => ¬ f.path.same g.path) {f g : SourceFile} (hf : f ∈ files)
    (hg : g ∈ files) (hsame : f.path.components = g.path.components) : f = g := by
  have hnodup : (files.map fun f => f.path.components).Nodup :=
    List.pairwise_map.2 (hpaths.imp fun {f g} hne heq => hne (beq_iff_eq.2 heq))
  exact List.inj_on_of_nodup_map hnodup hf hg hsame

/-- Among files with different paths and named declarations, path and name say which declaration is
meant. -/
lemma eq_of_key {a : Analysis} {files : List SourceFile} (hparsed : ∀ f ∈ files, f.Parsed)
    (hpaths : files.Pairwise fun f g => ¬ f.path.same g.path)
    (hnames : ∀ f ∈ files, ∀ d ∈ f.declarations, d.name ≠ "") {d e : Declaration}
    (hd : a.Known files d) (he : a.Known files e) (hkey : d.key = e.key) : d = e := by
  have hfile : d.file.components = e.file.components := congrArg Declaration.Key.file hkey
  have hname : d.name = e.name := congrArg Declaration.Key.name hkey
  rcases hd with ⟨f, hf, hd⟩ | ⟨f, hf, rfl, -⟩
  · rcases he with ⟨g, hg, he⟩ | ⟨g, hg, rfl, -⟩
    · have hftidy := (hparsed f hf).tidy
      rw [hftidy.file_eq d hd, (hparsed g hg).tidy.file_eq e he] at hfile
      obtain rfl := eq_of_path_same hpaths hf hg hfile
      have hfound := hftidy.declaration?_eq_some_iff.2 ⟨hd, hname⟩
      rw [hftidy.declaration?_eq_some_iff.2 ⟨he, rfl⟩] at hfound
      exact (Option.some.inj hfound).symm
    · exact absurd hname (hnames f hf d hd)
  · rcases he with ⟨g, hg, he⟩ | ⟨g, hg, rfl, -⟩
    · exact absurd hname.symm (hnames g hg e he)
    · obtain rfl := eq_of_path_same hpaths hf hg hfile
      rfl

/-! ## Two analyses -/

/-- Some entrypoint leads to the declaration. -/
def Reached (a : Analysis) (d : Declaration) : Prop :=
  ∃ e ∈ a.entrypoints, ∃ n ∈ a.graph.nodes.toList, n.same e ∧ a.graph.Reaches n d

/-- The declaration is a node, and is not reported as unreachable. -/
def Live (a : Analysis) (d : Declaration) : Prop :=
  a.graph.containsNode d = true ∧ ∀ x ∈ a.unreachable, ¬ x.same d

/-- What is live is the same as a node to which some entrypoint leads. -/
lemma Assembled.live_iff {a : Analysis} {files : List SourceFile} {references : List Reference}
    (h : a.Assembled files references) {d : Declaration} :
    a.Live d ↔ ∃ n ∈ a.graph.nodes.toList, n.key = d.key ∧ a.Reached n := by
  rw [Live, h.consistent.containsNode_iff]
  constructor
  · rintro ⟨⟨n, hn, hkey⟩, hlive⟩
    refine ⟨n, hn, hkey, ?_⟩
    by_contra hunreached
    exact hlive n ((h.mem_unreachable_iff n).2 ⟨hn, hunreached⟩) (Declaration.same_iff.2 hkey)
  · rintro ⟨n, hn, hkey, hreached⟩
    refine ⟨⟨n, hn, hkey⟩, fun x hx hsame => ?_⟩
    obtain ⟨hxnode, hunreached⟩ := (h.mem_unreachable_iff x).1 hx
    obtain rfl := h.consistent.eq_of_key hxnode hn ((Declaration.same_iff.1 hsame).trans hkey.symm)
    exact hunreached hreached

section

variable {a : Analysis} {files : List SourceFile} {references : List Reference}
  (h : a.Assembled files references)

include h

/-- What refers to something is known. -/
lemma Assembled.known_source {f : SourceFile} (hf : f ∈ files) {r : Reference}
    (hr : a.Resolves f r) : a.Known files r.source := by
  obtain ⟨hroot | hdeclared, -, -⟩ := h.spec_of_resolves hf hr
  · exact Or.inr ⟨f, hf, hroot, r, hr, rfl⟩
  · exact Or.inl ⟨f, hf, hdeclared⟩

/-- What is known is a node. -/
lemma Assembled.containsNode_of_known {d : Declaration} (hd : a.Known files d) :
    a.graph.containsNode d = true :=
  (h.containsNode_iff d).2 ⟨d, hd, Declaration.same_iff.2 rfl⟩

lemma Assembled.live_of_same {d e : Declaration} (hsame : e.same d) (hd : a.Live d) : a.Live e := by
  obtain ⟨n, hn, hkey, hreached⟩ := h.live_iff.1 hd
  exact h.live_iff.2 ⟨n, hn, hkey.trans (Declaration.same_iff.1 hsame).symm, hreached⟩

/-- What was marked as an entrypoint is live. -/
lemma Assembled.live_of_marked {d : Declaration} (hd : d ∈ markedOf files references) :
    a.Live d := by
  have hknown : a.Known files d := by
    rcases mem_markedOf.1 hd with ⟨f, hf, hdeclared, -⟩ | ⟨r, hr, -, rfl⟩
    · exact Or.inl ⟨f, hf, hdeclared⟩
    · obtain ⟨f, hf, hr⟩ := (h.mem_iff r).1 hr
      exact h.known_source hf hr
  obtain ⟨n, hn, hkey⟩ := h.consistent.containsNode_iff.1 (h.containsNode_of_known hknown)
  obtain ⟨e, he, hekey⟩ := h.records.exists_entrypoint d hd
  exact h.live_iff.2
    ⟨n, hn, hkey, e, he, n, hn, Declaration.same_iff.2 (hkey.trans hekey.symm), .refl⟩

/-- What something live refers to is live. -/
lemma Assembled.live_of_resolves {f : SourceFile} (hf : f ∈ files) {r : Reference}
    (hr : a.Resolves f r) (hsource : a.Live r.source) : a.Live r.target := by
  obtain ⟨n, hn, hkey, e, he, start, hstart, hsame, hreach⟩ := h.live_iff.1 hsource
  have hedge : a.graph.containsEdge r.source r.target = true :=
    (h.containsEdge_iff _ _).2
      ⟨f, hf, r, hr, Declaration.same_iff.2 rfl, Declaration.same_iff.2 rfl⟩
  obtain ⟨⟨u, v⟩, huv, hu, hv⟩ := h.consistent.containsEdge_iff.1 hedge
  obtain ⟨hunode, hvnode⟩ := ReferenceGraph.mem_nodes_of_mem_edgeList huv
  obtain rfl : u = n := h.consistent.eq_of_key hunode hn (hu.trans hkey.symm)
  exact h.live_iff.2 ⟨v, hvnode, hv, e, he, start, hstart, hsame, hreach.tail huv⟩

/-- What is referred to outside of all declarations is live. -/
lemma Assembled.live_of_root {f : SourceFile} (hf : f ∈ files) {r : Reference}
    (hr : a.Resolves f r) (hroot : r.source.isFileRoot = true) : a.Live r.target := by
  have hmarked : r.source ∈ markedOf files references :=
    mem_markedOf.2 (Or.inr ⟨r, (h.mem_iff r).2 ⟨f, hf, hr⟩, hroot, rfl⟩)
  exact h.live_of_resolves hf hr (h.live_of_marked hmarked)

end

/-- The nodes, edges and entrypoints of an analysis are also those of another one. -/
structure Within (a b : Analysis) : Prop where
  containsNode : ∀ d, a.graph.containsNode d → b.graph.containsNode d
  containsEdge : ∀ x y, a.graph.containsEdge x y → b.graph.containsEdge x y
  exists_entrypoint : ∀ e ∈ a.entrypoints, ∃ e' ∈ b.entrypoints, e'.same e

namespace Within

variable {a b : Analysis} {files files' : List SourceFile} {references references' : List Reference}

/-- What an analysis reaches, a larger one reaches. -/
lemma exists_reached (h : a.Within b) (ha : a.graph.Consistent) (hb : b.graph.Consistent)
    {d : Declaration} (hd : a.Reached d) :
    ∃ d' ∈ b.graph.nodes.toList, d'.key = d.key ∧ b.Reached d' := by
  obtain ⟨e, he, n, hn, hne, hreach⟩ := hd
  obtain ⟨e', he', hee⟩ := h.exists_entrypoint e he
  have hnode : b.graph.containsNode n = true :=
    h.containsNode n (ha.containsNode_iff.2 ⟨n, hn, rfl⟩)
  obtain ⟨n', hn', hkey⟩ := hb.containsNode_iff.1 hnode
  obtain ⟨d', hd', hdkey, hreach'⟩ := ha.reaches_mono hb h.containsEdge hn' hkey hreach
  refine ⟨d', hd', hdkey, e', he', n', hn', ?_, hreach'⟩
  rw [Declaration.same_iff] at hne hee ⊢
  exact hkey.trans (hne.trans hee.symm)

/-- What is live in an analysis is live in a larger one. -/
lemma live (h : a.Within b) (ha : a.Assembled files references)
    (hb : b.Assembled files' references') {d : Declaration} (hd : a.Live d) : b.Live d := by
  obtain ⟨n, -, hkey, hreached⟩ := ha.live_iff.1 hd
  obtain ⟨n', hn', hkey', hreached'⟩ := h.exists_reached ha.consistent hb.consistent hreached
  exact hb.live_iff.2 ⟨n', hn', hkey'.trans hkey, hreached'⟩

/-- What an analysis calls unreachable, an analysis around it calls unreachable, as long as it has
nothing more. -/
lemma exists_unreachable (hab : a.Within b) (hba : b.Within a) (ha : a.Assembled files references)
    (hb : b.Assembled files' references') {d : Declaration} (hd : d ∈ a.unreachable) :
    ∃ e ∈ b.unreachable, e.key = d.key := by
  obtain ⟨hnode, hunreached⟩ := (ha.mem_unreachable_iff d).1 hd
  have hcontains : b.graph.containsNode d = true :=
    hab.containsNode d (ha.consistent.containsNode_iff.2 ⟨d, hnode, rfl⟩)
  obtain ⟨n, hn, hkey⟩ := hb.consistent.containsNode_iff.1 hcontains
  refine ⟨n, (hb.mem_unreachable_iff n).2 ⟨hn, fun hreached => hunreached ?_⟩, hkey⟩
  obtain ⟨d', hd', hdkey, hreached'⟩ := hba.exists_reached hb.consistent ha.consistent hreached
  rw [ha.consistent.eq_of_key hnode hd' (hkey.symm.trans hdkey.symm)]
  exact hreached'

end Within

section

variable {a b : Analysis} {files files' : List SourceFile} {references references' : List Reference}

/-- The analysis of files is within one of more files in which they still refer to the same. -/
lemma within_of_resolves (ha : a.Assembled files references) (hb : b.Assembled files' references')
    (hfiles : ∀ f ∈ files, f ∈ files')
    (hresolves : ∀ f ∈ files, ∀ r, a.Resolves f r → b.Resolves f r) : a.Within b where
  containsNode d hd := by
    obtain ⟨e, he, hsame⟩ := (ha.containsNode_iff d).1 hd
    refine (hb.containsNode_iff d).2 ⟨e, ?_, hsame⟩
    rcases he with ⟨f, hf, hdeclared⟩ | ⟨f, hf, hroot, r, hr, hsource⟩
    · exact Or.inl ⟨f, hfiles f hf, hdeclared⟩
    · exact Or.inr ⟨f, hfiles f hf, hroot, r, hresolves f hf r hr, hsource⟩
  containsEdge x y hxy := by
    obtain ⟨f, hf, r, hr, hsame⟩ := (ha.containsEdge_iff x y).1 hxy
    exact (hb.containsEdge_iff x y).2 ⟨f, hfiles f hf, r, hresolves f hf r hr, hsame⟩
  exists_entrypoint e he := by
    have hmarked : e ∈ markedOf files' references' := by
      refine mem_markedOf.2 ?_
      rcases mem_markedOf.1 (ha.records.mem_marked e he) with ⟨f, hf, hentry⟩ | ⟨r, hr, hroot, rfl⟩
      · exact Or.inl ⟨f, hfiles f hf, hentry⟩
      · obtain ⟨f, hf, hr⟩ := (ha.mem_iff r).1 hr
        exact Or.inr ⟨r, (hb.mem_iff r).2 ⟨f, hfiles f hf, hresolves f hf r hr⟩, hroot, rfl⟩
    obtain ⟨e', he', hkey⟩ := hb.records.exists_entrypoint e hmarked
    exact ⟨e', he', Declaration.same_iff.2 hkey⟩

end

end Analysis

end GoReach
