import GoReach.Proofs.Collisions
import GoReach.Proofs.Comparison

/-!
# The order of files

Files can be read in any order, as long as they have different paths and no names collide.

**Lookups.**  Without collisions a name has at most one declaration in a module
(`length_declarationsOf_le_one`), and a list of at most one element has no other order.  So a table
of the files in another order finds the same declarations, and records no collision either
(`exists_ofFiles_perm`).

**Analyses.**  With the same lookups every file refers to the same declarations, so the two analyses
are within each other.  If every declaration has a name, a node is known by its path and its name
(`eq_of_key`), and the two analyses hold literally the same declarations.

With a collision the order does matter: the later file wins.
-/

namespace GoReach

open GoReach.Go (SourceFile)
open GoReach.Go.SourceFile (MethodsAtTop)

/-! ## Tables -/

namespace NameTable

variable {root : Path} {rootModule : String} {files files' : List SourceFile} {t : NameTable}

lemma declarationsOf_perm (hperm : files'.Perm files) (module name : String) :
    (declarationsOf root rootModule files' module name).Perm
      (declarationsOf root rootModule files module name) :=
  (hperm.filter _).filterMap _

/-- If nothing collides, a module has at most one declaration of a name. -/
lemma length_declarationsOf_le_one (htidy : ∀ f ∈ files, f.Tidy)
    (hpaths : files.Pairwise fun f g => ¬ f.path.same g.path)
    (h : ofFiles root rootModule files = .ok t) (hnone : t.collisions = #[])
    (module name : String) : (declarationsOf root rootModule files module name).length ≤ 1 := by
  have hdistinct : (declarationsOf root rootModule files module name).Pairwise _ :=
    declarationsOf_distinct htidy hpaths module name
  have htail : (declarationsOf root rootModule files module name).tail = [] := by
    rw [← (takeovers_of_distinct hdistinct).2, ← collisionsOf_ofFiles htidy h, collisionsOf, hnone]
    rfl
  have hlength := congrArg List.length htail
  rw [List.length_tail, List.length_nil] at hlength
  omega

/-- There is only one way to arrange a single element. -/
lemma eq_of_perm_of_length_le_one {α : Type} {as bs : List α} (h : as.Perm bs)
    (hlength : bs.length ≤ 1) : as = bs := by
  match bs, hlength with
  | [], _ => exact h.eq_nil
  | [_], _ => exact h.eq_singleton

/-- Without collisions, the same files in another order have a table with the same lookups, and
still nothing collides. -/
lemma exists_ofFiles_perm (htidy : ∀ f ∈ files, f.Tidy)
    (hpaths : files.Pairwise fun f g => ¬ f.path.same g.path)
    (h : ofFiles root rootModule files = .ok t) (hnone : t.collisions = #[])
    (hperm : files'.Perm files) :
    ∃ t', ofFiles root rootModule files' = .ok t' ∧ t'.collisions = #[] ∧
      ∀ module name, t'.lookup module name = t.lookup module name := by
  have htidy' : ∀ f ∈ files', f.Tidy := fun f hf => htidy f (hperm.mem_iff.1 hf)
  have hbelow := below_of_ofFiles h
  obtain ⟨t', ht'⟩ := exists_ofFiles rootModule fun f hf => hbelow f (hperm.mem_iff.1 hf)
  have hsame : ∀ module name, declarationsOf root rootModule files' module name
      = declarationsOf root rootModule files module name := fun module name =>
    eq_of_perm_of_length_le_one (declarationsOf_perm hperm module name)
      (length_declarationsOf_le_one htidy hpaths h hnone module name)
  refine ⟨t', ht', ?_, fun module name => ?_⟩
  · refine (collisions_eq_empty_iff htidy' ht').2 fun module name => ?_
    rw [hsame]
    exact takeovers_of_length_le_one
      (length_declarationsOf_le_one htidy hpaths h hnone module name)
  · rw [lookup_ofFiles htidy' ht', lookup_ofFiles htidy h, hsame]

end NameTable

/-! ## Analyses -/

namespace Analysis

/-- Two analyses with the same nodes, edges, entrypoints and unreachable declarations. -/
structure Agrees (a b : Analysis) : Prop where
  containsNode_eq : ∀ d, a.graph.containsNode d = b.graph.containsNode d
  containsEdge_eq : ∀ x y, a.graph.containsEdge x y = b.graph.containsEdge x y
  exists_entrypoint_iff : ∀ d, (∃ e ∈ a.entrypoints, e.same d) ↔ ∃ e ∈ b.entrypoints, e.same d
  exists_unreachable_iff : ∀ d, (∃ e ∈ a.unreachable, e.same d) ↔ ∃ e ∈ b.unreachable, e.same d

section

variable {a b : Analysis} {files files' : List SourceFile} {references references' : List Reference}

variable (ha : a.Assembled files references) (hb : b.Assembled files' references')
  (hfiles : ∀ f, f ∈ files ↔ f ∈ files') (hresolve : ∀ f, a.scope.resolve f = b.scope.resolve f)

include hfiles in
lemma extracted_congr {d : Declaration} : Extracted files d ↔ Extracted files' d := by
  simp only [Extracted, hfiles]

include hresolve in
lemma resolves_congr {f : SourceFile} {r : Reference} : a.Resolves f r ↔ b.Resolves f r := by
  simp only [Resolves, hresolve]

include hfiles hresolve

lemma activeRoot_congr {d : Declaration} : a.ActiveRoot files d ↔ b.ActiveRoot files' d := by
  simp only [ActiveRoot, hfiles, resolves_congr hresolve]

lemma known_congr {d : Declaration} : a.Known files d ↔ b.Known files' d :=
  or_congr (extracted_congr hfiles) (activeRoot_congr hfiles hresolve)

include ha hb

/-- The analysis of files is within that of the same files in any order, if they refer to the same
declarations. -/
lemma within_of_mem_iff : a.Within b :=
  within_of_resolves ha hb (fun f => (hfiles f).1) fun _ _ _ => (resolves_congr hresolve).1

lemma agrees_of_mem_iff : a.Agrees b := by
  have hab : a.Within b := within_of_mem_iff ha hb hfiles hresolve
  have hba : b.Within a :=
    within_of_mem_iff hb ha (fun f => (hfiles f).symm) fun f => (hresolve f).symm
  refine ⟨fun d => ?_, fun x y => ?_, fun d => ?_, fun d => ?_⟩
  · exact Bool.eq_iff_iff.2 ⟨hab.containsNode d, hba.containsNode d⟩
  · exact Bool.eq_iff_iff.2 ⟨hab.containsEdge x y, hba.containsEdge x y⟩
  · constructor
    · rintro ⟨e, he, hsame⟩
      obtain ⟨e', he', hee⟩ := hab.exists_entrypoint e he
      exact ⟨e', he', Declaration.same_trans hee hsame⟩
    · rintro ⟨e, he, hsame⟩
      obtain ⟨e', he', hee⟩ := hba.exists_entrypoint e he
      exact ⟨e', he', Declaration.same_trans hee hsame⟩
  · simp only [Declaration.same_iff]
    constructor
    · rintro ⟨e, he, hkey⟩
      obtain ⟨e', he', hee⟩ := hab.exists_unreachable hba ha hb he
      exact ⟨e', he', hee.trans hkey⟩
    · rintro ⟨e, he, hkey⟩
      obtain ⟨e', he', hee⟩ := hba.exists_unreachable hab hb ha he
      exact ⟨e', he', hee.trans hkey⟩

/-- If every declaration has a name, what is in one analysis is literally in the other. -/
lemma subset_of_mem_iff (hpaths : files.Pairwise fun f g => ¬ f.path.same g.path)
    (hnames : ∀ f ∈ files, ∀ d ∈ f.declarations, d.name ≠ "") :
    a.graph.nodes.toList ⊆ b.graph.nodes.toList ∧ a.graph.edgeList ⊆ b.graph.edgeList ∧
      a.entrypoints ⊆ b.entrypoints ∧ a.unreachable ⊆ b.unreachable := by
  have hab : a.Within b := within_of_mem_iff ha hb hfiles hresolve
  have hba : b.Within a :=
    within_of_mem_iff hb ha (fun f => (hfiles f).symm) fun f => (hresolve f).symm
  have hnames' : ∀ f ∈ files', ∀ d ∈ f.declarations, d.name ≠ "" :=
    fun f hf => hnames f ((hfiles f).2 hf)
  have hequal : ∀ {d e : Declaration}, a.Known files d → b.Known files' e → e.key = d.key → e = d :=
    fun hd he hkey =>
      eq_of_key ha.parsed hpaths hnames ((known_congr hfiles hresolve).2 he) hd hkey
  have hnode : ∀ {d e : Declaration}, d ∈ a.graph.nodes.toList → e ∈ b.graph.nodes.toList →
      e.key = d.key → e = d :=
    fun hd he => hequal (ha.mem_nodes hd) (hb.mem_nodes he)
  refine ⟨fun d hd => ?_, fun e he => ?_, fun d hd => ?_, fun d hd => ?_⟩
  · obtain ⟨n, hn, hkey⟩ := hb.consistent.containsNode_iff.1
      (hab.containsNode d (ha.consistent.containsNode_iff.2 ⟨d, hd, rfl⟩))
    exact hnode hd hn hkey ▸ hn
  · obtain ⟨hx, hy⟩ := ReferenceGraph.mem_nodes_of_mem_edgeList he
    obtain ⟨e', he', hkeyx, hkeyy⟩ := hb.consistent.containsEdge_iff.1
      (hab.containsEdge e.1 e.2 (ha.consistent.containsEdge_iff.2 ⟨e, he, rfl, rfl⟩))
    obtain ⟨hx', hy'⟩ := ReferenceGraph.mem_nodes_of_mem_edgeList he'
    exact Prod.ext (hnode hx hx' hkeyx) (hnode hy hy' hkeyy) ▸ he'
  · have known_of_entrypoint : ∀ {a : Analysis} {files : List SourceFile} {e : Declaration},
        ExtractedEntrypoint files e ∨ a.ActiveRoot files e → a.Known files e :=
      Or.imp_left fun ⟨f, hf, he, _⟩ => ⟨f, hf, he⟩
    obtain ⟨e, he, hsame⟩ := hab.exists_entrypoint d hd
    exact hequal (known_of_entrypoint (ha.mem_entrypoints hnames hd))
      (known_of_entrypoint (hb.mem_entrypoints hnames' he)) (Declaration.same_iff.1 hsame) ▸ he
  · obtain ⟨e, he, hkey⟩ := hab.exists_unreachable hba ha hb hd
    exact hnode ((ha.mem_unreachable_iff d).1 hd).1 ((hb.mem_unreachable_iff e).1 he).1 hkey ▸ he

end

/-- **The order of files does not matter** as long as their paths differ and no names collide.  In
any other order they have a table that records no collision, finds the same declarations and
resolves the same references.  An analysis of the files agrees with one of the files in the other
order; if every declaration has a name, the two hold literally the same declarations.  There is an
analysis if methods are declared at the top level only. -/
theorem ofFiles_perm {root : Path} {rootModule : String} {files files' : List SourceFile}
    (hparsed : ∀ f ∈ files, f.Parsed)
    (hpaths : files.Pairwise fun f g => ¬ f.path.same g.path) {t : NameTable}
    (htable : NameTable.ofFiles root rootModule files = .ok t) (hnone : t.collisions = #[])
    (hperm : files'.Perm files) :
    (∃ t', NameTable.ofFiles root rootModule files' = .ok t' ∧ t'.collisions = #[] ∧
      (∀ module name, t'.lookup module name = t.lookup module name) ∧
      ∀ f, Scope.resolve ⟨root, rootModule, t'⟩ f = Scope.resolve ⟨root, rootModule, t⟩ f) ∧
    (∀ a, ofFiles root rootModule files = .ok a →
      ∃ b, ofFiles root rootModule files' = .ok b ∧ a.Agrees b ∧
        ((∀ f ∈ files, ∀ d ∈ f.declarations, d.name ≠ "") →
          (∀ d, d ∈ a.graph.nodes.toList ↔ d ∈ b.graph.nodes.toList) ∧
          (∀ e, e ∈ a.graph.edgeList ↔ e ∈ b.graph.edgeList) ∧
          a.entrypoints = b.entrypoints ∧ a.unreachable = b.unreachable)) ∧
    ((∀ f ∈ files, MethodsAtTop f.tree) → ∃ a, ofFiles root rootModule files = .ok a) := by
  obtain ⟨t', htable', hnone', hlookup⟩ := NameTable.exists_ofFiles_perm
    (fun f hf => (hparsed f hf).tidy) hpaths htable hnone hperm
  have hresolve : ∀ f, Scope.resolve ⟨root, rootModule, t'⟩ f
      = Scope.resolve ⟨root, rootModule, t⟩ f :=
    fun f => Scope.resolve_congr fun _ _ m _ name => hlookup m name
  refine ⟨⟨t', htable', hnone', hlookup, hresolve⟩, fun a hofFiles => ?_, fun hmethods =>
    exists_ofFiles rootModule hparsed (NameTable.below_of_ofFiles htable) hmethods⟩
  obtain ⟨b, hofFiles'⟩ := exists_ofFiles_of_resolve htable' fun f hf => by
    rw [hresolve]
    exact exists_resolve_of_ofFiles hofFiles htable f (hperm.mem_iff.1 hf)
  have hparsed' : ∀ f ∈ files', f.Parsed := fun f hf => hparsed f (hperm.mem_iff.1 hf)
  have hpaths' : files'.Pairwise fun f g => ¬ f.path.same g.path :=
    hperm.symm.pairwise hpaths fun {f g} hne hsame => hne (beq_iff_eq.2 (beq_iff_eq.1 hsame).symm)
  obtain ⟨references, ha⟩ := assembled_of_ofFiles hparsed hofFiles
  obtain ⟨references', hb⟩ := assembled_of_ofFiles hparsed' hofFiles'
  have hfiles : ∀ f, f ∈ files ↔ f ∈ files' := fun f => hperm.mem_iff.symm
  have hscopes : ∀ f, a.scope.resolve f = b.scope.resolve f := by
    intro f
    rw [scope_of_ofFiles hofFiles htable, scope_of_ofFiles hofFiles' htable', hresolve]
  refine ⟨b, hofFiles', agrees_of_mem_iff ha hb hfiles hscopes, fun hnames => ?_⟩
  obtain ⟨hnodes, hedges, hentry, hdead⟩ :=
    subset_of_mem_iff ha hb hfiles hscopes hpaths hnames
  obtain ⟨hnodes', hedges', hentry', hdead'⟩ :=
    subset_of_mem_iff hb ha (fun f => (hfiles f).symm) (fun f => (hscopes f).symm) hpaths'
      fun f hf => hnames f ((hfiles f).2 hf)
  refine ⟨fun d => ⟨@hnodes d, @hnodes' d⟩, fun e => ⟨@hedges e, @hedges' e⟩, ?_, ?_⟩
  · exact ha.records.strict.eq_of_mem_iff hb.records.strict fun e => ⟨@hentry e, @hentry' e⟩
  · rw [ha.unreachable_eq, hb.unreachable_eq] at hdead hdead' ⊢
    exact (ha.consistent.strict_unreachable _).eq_of_mem_iff (hb.consistent.strict_unreachable _)
      fun d => ⟨@hdead d, @hdead' d⟩

/-- The small project gives the same whichever of its two files comes first. -/
theorem ofFiles_perm_sample :
    ∃ a b, ofFiles Scope.Sample.root "m" [Scope.Sample.caller, Scope.Sample.callee] = .ok a ∧
      ofFiles Scope.Sample.root "m" [Scope.Sample.callee, Scope.Sample.caller] = .ok b ∧
      a.Agrees b ∧ a.entrypoints = b.entrypoints ∧ a.unreachable = b.unreachable := by
  obtain ⟨t, htable⟩ := NameTable.exists_ofFiles "m" Scope.Sample.below
  have hnone : t.collisions = #[] := by
    refine (NameTable.collisions_eq_empty_iff
      (fun f hf => (Scope.Sample.parsed f hf).tidy) htable).2 fun module name => ?_
    -- The two files belong to different modules, and each declares a name at most once.
    have hcaller : Module.ofFile Scope.Sample.root "m" Scope.Sample.caller.path = .ok "m" := rfl
    have hcallee : Module.ofFile Scope.Sample.root "m" Scope.Sample.callee.path = .ok "m/u" := rfl
    rw [NameTable.declarationsOf_cons hcaller, NameTable.declarationsOf_cons hcallee]
    refine NameTable.takeovers_of_length_le_one ?_
    by_cases hm : "m" = module
    · subst hm
      cases Scope.Sample.caller.declaration? name <;> simp [NameTable.declarationsOf]
    · by_cases hu : "m/u" = module
      · subst hu
        cases Scope.Sample.callee.declaration? name <;> simp [NameTable.declarationsOf]
      · simp [hm, hu, NameTable.declarationsOf]
  obtain ⟨-, hagrees, hexists⟩ := ofFiles_perm Scope.Sample.parsed (by decide) htable hnone
    (List.Perm.swap Scope.Sample.caller Scope.Sample.callee [])
  obtain ⟨a, ha⟩ := hexists Scope.Sample.methodsAtTop
  obtain ⟨b, hb, hab, hliteral⟩ := hagrees a ha
  obtain ⟨-, -, hentrypoints, hunreachable⟩ := hliteral (by decide)
  exact ⟨a, b, ha, hb, hab, hentrypoints, hunreachable⟩

end Analysis

end GoReach
