import GoReach.Proofs.Go.TopLevel

/-!
# Where declarations stand

In the tree of a Go file, functions and methods stand right below the root.  Types, variables and
constants are specified right below a declaration of their sort, and these declarations can stand
anywhere: at the top level, or in a statement.  `Placed` says so of a tree.

Statements can stand beside the declarations at the top level of a file.  So a node that introduces
names is either read at the top level, or it is in such a statement or another declaration
(`Placed.topLevel_or_deep`).
-/

namespace GoReach.Go

open GoReach.Syntax (Node)
open SourceFile (MethodsAtTop introducing specs topLevel)

/-- The kind of the node right above a node that introduces names, by the kind of the latter. -/
def home? (kind : String) : Option String :=
  match kind with
  | "function_declaration" => some "source_file"
  | "method_declaration" => some "source_file"
  | "type_spec" => some "type_declaration"
  | "type_alias" => some "type_declaration"
  | "var_spec" => some "var_declaration"
  | "const_spec" => some "const_declaration"
  | _ => none

/-- Whatever introduces names stands where the grammar has it. -/
structure Placed (t : Node) : Prop where
  root : ∀ v ∈ t.visits [], v.2.kind = "source_file" ↔ v.1.isEmpty = true
  home : ∀ v ∈ t.visits [], ∀ kind ∈ home? v.2.kind,
    v.2.isNamed = true ∧ (v.1.getLast?.any fun p => p.kind == kind && p.isNamed) = true

instance (t : Node) : Decidable (Placed t) :=
  decidable_of_iff
    ((∀ v ∈ t.visits [], v.2.kind = "source_file" ↔ v.1.isEmpty = true) ∧
      ∀ v ∈ t.visits [], ∀ kind ∈ home? v.2.kind,
        v.2.isNamed = true ∧ (v.1.getLast?.any fun p => p.kind == kind && p.isNamed) = true)
    ⟨fun h => ⟨h.1, h.2⟩, fun h => ⟨h.1, h.2⟩⟩

lemma exists_home_of_isDeclaration {n : Node} (h : isDeclaration n = true) :
    ∃ kind, home? n.kind = some kind := by
  simp only [isDeclaration, declarationKinds, List.contains_eq_mem, decide_eq_true_eq,
    List.mem_cons, List.not_mem_nil, or_false] at h
  rcases h with h | h | h | h | h | h <;> simp [home?, h]

/-- What stands in a declaration at the top level is read. -/
lemma mem_introducing_of_home {n p : Node} (hhome : home? n.kind = some p.kind)
    (hn : n ∈ p.namedChildren) (hp : p.kind ≠ "source_file") : n ∈ introducing p := by
  have hspec : n ∈ specs p n.kind := List.mem_flatMap.2 ⟨n, hn, by simp⟩
  unfold home? at hhome
  split at hhome
  next => exact absurd (Option.some.inj hhome).symm hp
  next => exact absurd (Option.some.inj hhome).symm hp
  next hkind =>
    simp only [introducing, ← Option.some.inj hhome]
    exact List.mem_append_left _ (hkind ▸ hspec)
  next hkind =>
    simp only [introducing, ← Option.some.inj hhome]
    exact List.mem_append_right _ (hkind ▸ hspec)
  next hkind =>
    simp only [introducing, ← Option.some.inj hhome]
    exact hkind ▸ hspec
  next hkind =>
    simp only [introducing, ← Option.some.inj hhome]
    exact hkind ▸ hspec
  next => cases hhome

namespace Placed

variable {t n : Node} {above : List Node} (h : Placed t) (hv : (above, n) ∈ t.visits [])

include h hv

/-- The node right above one that introduces names. -/
lemma exists_parent (hn : isDeclaration n = true) :
    n.isNamed = true ∧ ∃ upper p, above = upper ++ [p] ∧ home? n.kind = some p.kind ∧
      p.isNamed = true ∧ n ∈ p.children := by
  obtain ⟨kind, hkind⟩ := exists_home_of_isDeclaration hn
  obtain ⟨hnamed, hparent⟩ := h.home _ hv kind hkind
  refine ⟨hnamed, ?_⟩
  rcases List.eq_nil_or_concat above with rfl | ⟨upper, p, rfl⟩
  · cases hparent
  · rw [List.concat_eq_append] at hv hparent ⊢
    have hp : p.kind = kind ∧ p.isNamed = true := by simpa using hparent
    exact ⟨upper, p, rfl, hp.1 ▸ hkind, hp.2, Node.mem_children_of_mem_visits hv⟩

/-- What stands right below a root is right below the root of the tree. -/
lemma eq_singleton_of_root {upper : List Node} {p : Node} (habove : above = upper ++ [p])
    (hp : p.kind = "source_file") : upper = [] ∧ p = t := by
  subst habove
  have hroot : (upper, p) ∈ t.visits [] := Node.mem_visits_of_ancestor hv
  have hupper : upper = [] := List.isEmpty_iff.1 ((h.root _ hroot).1 hp)
  subst hupper
  obtain ⟨way, hway, -⟩ := Node.mem_visits_iff.1 hroot
  exact ⟨rfl, (List.cons.inj hway).1⟩

/-- What introduces names is read at the top level, or it is deep in another child of the root. -/
lemma topLevel_or_deep (hn : isDeclaration n = true) :
    n ∈ topLevel t ∨
      ∃ s middle p, above = t :: s :: (middle ++ [p]) ∧ home? n.kind = some p.kind := by
  obtain ⟨hnamed, upper, p, rfl, hhome, hpnamed, hchild⟩ := h.exists_parent hv hn
  have hnp : n ∈ p.namedChildren := List.mem_filter.2 ⟨hchild, hnamed⟩
  by_cases hp : p.kind = "source_file"
  · -- a function or a method, right below the root
    obtain ⟨-, rfl⟩ := h.eq_singleton_of_root hv rfl hp
    refine Or.inl (List.mem_flatMap.2 ⟨n, hnp, ?_⟩)
    rw [hp] at hhome
    unfold home? at hhome
    split at hhome
    next hkind => simp [introducing, hkind]
    next hkind => simp [introducing, hkind]
    all_goals simp at hhome
  · have hpvisit : (upper, p) ∈ t.visits [] := Node.mem_visits_of_ancestor hv
    obtain ⟨way, hway, -⟩ := Node.mem_visits_iff.1 hpvisit
    cases upper with
    | nil => exact absurd ((h.root _ hpvisit).2 rfl) hp
    | cons r upper =>
        obtain ⟨rfl, -⟩ := List.cons.inj hway
        cases upper with
        | nil =>
            have hbelow : ([] ++ [r], p) ∈ r.visits [] := hpvisit
            have hpchild : p ∈ r.children := Node.mem_children_of_mem_visits hbelow
            have hptop : p ∈ r.namedChildren := List.mem_filter.2 ⟨hpchild, hpnamed⟩
            exact Or.inl (List.mem_flatMap.2 ⟨p, hptop, mem_introducing_of_home hhome hnp hp⟩)
        | cons s middle => exact Or.inr ⟨s, middle, p, rfl, hhome⟩

omit hv in
lemma methodsAtTop : MethodsAtTop t := by
  intro m hm hkind
  obtain ⟨above, hm⟩ := Node.mem_nodes_iff.1 hm
  obtain ⟨hnamed, upper, p, rfl, hhome, -, hchild⟩ :=
    h.exists_parent hm (by simp [isDeclaration, declarationKinds, hkind])
  have hp : p.kind = "source_file" := by
    rw [hkind] at hhome
    exact (Option.some.inj hhome).symm
  obtain ⟨-, rfl⟩ := h.eq_singleton_of_root hm rfl hp
  exact List.mem_filter.2 ⟨hchild, hnamed⟩

end Placed

end GoReach.Go
