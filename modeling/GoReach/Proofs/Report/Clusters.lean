import Mathlib.Data.List.Nodup
import GoReach.Proofs.Order
import GoReach.Proofs.Sorted
import GoReach.Report.Dot

/-!
# The clusters of a graph

`addToCluster_cases` says all that adding a declaration to clusters can do: it joins the cluster of
its file, or it begins one at its place.  Either way the clusters stay a grouping of the
declarations by their files (`Groups`), and so do those of a whole graph (`groups_clusters`).  One
group after another, each sorted, the declarations are in order (`Groups.strict_inOrder`).
-/

namespace GoReach.Report.Dot

open Std (TransCmp OrientedCmp)
open Sorted (Strict)

/-- All that adding a declaration can do: it joins the cluster of its file, or it begins one. -/
lemma addToCluster_cases (d : Declaration) {cs : List Cluster}
    (h : Strict Path.compare (cs.map Cluster.file)) :
    (∃ before c after, cs = before ++ c :: after ∧ c.file.components = d.file.components ∧
      addToCluster d cs
        = before ++ { c with declarations := c.declarations ++ [d] } :: after) ∨
    (∃ before after, cs = before ++ after ∧
      (∀ c ∈ before, c.file.compare d.file = .lt) ∧ (∀ c ∈ after, d.file.compare c.file = .lt) ∧
      addToCluster d cs = before ++ ⟨d.file, [d]⟩ :: after) := by
  induction cs with
  | nil => exact Or.inr ⟨[], [], rfl, by simp, by simp, rfl⟩
  | cons c rest ih =>
      rw [List.map_cons, Strict, List.pairwise_cons] at h
      obtain ⟨hc, hrest⟩ := h
      rw [addToCluster]
      split
      next hlt =>
        refine Or.inr ⟨[], c :: rest, rfl, by simp, ?_, rfl⟩
        intro c' hc'
        rcases List.mem_cons.1 hc' with rfl | hc'
        · exact hlt
        · exact TransCmp.lt_trans hlt (hc _ (List.mem_map_of_mem hc'))
      next heq =>
        exact Or.inl ⟨[], c, rest, rfl, (Path.compare_eq_iff.1 heq).symm, rfl⟩
      next hgt =>
        rcases ih hrest with ⟨before, c', after, rfl, hfile, hadd⟩ |
          ⟨before, after, rfl, hbefore, hafter, hadd⟩
        · exact Or.inl ⟨c :: before, c', after, rfl, hfile, by rw [hadd]; rfl⟩
        · refine Or.inr ⟨c :: before, after, rfl, ?_, hafter, by rw [hadd]; rfl⟩
          intro c' hc'
          rcases List.mem_cons.1 hc' with rfl | hc'
          · exact OrientedCmp.lt_of_gt hgt
          · exact hbefore c' hc'

/-- The clusters of a list of declarations: one for every file, in order. -/
structure Groups (ds : List Declaration) (cs : List Cluster) : Prop where
  files : Strict Path.compare (cs.map Cluster.file)
  holds : ∀ c ∈ cs, c.declarations = ds.filter fun d => d.file.same c.file
  covers : ∀ d ∈ ds, ∃ c ∈ cs, d.file.components = c.file.components

lemma components_ne_of_lt {p q : Path} (h : p.compare q = .lt) : p.components ≠ q.components := by
  intro heq
  rw [Path.compare_eq_iff.2 heq] at h
  cases h

section Step

variable {ds : List Declaration} {d : Declaration} {before after : List Cluster} {c : Cluster}

/-- A file without declarations may have a cluster. -/
lemma Groups.insertEmpty (h : Groups ds (before ++ after))
    (hbefore : ∀ c ∈ before, c.file.compare d.file = .lt)
    (hafter : ∀ c ∈ after, d.file.compare c.file = .lt) :
    Groups ds (before ++ ⟨d.file, []⟩ :: after) := by
  have hother : ∀ c ∈ before ++ after, d.file.components ≠ c.file.components := by
    intro c hc
    rcases List.mem_append.1 hc with hc | hc
    · exact (components_ne_of_lt (hbefore c hc)).symm
    · exact components_ne_of_lt (hafter c hc)
  have hperm : (before ++ ⟨d.file, []⟩ :: after).Perm (⟨d.file, []⟩ :: (before ++ after)) :=
    List.perm_middle
  refine ⟨?_, ?_, ?_⟩
  · have hfiles := h.files
    simp only [List.map_append, List.map_cons, Strict, List.pairwise_append, List.pairwise_cons,
      List.forall_mem_map, List.forall_mem_cons] at hfiles ⊢
    exact ⟨hfiles.1, ⟨hafter, hfiles.2.1⟩, fun c hc => ⟨hbefore c hc, hfiles.2.2 c hc⟩⟩
  · intro c hc
    rcases List.mem_cons.1 (hperm.mem_iff.1 hc) with rfl | hc
    · symm
      rw [List.filter_eq_nil_iff]
      intro e he hsame
      obtain ⟨c, hc, hcover⟩ := h.covers e he
      exact hother c hc ((beq_iff_eq.1 hsame).symm.trans hcover)
    · exact h.holds c hc
  · intro e he
    obtain ⟨c, hc, hcover⟩ := h.covers e he
    exact ⟨c, hperm.mem_iff.2 (List.mem_cons_of_mem _ hc), hcover⟩

/-- A declaration joins the cluster of its file. -/
lemma Groups.join (h : Groups ds (before ++ c :: after))
    (hfile : c.file.components = d.file.components) :
    Groups (ds ++ [d]) (before ++ { c with declarations := c.declarations ++ [d] } :: after) := by
  have hother : ∀ c' ∈ before ++ after, d.file.components ≠ c'.file.components := by
    have hfiles := h.files
    simp only [List.map_append, List.map_cons, Strict, List.pairwise_append, List.pairwise_cons,
      List.forall_mem_map, List.forall_mem_cons] at hfiles
    intro c' hc'
    rw [← hfile]
    rcases List.mem_append.1 hc' with hc' | hc'
    · exact (components_ne_of_lt (hfiles.2.2 c' hc').1).symm
    · exact components_ne_of_lt (hfiles.2.1.1 c' hc')
  have hperm : ∀ c' : Cluster, (before ++ c' :: after).Perm (c' :: (before ++ after)) :=
    fun _ => List.perm_middle
  refine ⟨?_, ?_, ?_⟩
  · have hfiles := h.files
    rw [List.map_append, List.map_cons] at hfiles ⊢
    exact hfiles
  · intro c' hc'
    rw [List.filter_append]
    rcases List.mem_cons.1 ((hperm _).mem_iff.1 hc') with rfl | hc'
    · have hown := h.holds c ((hperm c).mem_iff.2 List.mem_cons_self)
      simp [hown, Path.same, hfile]
    · have hold := h.holds c' ((hperm c).mem_iff.2 (List.mem_cons_of_mem c hc'))
      simp [hold, Path.same, hother c' hc']
  · intro e he
    rcases List.mem_append.1 he with he | he
    · obtain ⟨c', hc', hcover⟩ := h.covers e he
      rcases List.mem_cons.1 ((hperm c).mem_iff.1 hc') with rfl | hc'
      · exact ⟨_, (hperm _).mem_iff.2 List.mem_cons_self, hcover⟩
      · exact ⟨c', (hperm _).mem_iff.2 (List.mem_cons_of_mem _ hc'), hcover⟩
    · rw [List.mem_singleton.1 he]
      exact ⟨_, (hperm _).mem_iff.2 List.mem_cons_self, hfile.symm⟩

end Step

lemma Groups.addToCluster {ds : List Declaration} {cs : List Cluster} (h : Groups ds cs)
    (d : Declaration) : Groups (ds ++ [d]) (addToCluster d cs) := by
  rcases addToCluster_cases d h.files with ⟨before, c, after, rfl, hfile, hadd⟩ |
    ⟨before, after, rfl, hbefore, hafter, hadd⟩
  · rw [hadd]
    exact h.join hfile
  · rw [hadd]
    exact (h.insertEmpty hbefore hafter).join rfl

lemma groups_clusters (g : ReferenceGraph) : Groups g.nodes.toList (clusters g) := by
  have hfold : ∀ (ds es : List Declaration) (cs : List Cluster), Groups es cs →
      Groups (es ++ ds) (ds.foldl (fun cs d => Dot.addToCluster d cs) cs) := by
    intro ds
    induction ds with
    | nil =>
        intro es cs h
        rwa [List.append_nil]
    | cons d ds ih =>
        intro es cs h
        have hstep := ih (es ++ [d]) _ (h.addToCluster d)
        rwa [List.append_assoc] at hstep
  exact hfold g.nodes.toList [] [] ⟨List.Pairwise.nil, by simp, by simp⟩

/-- The declarations of clusters, in order. -/
def inOrder (cs : List Cluster) : List Declaration :=
  cs.flatMap fun c => Sorted.sort Declaration.compare c.declarations

namespace Groups

variable {ds : List Declaration} {cs : List Cluster} (h : Groups ds cs)

include h

lemma mem_declarations_iff {c : Cluster} (hc : c ∈ cs) {d : Declaration} :
    d ∈ c.declarations ↔ d ∈ ds ∧ d.file.components = c.file.components := by
  rw [h.holds c hc, List.mem_filter, Path.same, beq_iff_eq]

lemma mem_inOrder_iff {d : Declaration} : d ∈ inOrder cs ↔ d ∈ ds := by
  simp only [inOrder, List.mem_flatMap, Sorted.mem_sort]
  constructor
  · rintro ⟨c, hc, hd⟩
    exact ((h.mem_declarations_iff hc).1 hd).1
  · intro hd
    obtain ⟨c, hc, hfile⟩ := h.covers d hd
    exact ⟨c, hc, (h.mem_declarations_iff hc).2 ⟨hd, hfile⟩⟩

/-- Sorting every group sorts them all, since a file comes before its declarations' names. -/
lemma strict_inOrder (hds : (ds.map Declaration.key).Nodup) :
    Strict Declaration.compare (inOrder cs) := by
  rw [List.Nodup, List.pairwise_map] at hds
  refine List.pairwise_flatMap.2 ⟨?_, ?_⟩
  · intro c hc
    refine Sorted.strict_sort ?_
    rw [h.holds c hc]
    refine (hds.filter _).imp fun hne heq => hne (Declaration.compare_eq_iff.1 heq)
  · refine (List.pairwise_map.1 h.files).imp_of_mem ?_
    intro c c' hc hc' hlt x hx y hy
    obtain ⟨-, hxfile⟩ := (h.mem_declarations_iff hc).1 (Sorted.mem_sort.1 hx)
    obtain ⟨-, hyfile⟩ := (h.mem_declarations_iff hc').1 (Sorted.mem_sort.1 hy)
    have hfiles : x.file.compare y.file = .lt := by
      rw [Path.compare, hxfile, hyfile]
      exact hlt
    rw [Declaration.compare, hfiles]
    rfl

end Groups

end GoReach.Report.Dot
