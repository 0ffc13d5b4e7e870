import Mathlib.Data.List.Destutter
import Mathlib.Data.List.Induction
import GoReach.Proofs.Sorted

/-!
# Sets that are filled one by one

`Sorted.ofList` inserts the elements of a list one after the other.  What comes out is said here
without insertion: sort the list so that equal elements keep their order (`StablySorted`), and keep
the first element of every run of equal ones (`ofList_eq_destutter`).

Both sides are strict lists, so it is enough that they have the same elements.  An element is in the
set exactly if it is the first one in the list that the order does not tell apart from it
(`mem_ofList_iff`).  The same is true of the firsts of the runs (`mem_destutter_iff`), because in a
sorted list equal elements stand together, and a stable sort does not change which one is the first.
-/

namespace GoReach.Sorted

open Std (TransCmp OrientedCmp)

variable {α : Type} {cmp : α → α → Ordering}

/-! ## What is in the set -/

section Set

variable [TransCmp cmp]

/-- A new element comes in unless there is an equal one. -/
lemma mem_insert_iff {a x : α} {as : List α} (h : Strict cmp as) :
    x ∈ insert cmp a as ↔ x ∈ as ∨ x = a ∧ ∀ b ∈ as, cmp a b ≠ .eq := by
  constructor
  · intro hx
    rcases mem_of_mem_insert hx with rfl | hx'
    · by_cases hnew : ∀ b ∈ as, cmp x b ≠ .eq
      · exact Or.inr ⟨rfl, hnew⟩
      · simp only [not_forall, not_not] at hnew
        obtain ⟨b, hb, heq⟩ := hnew
        have hxb : x = b := (strict_insert h).eq_of_eq hx (mem_insert_of_mem hb) heq
        exact Or.inl (hxb ▸ hb)
    · exact Or.inl hx'
  · rintro (hx | ⟨rfl, hnew⟩)
    · exact mem_insert_of_mem hx
    · obtain ⟨b, hb, heq⟩ : ∃ b ∈ insert cmp x as, cmp x b = .eq := exists_mem_insert_eq x as
      rcases mem_of_mem_insert hb with rfl | hb'
      · exact hb
      · exact absurd heq (hnew b hb')

omit [TransCmp cmp] in
lemma ofList_concat (as : List α) (a : α) :
    ofList cmp (as ++ [a]) = insert cmp a (ofList cmp as) := by
  simp [ofList]

/-- A set is strictly increasing. -/
lemma strict_ofList (as : List α) : Strict cmp (ofList cmp as) := by
  induction as using List.reverseRecOn with
  | nil => exact .nil
  | append_singleton as a ih =>
      rw [ofList_concat]
      exact strict_insert ih

/-- Something equal is in the set exactly if it was in the list. -/
lemma exists_mem_ofList_iff {a : α} {as : List α} :
    (∃ b ∈ ofList cmp as, cmp a b = .eq) ↔ ∃ b ∈ as, cmp a b = .eq := by
  induction as using List.reverseRecOn with
  | nil => rfl
  | append_singleton as c ih =>
      rw [ofList_concat]
      constructor
      · rintro ⟨b, hb, heq⟩
        rcases mem_of_mem_insert hb with rfl | hb
        · exact ⟨b, by simp, heq⟩
        · obtain ⟨b', hb', heq'⟩ := ih.1 ⟨b, hb, heq⟩
          exact ⟨b', by simp [hb'], heq'⟩
      · rintro ⟨b, hb, heq⟩
        rcases List.mem_append.1 hb with hb | hb
        · obtain ⟨b', hb', heq'⟩ := ih.2 ⟨b, hb, heq⟩
          exact ⟨b', mem_insert_of_mem hb', heq'⟩
        · obtain rfl := List.mem_singleton.1 hb
          obtain ⟨b', hb', heq'⟩ : ∃ b' ∈ insert cmp b (ofList cmp as), cmp b b' = .eq :=
            exists_mem_insert_eq b _
          exact ⟨b', hb', TransCmp.eq_trans heq heq'⟩

/-- A set contains what is equal to an element of the list. -/
lemma contains_ofList_iff {a : α} {as : List α} :
    contains cmp a (ofList cmp as) = true ↔ ∃ b ∈ as, cmp a b = .eq := by
  rw [← exists_mem_ofList_iff]
  simp [contains]

/-- Of equal elements, that is in the set which came first. -/
lemma mem_ofList_iff {x : α} {as : List α} :
    x ∈ ofList cmp as ↔ as.find? (fun y => cmp x y == .eq) = some x := by
  induction as using List.reverseRecOn with
  | nil => simp [ofList]
  | append_singleton as a ih =>
      rw [ofList_concat, mem_insert_iff (strict_ofList as), ih, List.find?_append]
      cases hfound : as.find? fun y => cmp x y == .eq with
      | some y =>
          have hy : ∃ b ∈ as, cmp x b = .eq :=
            ⟨y, List.mem_of_find?_eq_some hfound, by simpa using List.find?_some hfound⟩
          have hold : ¬ (x = a ∧ ∀ b ∈ ofList cmp as, cmp a b ≠ .eq) := by
            rintro ⟨rfl, hnew⟩
            obtain ⟨b, hb, heq⟩ := exists_mem_ofList_iff.2 hy
            exact hnew b hb heq
          simp [hold]
      | none =>
          have hnone : ¬ ∃ b ∈ as, cmp x b = .eq := by simpa using hfound
          have hnew : x = a → ∀ b ∈ ofList cmp as, cmp a b ≠ .eq := by
            rintro rfl b hb heq
            exact hnone (exists_mem_ofList_iff.1 ⟨b, hb, heq⟩)
          have hself : x = a → cmp x a = .eq := by
            rintro rfl
            exact Std.ReflCmp.compare_self
          simp only [reduceCtorEq, false_or, Option.none_or, List.find?_singleton, beq_iff_eq]
          constructor
          · rintro ⟨hxa, -⟩
            rw [if_pos (hself hxa), hxa]
          · intro h
            split at h
            · obtain rfl := Option.some.inj h
              exact ⟨rfl, hnew rfl⟩
            · cases h

end Set

/-! ## Stable sorting -/

/-- The second list is the first one in order, and equal elements have kept theirs. -/
structure StablySorted (cmp : α → α → Ordering) (as sorted : List α) : Prop where
  perm : sorted.Perm as
  ordered : sorted.Pairwise fun a b => (cmp a b).isLE = true
  stable : ∀ a, sorted.filter (fun b => cmp a b == .eq) = as.filter fun b => cmp a b == .eq

/-- Sorting is stable. -/
lemma stablySorted_sort [TransCmp cmp] (as : List α) : StablySorted cmp as (sort cmp as) := by
  have htrans : ∀ a b c, (cmp a b).isLE = true → (cmp b c).isLE = true → (cmp a c).isLE = true :=
    fun _ _ _ => TransCmp.isLE_trans
  have htotal : ∀ a b, ((cmp a b).isLE || (cmp b a).isLE) = true := by
    intro a b
    cases hab : cmp a b <;> simp [hab, OrientedCmp.gt_iff_lt.1]
  refine ⟨List.mergeSort_perm as _, List.pairwise_mergeSort htrans htotal as, ?_⟩
  intro a
  have hequal : (as.filter fun b => cmp a b == .eq).Pairwise fun b c => (cmp b c).isLE = true := by
    apply List.pairwise_of_forall_mem_list
    intro b hb c hc
    have hab : cmp a b = .eq := by simpa using (List.mem_filter.1 hb).2
    have hac : cmp a c = .eq := by simpa using (List.mem_filter.1 hc).2
    simp [TransCmp.eq_trans (OrientedCmp.eq_symm hab) hac]
  -- the equal elements are in order already, so sorting keeps them as they are
  have hsub := (List.sublist_mergeSort htrans htotal hequal List.filter_sublist).filter
    fun b => cmp a b == .eq
  rw [List.filter_filter] at hsub
  simp only [Bool.and_self] at hsub
  exact (hsub.eq_of_length ((List.mergeSort_perm as _).filter _).length_eq.symm).symm

/-! ## The firsts of the runs -/

section Runs

variable [TransCmp cmp]

/-- Once the next element of a sorted list is another one, all others are. -/
lemma lt_of_ordered {a b : α} {as : List α}
    (h : (a :: b :: as).Pairwise fun b c => (cmp b c).isLE = true) (hab : cmp a b ≠ .eq) :
    ∀ y ∈ b :: as, cmp a y = .lt := by
  obtain ⟨ha, hrest⟩ := List.pairwise_cons.1 h
  have hlt : cmp a b = .lt := by
    have hle := ha b List.mem_cons_self
    cases hc : cmp a b with
    | lt => rfl
    | eq => exact absurd hc hab
    | gt => simp [hc] at hle
  intro y hy
  rcases List.mem_cons.1 hy with rfl | hy
  · exact hlt
  · exact TransCmp.lt_of_lt_of_isLE hlt ((List.pairwise_cons.1 hrest).1 y hy)

variable {R : α → α → Prop} [DecidableRel R] (hR : ∀ a b, R a b ↔ cmp a b ≠ .eq)

include hR

/-- In a sorted list, what begins a run is the first one of its equals. -/
lemma mem_destutter'_iff {a x : α} {as : List α}
    (h : (a :: as).Pairwise fun b c => (cmp b c).isLE = true) :
    x ∈ as.destutter' R a ↔ (a :: as).find? (fun y => cmp x y == .eq) = some x := by
  induction as generalizing a with
  | nil =>
      simp only [List.destutter'_nil, List.mem_singleton, List.find?_singleton, beq_iff_eq]
      constructor
      · rintro rfl
        rw [if_pos Std.ReflCmp.compare_self]
      · intro hx
        split at hx
        · exact (Option.some.inj hx).symm
        · cases hx
  | cons b as ih =>
      obtain ⟨ha, hrest⟩ := List.pairwise_cons.1 h
      by_cases hab : cmp a b = .eq
      · have hsame : R a b ↔ False := by simp [hR, hab]
        have htail : (a :: as).Pairwise fun b c => (cmp b c).isLE = true :=
          List.pairwise_cons.2 ⟨fun c hc => ha c (List.mem_cons_of_mem b hc),
            (List.pairwise_cons.1 hrest).2⟩
        have hxb : cmp x a ≠ .eq → cmp x b ≠ .eq := fun hne heq =>
          hne (TransCmp.eq_trans heq (OrientedCmp.eq_symm hab))
        rw [List.destutter'_cons, if_neg (by simp [hsame]), ih htail]
        by_cases hxa : cmp x a = .eq
        · simp [hxa]
        · simp [hxa, hxb hxa]
      · have hlt := lt_of_ordered h hab
        rw [List.destutter'_cons, if_pos ((hR a b).2 hab), List.mem_cons, ih hrest]
        by_cases hxa : cmp x a = .eq
        · have hfirst : (a :: b :: as).find? (fun y => cmp x y == .eq) = some a :=
            List.find?_cons_of_pos (by simp [hxa])
          rw [hfirst, Option.some.injEq, eq_comm]
          refine or_iff_left ?_
          intro hx
          have hax := hlt x (List.mem_of_find?_eq_some hx)
          rw [OrientedCmp.eq_symm hxa] at hax
          cases hax
        · have hne : x ≠ a := by
            rintro rfl
            exact hxa Std.ReflCmp.compare_self
          have hskip : (a :: b :: as).find? (fun y => cmp x y == .eq)
              = (b :: as).find? fun y => cmp x y == .eq :=
            List.find?_cons_of_neg (by simp [hxa])
          rw [or_iff_right hne, hskip]

/-- Of neighbours that are equal, the first one is kept. -/
lemma mem_destutter_iff {x : α} {as : List α} (h : as.Pairwise fun b c => (cmp b c).isLE = true) :
    x ∈ as.destutter R ↔ as.find? (fun y => cmp x y == .eq) = some x := by
  cases as with
  | nil => simp
  | cons a as => exact mem_destutter'_iff hR h

omit [DecidableRel R] in
lemma strict_of_isChain {as : List α} (hle : as.Pairwise fun b c => (cmp b c).isLE = true)
    (hne : as.IsChain R) : Strict cmp as := by
  induction as with
  | nil => exact .nil
  | cons a as ih =>
      refine List.pairwise_cons.2 ⟨?_, ih (List.pairwise_cons.1 hle).2 hne.tail⟩
      cases as with
      | nil => simp
      | cons b as =>
          exact lt_of_ordered hle ((hR a b).1 (List.isChain_cons_cons.1 hne).1)

/-- A sorted list without equal neighbours is strictly increasing. -/
lemma strict_destutter {as : List α} (h : as.Pairwise fun b c => (cmp b c).isLE = true) :
    Strict cmp (as.destutter R) :=
  strict_of_isChain hR (h.sublist (List.destutter_sublist R as)) (List.isChain_destutter R as)

/-- **A set that is filled one by one** is the sorted list with the first of every run of equal
elements. -/
lemma ofList_eq_destutter {as sorted : List α} (h : StablySorted cmp as sorted) :
    ofList cmp as = sorted.destutter R := by
  refine (strict_ofList as).eq_of_mem_iff (strict_destutter hR h.ordered) ?_
  intro x
  rw [mem_ofList_iff, mem_destutter_iff hR h.ordered, ← List.head?_filter, ← List.head?_filter,
    h.stable]

end Runs

end GoReach.Sorted
