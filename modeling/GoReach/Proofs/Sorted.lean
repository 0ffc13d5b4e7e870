import Mathlib.Tactic.Lemma
import Mathlib.Data.List.Basic
import GoReach.Sorted

/-!
# Laws of sorted lists

A list is `Strict` if each of its elements comes before all later ones.  `Sorted.insert` and
`Sorted.put` keep a list strict; they differ in what they do with an element that the order does
not tell apart from the new one, so each has its own statement of what is in the list afterwards.

What a set *contains* is meant up to the order: after an insertion there is an element equal to the
new one (`exists_mem_insert_eq`), and all others are still there (`mem_insert_of_mem`).  That holds
for any list, sorted or not.
-/

namespace GoReach.Sorted

open Std (TransCmp OrientedCmp)

variable {α : Type} {cmp : α → α → Ordering}

/-- Every element comes before all later ones. -/
def Strict (cmp : α → α → Ordering) (as : List α) : Prop :=
  as.Pairwise fun a b => cmp a b = .lt

instance (cmp : α → α → Ordering) (as : List α) : Decidable (Strict cmp as) :=
  inferInstanceAs (Decidable (as.Pairwise _))

/-- The order tells the elements of a strict list apart. -/
lemma Strict.eq_of_eq [TransCmp cmp] {as : List α} (h : Strict cmp as) {a b : α} (ha : a ∈ as)
    (hb : b ∈ as) (hab : cmp a b = .eq) : a = b := by
  induction as with
  | nil => cases ha
  | cons c rest ih =>
      obtain ⟨hc, hrest⟩ := List.pairwise_cons.1 h
      rcases List.mem_cons.1 ha with rfl | ha'
      · rcases List.mem_cons.1 hb with rfl | hb'
        · rfl
        · rw [hc b hb'] at hab
          cases hab
      · rcases List.mem_cons.1 hb with rfl | hb'
        · have hba := hc a ha'
          rw [OrientedCmp.eq_symm hab] at hba
          cases hba
        · exact ih hrest ha' hb'

/-- A strictly increasing list has no repetitions. -/
lemma Strict.nodup [TransCmp cmp] {as : List α} (h : Strict cmp as) : as.Nodup := by
  refine h.imp ?_
  rintro x _ hlt rfl
  have heq : cmp x x = .eq := Std.ReflCmp.compare_self
  rw [heq] at hlt
  cases hlt

/-- Strict lists of the same elements are equal. -/
lemma Strict.eq_of_mem_iff [TransCmp cmp] {as bs : List α} (ha : Strict cmp as)
    (hb : Strict cmp bs) (h : ∀ x, x ∈ as ↔ x ∈ bs) : as = bs := by
  have hperm : as.Perm bs := (List.perm_ext_iff_of_nodup ha.nodup hb.nodup).2 h
  refine hperm.eq_of_pairwise (fun x y _ _ hxy hyx => ?_) ha hb
  rw [OrientedCmp.gt_of_lt hyx] at hxy
  cases hxy

/-! ## Inserting into a set -/

lemma mem_of_mem_insert {a x : α} {as : List α} (h : x ∈ insert cmp a as) : x = a ∨ x ∈ as := by
  induction as with
  | nil => exact Or.inl (List.mem_singleton.1 h)
  | cons b rest ih =>
      rw [insert] at h
      split at h
      · exact List.mem_cons.1 h
      · exact Or.inr h
      · rcases List.mem_cons.1 h with rfl | h
        · exact Or.inr List.mem_cons_self
        · exact (ih h).imp_right (List.mem_cons_of_mem b)

lemma mem_insert_of_mem {a x : α} {as : List α} (h : x ∈ as) : x ∈ insert cmp a as := by
  induction as with
  | nil => cases h
  | cons b rest ih =>
      rw [insert]
      split
      · exact List.mem_cons_of_mem a h
      · exact h
      · rcases List.mem_cons.1 h with rfl | h
        · exact List.mem_cons_self
        · exact List.mem_cons_of_mem b (ih h)

/-- The new element is there, or one that is equal to it. -/
lemma exists_mem_insert_eq [TransCmp cmp] (a : α) (as : List α) :
    ∃ b ∈ insert cmp a as, cmp a b = .eq := by
  induction as with
  | nil => exact ⟨a, List.mem_singleton_self a, Std.ReflCmp.compare_self⟩
  | cons b rest ih =>
      rw [insert]
      split
      next => exact ⟨a, List.mem_cons_self, Std.ReflCmp.compare_self⟩
      next h => exact ⟨b, List.mem_cons_self, h⟩
      next =>
        obtain ⟨c, hc, h⟩ := ih
        exact ⟨c, List.mem_cons_of_mem b hc, h⟩

/-- Inserting keeps a list strictly increasing, ... -/
lemma strict_insert [TransCmp cmp] {a : α} {as : List α} (h : Strict cmp as) :
    Strict cmp (insert cmp a as) := by
  induction as with
  | nil => exact List.pairwise_singleton _ a
  | cons b rest ih =>
      obtain ⟨hb, hrest⟩ := List.pairwise_cons.1 h
      rw [insert]
      split
      next hab =>
        refine List.pairwise_cons.2 ⟨fun c hc => ?_, h⟩
        rcases List.mem_cons.1 hc with rfl | hc
        · exact hab
        · exact TransCmp.lt_trans hab (hb c hc)
      next => exact h
      next hab =>
        refine List.pairwise_cons.2 ⟨fun c hc => ?_, ih hrest⟩
        rcases mem_of_mem_insert hc with rfl | hc
        · exact OrientedCmp.lt_of_gt hab
        · exact hb c hc

/-! ## Putting into a table -/

lemma mem_of_mem_put {a x : α} {as : List α} (h : x ∈ put cmp a as) : x = a ∨ x ∈ as := by
  induction as with
  | nil => exact Or.inl (List.mem_singleton.1 h)
  | cons b rest ih =>
      rw [put] at h
      split at h
      · exact List.mem_cons.1 h
      · exact (List.mem_cons.1 h).imp_right (List.mem_cons_of_mem b)
      · rcases List.mem_cons.1 h with rfl | h
        · exact Or.inr List.mem_cons_self
        · exact (ih h).imp_right (List.mem_cons_of_mem b)

/-- What is put in is there, in place of what was equal to it. -/
lemma mem_put_self (a : α) (as : List α) : a ∈ put cmp a as := by
  induction as with
  | nil => exact List.mem_singleton_self a
  | cons b rest ih =>
      rw [put]
      split
      · exact List.mem_cons_self
      · exact List.mem_cons_self
      · exact List.mem_cons_of_mem b ih

/-- What was in the table is still there, or something equal in its place. -/
lemma exists_mem_put [TransCmp cmp] {a x : α} {as : List α} (h : x ∈ as) :
    ∃ y ∈ put cmp a as, cmp x y = .eq := by
  induction as with
  | nil => cases h
  | cons b rest ih =>
      rw [put]
      split
      next => exact ⟨x, List.mem_cons_of_mem a h, Std.ReflCmp.compare_self⟩
      next hab =>
        rcases List.mem_cons.1 h with rfl | h
        · exact ⟨a, List.mem_cons_self, OrientedCmp.eq_symm hab⟩
        · exact ⟨x, List.mem_cons_of_mem a h, Std.ReflCmp.compare_self⟩
      next =>
        rcases List.mem_cons.1 h with rfl | h
        · exact ⟨x, List.mem_cons_self, Std.ReflCmp.compare_self⟩
        · obtain ⟨y, hy, hxy⟩ := ih h
          exact ⟨y, List.mem_cons_of_mem b hy, hxy⟩

/-- ... and so does putting in. -/
lemma strict_put [TransCmp cmp] {a : α} {as : List α} (h : Strict cmp as) :
    Strict cmp (put cmp a as) := by
  induction as with
  | nil => exact List.pairwise_singleton _ a
  | cons b rest ih =>
      obtain ⟨hb, hrest⟩ := List.pairwise_cons.1 h
      rw [put]
      split
      next hab =>
        refine List.pairwise_cons.2 ⟨fun c hc => ?_, h⟩
        rcases List.mem_cons.1 hc with rfl | hc
        · exact hab
        · exact TransCmp.lt_trans hab (hb c hc)
      next hab =>
        exact List.pairwise_cons.2 ⟨fun c hc => TransCmp.lt_of_eq_of_lt hab (hb c hc), hrest⟩
      next hab =>
        refine List.pairwise_cons.2 ⟨fun c hc => ?_, ih hrest⟩
        rcases mem_of_mem_put hc with rfl | hc
        · exact OrientedCmp.lt_of_gt hab
        · exact hb c hc

/-- A table keeps everything but what is equal to the new element. -/
lemma mem_put_iff [TransCmp cmp] {a x : α} {as : List α} (h : Strict cmp as) :
    x ∈ put cmp a as ↔ x = a ∨ x ∈ as ∧ cmp a x ≠ .eq := by
  induction as with
  | nil => simp [put]
  | cons b rest ih =>
      obtain ⟨hb, hrest⟩ := List.pairwise_cons.1 h
      have hkept : cmp a b ≠ .gt → ∀ y ∈ rest, cmp a y ≠ .eq := by
        intro hab y hy heq
        have hlt : cmp a y = .lt := by
          cases hc : cmp a b with
          | lt => exact TransCmp.lt_trans hc (hb y hy)
          | eq => exact TransCmp.lt_of_eq_of_lt hc (hb y hy)
          | gt => exact absurd hc hab
        rw [heq] at hlt
        cases hlt
      rw [put]
      split
      next hab =>
        have hall : x ∈ b :: rest → cmp a x ≠ .eq := by
          intro hx
          rcases List.mem_cons.1 hx with rfl | hx
          · simp [hab]
          · exact hkept (by simp [hab]) x hx
        rw [List.mem_cons, and_iff_left_of_imp hall]
      next hab =>
        rw [List.mem_cons, List.mem_cons, or_and_right, ← or_assoc]
        constructor
        · rintro (rfl | hx)
          · exact Or.inl (Or.inl rfl)
          · exact Or.inr ⟨hx, hkept (by simp [hab]) x hx⟩
        · rintro ((rfl | ⟨rfl, hne⟩) | ⟨hx, -⟩)
          · exact Or.inl rfl
          · exact absurd hab hne
          · exact Or.inr hx
      next hab =>
        rw [List.mem_cons, List.mem_cons, ih hrest]
        constructor
        · rintro (rfl | rfl | ⟨hx, hne⟩)
          · exact Or.inr ⟨Or.inl rfl, by simp [hab]⟩
          · exact Or.inl rfl
          · exact Or.inr ⟨Or.inr hx, hne⟩
        · rintro (rfl | ⟨rfl | hx, hne⟩)
          · exact Or.inr (Or.inl rfl)
          · exact Or.inl rfl
          · exact Or.inr (Or.inr ⟨hx, hne⟩)

/-! ## Sorting -/

@[simp] lemma mem_sort {x : α} {as : List α} : x ∈ sort cmp as ↔ x ∈ as := List.mem_mergeSort

/-- Elements that the order tells apart come out in strict order. -/
lemma strict_sort [TransCmp cmp] {as : List α} (h : as.Pairwise fun a b => cmp a b ≠ .eq) :
    Strict cmp (sort cmp as) := by
  have hle : (sort cmp as).Pairwise fun a b => (cmp a b).isLE = true :=
    List.pairwise_mergeSort (fun _ _ _ => TransCmp.isLE_trans)
      (fun a b => by cases hab : cmp a b <;> simp [hab, OrientedCmp.gt_iff_lt.1]) as
  have hne : (sort cmp as).Pairwise fun a b => cmp a b ≠ .eq :=
    (List.mergeSort_perm as _).symm.pairwise h fun hab hba => hab (OrientedCmp.eq_symm hba)
  refine (hle.and hne).imp fun {a b} hab => ?_
  cases hc : cmp a b with
  | lt => rfl
  | eq => exact absurd hc hab.2
  | gt => simp [hc] at hab

end GoReach.Sorted
