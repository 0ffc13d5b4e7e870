import GoReach.Proofs.Order
import GoReach.Proofs.Path.Spelling
import GoReach.Proofs.SortedSet

/-!
# Which declarations are the same

Whether two declarations are the same is tested by their keys, and their order is found by comparing
component by component and then the names.  The two are written apart, but every set and every
sorted list of declarations relies on both.  Here they are put together
(`Declaration.order_of_identity`):

* the comparison is a total order on declarations, up to being the same;
* to be the same is to have the same name and to lie in files whose paths are spellings of one path;
  kind and span play no part, and neither do the slashes and dots that `Path.Simplifies` leaves out;
* so a set of declarations is what a stable sort makes of the list it is filled with, without
  repetitions, and the set contains what is the same as a member of the list.
-/

namespace GoReach

open Std (TransCmp OrientedCmp ReflCmp)

/-- A comparison is a total order on what `same` does not tell apart. -/
structure OrdersUpTo {α : Type} (cmp : α → α → Ordering) (same : α → α → Bool) : Prop where
  refl : ∀ a, cmp a a = .eq
  swap : ∀ a b, cmp b a = (cmp a b).swap
  antisymm : ∀ a b, (cmp a b).isLE = true → (cmp b a).isLE = true → same a b = true
  trans : ∀ a b c, (cmp a b).isLE = true → (cmp b c).isLE = true → (cmp a c).isLE = true
  total : ∀ a b, (cmp a b).isLE = true ∨ (cmp b a).isLE = true
  eq_iff : ∀ a b, cmp a b = .eq ↔ same a b = true

lemma ordersUpTo_of_eq_iff {α : Type} {cmp : α → α → Ordering} [TransCmp cmp] {same : α → α → Bool}
    (h : ∀ a b, cmp a b = .eq ↔ same a b = true) : OrdersUpTo cmp same where
  refl _ := ReflCmp.compare_self
  swap _ _ := OrientedCmp.eq_swap
  antisymm a b hab hba := by
    have hswap : cmp b a = (cmp a b).swap := OrientedCmp.eq_swap
    rw [hswap] at hba
    rw [← h]
    cases hc : cmp a b with
    | lt => simp [hc] at hba
    | eq => rfl
    | gt => simp [hc] at hab
  trans _ _ _ := TransCmp.isLE_trans
  total a b := by
    have hswap : cmp b a = (cmp a b).swap := OrientedCmp.eq_swap
    rw [hswap]
    cases cmp a b <;> simp
  eq_iff := h

namespace Declaration

lemma same_iff_components {a b : Declaration} :
    a.same b = true ↔ a.file.components = b.file.components ∧ a.name = b.name := by
  rw [same_iff, key, key, Key.mk.injEq]

/-- **Order and identity of declarations.** -/
theorem order_of_identity :
    OrdersUpTo Declaration.compare same ∧
    (∀ a b : Declaration,
      a.same b = true ↔ a.file.components = b.file.components ∧ a.name = b.name) ∧
    (∀ a b : Declaration,
      a.same b = true ↔ Path.Respelled a.file.text.toList b.file.text.toList ∧ a.name = b.name) ∧
    ∀ ds : List Declaration,
      Sorted.StablySorted Declaration.compare ds (Sorted.sort Declaration.compare ds) ∧
      Sorted.ofList Declaration.compare ds
        = (Sorted.sort Declaration.compare ds).destutter (fun a b => a.same b = false) ∧
      ∀ d, Sorted.contains Declaration.compare d (Sorted.ofList Declaration.compare ds) = true ↔
        ∃ e ∈ ds, d.same e = true := by
  have heq : ∀ a b : Declaration, a.compare b = .eq ↔ a.same b = true := by
    intro a b
    rw [compare_eq_iff, same_iff]
  have hother : ∀ a b : Declaration, a.same b = false ↔ a.compare b ≠ .eq := by
    intro a b
    rw [Ne, heq, Bool.not_eq_true]
  refine ⟨ordersUpTo_of_eq_iff heq, fun a b => same_iff_components, ?_, ?_⟩
  · intro a b
    rw [same_iff_components, Path.components_eq_iff]
  · intro ds
    have hsorted :
        Sorted.StablySorted Declaration.compare ds (Sorted.sort Declaration.compare ds) :=
      Sorted.stablySorted_sort ds
    refine ⟨hsorted, Sorted.ofList_eq_destutter hother hsorted, ?_⟩
    intro d
    simp only [Sorted.contains_ofList_iff, heq]

example : ({ file := ⟨"/p//./a.go/"⟩, name := "f", kind := .value } : Declaration).same
    { file := ⟨"/p/a.go"⟩, name := "f" } = true := by decide

example : ({ file := ⟨"./a.go"⟩, name := "f" } : Declaration).same
    { file := ⟨"a.go"⟩, name := "f" } = false := by decide

end Declaration

end GoReach
