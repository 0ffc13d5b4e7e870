import Mathlib.Tactic.Lemma
import GoReach.Go.SourceFile

/-!
# The orders of paths, declarations and imports

Every comparison of this library is a total order on what it looks at: swapping the sides swaps the
answer, and it is transitive (`Std.TransCmp`).  What two values have to share for a comparison to
call them equal is said for each of them.

* Paths compare by their components, so two spellings of one path are equal
  (`Path.compare_eq_iff`).
* Declarations compare by file and name, so `Declaration.compare` calls equal exactly what
  `Declaration.same` calls the same (`Declaration.compare_eq_iff`).
-/

namespace GoReach

open Std (TransCmp OrientedCmp LawfulEqCmp)

/-- Looking at values through a function keeps an order an order. -/
lemma transCmp_comap {α β : Type} {cmp : α → α → Ordering} [TransCmp cmp] (f : β → α) :
    TransCmp fun a b => cmp (f a) (f b) where
  eq_swap := OrientedCmp.eq_swap
  isLE_trans := TransCmp.isLE_trans

/-- Texts compare equal exactly if they are equal. -/
lemma compareOfLessAndEq_eq_iff {s t : String} : compareOfLessAndEq s t = .eq ↔ s = t :=
  compareOfLessAndEq_eq_eq String.le_refl String.not_le

/-! ## Paths -/

namespace Path

/-- Components compare by their ranks; only names have a rank in common. -/
lemma Component.compare_eq_compareLex : Component.compare =
    compareLex (compareOn Component.rank) (compareOn fun c => c.name?.getD "") := by
  funext a b
  cases a <;> cases b <;> rfl

instance : TransCmp Component.compare := by
  rw [Component.compare_eq_compareLex]
  infer_instance

instance : LawfulEqCmp Component.compare where
  compare_self := Std.ReflCmp.compare_self
  eq_of_compare {a b} h := by
    cases a with
    | name s =>
        cases b with
        | name t => rw [compareOfLessAndEq_eq_iff.1 h]
        | _ => cases h
    | _ => cases b <;> first | rfl | cases h

/-- Lists of components compare like words in a dictionary. -/
lemma compareComponents_eq_compareLex (as bs : List Component) :
    compareComponents as bs = List.compareLex Component.compare as bs := by
  induction as generalizing bs with
  | nil => cases bs <;> rfl
  | cons a as ih =>
      cases bs with
      | nil => rfl
      | cons b bs =>
          rw [compareComponents, List.compareLex_cons_cons, ih]

instance : TransCmp compareComponents := by
  have h : compareComponents = List.compareLex Component.compare :=
    funext fun as => funext fun bs => compareComponents_eq_compareLex as bs
  rw [h]
  infer_instance

instance : TransCmp Path.compare := transCmp_comap components

/-- Two paths compare equal exactly if they are spellings of one path. -/
lemma compare_eq_iff {p q : Path} : p.compare q = .eq ↔ p.components = q.components := by
  rw [compare, compareComponents_eq_compareLex]
  exact LawfulEqCmp.compare_eq_iff_eq

end Path

/-! ## Declarations -/

namespace Declaration

instance : TransCmp Declaration.compare := by
  have hfile : TransCmp fun a b : Declaration => a.file.compare b.file := transCmp_comap file
  exact inferInstanceAs
    (TransCmp (compareLex (fun a b : Declaration => a.file.compare b.file) (compareOn name)))

@[simp] lemma same_iff {a b : Declaration} : a.same b = true ↔ a.key = b.key :=
  beq_iff_eq

lemma same_symm {a b : Declaration} (h : a.same b) : b.same a :=
  same_iff.2 (same_iff.1 h).symm

lemma same_trans {a b c : Declaration} (hab : a.same b) (hbc : b.same c) : a.same c :=
  same_iff.2 ((same_iff.1 hab).trans (same_iff.1 hbc))

/-- Two declarations compare equal exactly if they are the same one. -/
lemma compare_eq_iff {a b : Declaration} : a.compare b = .eq ↔ a.key = b.key := by
  rw [compare, Ordering.then_eq_eq, Path.compare_eq_iff, compareOfLessAndEq_eq_iff, key, key,
    Key.mk.injEq]

end Declaration

/-! ## Names and imports -/

namespace Go.SourceFile

instance : TransCmp compareNames :=
  inferInstanceAs (TransCmp (compareOn Declaration.name))

lemma compareNames_eq_iff {a b : Declaration} : compareNames a b = .eq ↔ a.name = b.name :=
  compareOfLessAndEq_eq_iff

end Go.SourceFile

namespace Import

instance : TransCmp Import.compare :=
  inferInstanceAs (TransCmp (compareLex (compareOn name) (compareOn path)))

/-- Of two imports by one name, that with the lesser path comes first. -/
lemma path_le_of_compare_lt {i j : Import} (h : i.compare j = .lt) (hname : i.name = j.name) :
    i.path ≤ j.path := by
  rcases Ordering.then_eq_lt.1 h with h | ⟨_, h⟩
  · rw [compareOfLessAndEq_eq_iff.2 hname] at h
    cases h
  · exact String.not_lt.1 (String.lt_asymm (compareOfLessAndEq_eq_lt.1 h))

end Import

end GoReach
