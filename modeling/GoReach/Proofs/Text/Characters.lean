import Mathlib.Data.List.TakeWhile
import GoReach.Text.Letter

/-!
# Classes of characters

Texts are read stretch by stretch, each of characters of one class.  Where such a stretch ends is
said once for all classes (`takeWhile_dropWhile_iff`).

A class is a table of ranges, which is searched by halving.  In a table whose ranges ascend
(`CharSet.Ascending`), that finds a range exactly if one of them holds the code point
(`contains_iff`): whatever is found does (`exists_of_search`), and a range that holds it is never in
the half that is left out (`search_of_getElem?`).
-/

namespace GoReach.Text

/-- A list is cut before the first element that is not of the class. -/
lemma takeWhile_dropWhile_iff {α : Type} {p : α → Bool} {as before after : List α} :
    (as.takeWhile p = before ∧ as.dropWhile p = after) ↔
      as = before ++ after ∧ (∀ a ∈ before, p a = true) ∧
        ∀ a, after.head? = some a → p a = false := by
  constructor
  · rintro ⟨rfl, rfl⟩
    refine ⟨List.takeWhile_append_dropWhile.symm, fun a ha => List.mem_takeWhile_imp ha,
      fun a ha => ?_⟩
    have hhead := List.head?_dropWhile_not p as
    rw [ha] at hhead
    exact hhead
  · rintro ⟨rfl, hbefore, hafter⟩
    rw [List.takeWhile_append_of_pos hbefore, List.dropWhile_append_of_pos hbefore]
    cases after with
    | nil => simp
    | cons a after => simp [hafter a rfl]

namespace CharSet

/-- One of the ranges holds the character. -/
def Holds (s : CharSet) (c : Char) : Prop :=
  ∃ r ∈ s.ranges.toList, r.1 ≤ c.toNat ∧ c.toNat ≤ r.2

instance (s : CharSet) (c : Char) : Decidable (s.Holds c) :=
  inferInstanceAs (Decidable (∃ r ∈ s.ranges.toList, _))

/-- Every range begins after the end of the one before it. -/
structure Ascending (s : CharSet) : Prop where
  ordered : ∀ r ∈ s.ranges.toList, r.1 ≤ r.2
  apart : s.ranges.toList.Pairwise fun r r' => r.2 < r'.1

variable {ranges : Array (Nat × Nat)} {code lo hi : Nat}

/-- A range that is found holds the code point. -/
lemma exists_of_search (h : search ranges code lo hi = true) :
    ∃ r ∈ ranges.toList, r.1 ≤ code ∧ code ≤ r.2 := by
  fun_induction search ranges code lo hi with
  | case1 lo hi hlt mid hmid => cases h
  | case2 lo hi hlt mid first last hmid hbelow ih => exact ih h
  | case3 lo hi hlt mid first last hmid hbelow habove ih => exact ih h
  | case4 lo hi hlt mid first last hmid hbelow habove =>
      exact ⟨(first, last), Array.mem_toList_iff.2 (Array.mem_of_getElem? hmid), by omega, by omega⟩
  | case5 => cases h

/-- Later ranges begin later and end later. -/
lemma Ascending.mono {s : CharSet} (h : s.Ascending) {i j : Nat} {r r' : Nat × Nat}
    (hr : s.ranges[i]? = some r) (hr' : s.ranges[j]? = some r') (hij : i ≤ j) :
    r.1 ≤ r'.1 ∧ r.2 ≤ r'.2 := by
  rw [← Array.getElem?_toList] at hr hr'
  obtain ⟨hi, rfl⟩ := List.getElem?_eq_some_iff.1 hr
  obtain ⟨hj, rfl⟩ := List.getElem?_eq_some_iff.1 hr'
  rcases Nat.lt_or_eq_of_le hij with hlt | rfl
  · have hgap := List.pairwise_iff_getElem.1 h.apart i j hi hj hlt
    have hordered := h.ordered _ (List.getElem_mem hi)
    have hordered' := h.ordered _ (List.getElem_mem hj)
    omega
  · exact ⟨Nat.le_refl _, Nat.le_refl _⟩

/-- In an ascending table, the range that holds the code point is found. -/
lemma search_of_getElem? {s : CharSet} (h : s.Ascending) {i : Nat} {r : Nat × Nat}
    (hr : s.ranges[i]? = some r) (hcode : r.1 ≤ code ∧ code ≤ r.2) (hlo : lo ≤ i) (hhi : i < hi)
    (hsize : hi ≤ s.ranges.size) : search s.ranges code lo hi = true := by
  fun_induction search s.ranges code lo hi with
  | case1 lo hi hlt mid hmid =>
      rw [Array.getElem?_eq_none_iff] at hmid
      omega
  | case2 lo hi hlt mid first last hmid hbelow ih =>
      -- the code point lies before the range in the middle, and so does the range that holds it
      have hleft : i < mid := Nat.lt_of_not_le fun hmi => by
        have hfirst : first ≤ r.1 := (h.mono hmid hr hmi).1
        omega
      exact ih hlo hleft (by omega)
  | case3 lo hi hlt mid first last hmid hbelow habove ih =>
      have hright : mid < i := Nat.lt_of_not_le fun him => by
        have hlast : r.2 ≤ last := (h.mono hr hmid him).2
        omega
      exact ih hright hhi hsize
  | case4 => rfl
  | case5 => omega

lemma contains_iff {s : CharSet} (h : s.Ascending) {c : Char} :
    s.contains c = true ↔ s.Holds c := by
  refine ⟨exists_of_search, ?_⟩
  rintro ⟨r, hr, hcode⟩
  obtain ⟨i, hi⟩ := List.mem_iff_getElem?.1 hr
  rw [Array.getElem?_toList] at hi
  have hsize : i < s.ranges.size := (Array.getElem?_eq_some_iff.1 hi).1
  exact search_of_getElem? h hi hcode (Nat.zero_le i) hsize (Nat.le_refl _)

end CharSet

/-- The character has the property White_Space. -/
def WhiteSpace (c : Char) : Prop := blank.Holds c

instance (c : Char) : Decidable (WhiteSpace c) := inferInstanceAs (Decidable (blank.Holds c))

lemma ascending_blank : blank.Ascending where
  ordered := by decide
  apart := by decide

@[simp] lemma isBlank_iff {c : Char} : isBlank c = true ↔ WhiteSpace c :=
  CharSet.contains_iff ascending_blank

@[simp] lemma isBlank_eq_false_iff {c : Char} : isBlank c = false ↔ ¬ WhiteSpace c := by
  rw [← Bool.not_eq_true, isBlank_iff]

end GoReach.Text
