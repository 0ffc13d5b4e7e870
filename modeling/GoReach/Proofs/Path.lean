import Mathlib.Tactic.Lemma
import Mathlib.Data.String.Basic
import GoReach.Path.Basic

/-!
# The components of joined paths

A slash in a text separates what stands before it from what stands after it (`segments_append`), so
a path within a directory has the components of the directory and then its own.  That is said here
for the names of entries, which are one component each (`components_join`).
-/

namespace GoReach.Path

/-- Paths that are written alike are the same path. -/
lemma text_injective {p q : Path} (h : p.text = q.text) : p = q := by
  cases p
  cases q
  exact congrArg Path.mk h

/-- A name that is one component of a path. -/
structure Plain (name : String) : Prop where
  ne_empty : name ≠ ""
  ne_dot : name ≠ "."
  ne_parent : name ≠ ".."
  no_slash : '/' ∉ name.toList

lemma plain_iff {name : String} :
    Plain name ↔ name ≠ "" ∧ name ≠ "." ∧ name ≠ ".." ∧ '/' ∉ name.toList :=
  ⟨fun h => ⟨h.ne_empty, h.ne_dot, h.ne_parent, h.no_slash⟩,
    fun h => ⟨h.1, h.2.1, h.2.2.1, h.2.2.2⟩⟩

instance (name : String) : Decidable (Plain name) := decidable_of_iff _ plain_iff.symm

/-! ## Segments -/

lemma segments_ne_nil (cs : List Char) : segments cs ≠ [] := by
  cases cs with
  | nil => exact nofun
  | cons c cs =>
      rw [segments]
      split
      · exact nofun
      · split
        · exact nofun
        · exact nofun

/-- A slash separates the segments before it from those after it. -/
lemma segments_append (as bs : List Char) :
    segments (as ++ '/' :: bs) = segments as ++ segments bs := by
  induction as with
  | nil => rfl
  | cons c as ih =>
      rw [List.cons_append, segments, segments]
      by_cases hc : c = '/'
      · rw [if_pos hc, if_pos hc, ih, List.cons_append]
      · rw [if_neg hc, if_neg hc, ih]
        cases has : segments as with
        | nil => exact absurd has (segments_ne_nil as)
        | cons s more => rfl

/-- Without a slash there is only one segment. -/
lemma segments_of_no_slash {cs : List Char} (h : '/' ∉ cs) : segments cs = [cs] := by
  induction cs with
  | nil => rfl
  | cons c cs ih =>
      rw [List.mem_cons, not_or] at h
      rw [segments, if_neg (Ne.symm h.1), ih h.2]

/-- A plain name is a component as it is. -/
lemma component?_of_plain {name : String} (h : Plain name) :
    component? name.toList = some (.name name) := by
  have hempty : name.toList ≠ [] := fun heq => h.ne_empty (String.toList_eq_nil_iff.1 heq)
  have hdot : name.toList ≠ ['.'] := fun heq => h.ne_dot (String.toList_injective heq)
  have hparent : name.toList ≠ ['.', '.'] := fun heq => h.ne_parent (String.toList_injective heq)
  simp [component?, isVoid, hempty, hdot, hparent]

/-! ## Components -/

/-- The start of a path stays the start of what is within it. -/
lemma partsOf_append {as : List Char} (has : as ≠ []) (bs : List Char) :
    partsOf (as ++ '/' :: bs) = ⟨(partsOf as).anchor, (partsOf as).body ++ segments bs⟩ := by
  fun_cases partsOf as with
  | case1 rest => rw [List.cons_append, partsOf, segments_append]
  | case2 => rfl
  | case3 rest => rw [List.cons_append, List.cons_append, partsOf, segments_append]; rfl
  | case4 _ hroot hdot hcurrent =>
      obtain ⟨c, as, rfl⟩ := List.exists_cons_of_ne_nil has
      have hc : c ≠ '/' := fun hc => hroot as (hc ▸ rfl)
      rw [partsOf.eq_4, segments_append]
      · rintro rest ⟨⟩
        exact hc rfl
      · cases as with
        | nil => exact nofun
        | cons d as => exact nofun
      · cases as with
        | nil =>
            rintro rest ⟨⟩
            exact hdot rfl
        | cons d as =>
            rintro rest ⟨⟩
            exact hcurrent as rfl

/-- What stands after a slash adds its segments to the components. -/
lemma components_append_slash (as bs : List Char) :
    components ⟨String.ofList (as ++ '/' :: bs)⟩
      = components ⟨String.ofList (as ++ ['/'])⟩ ++ (segments bs).filterMap component? := by
  have hnil : (segments []).filterMap component? = [] := rfl
  rw [components, components, parts, parts, String.toList_ofList, String.toList_ofList]
  cases as with
  | nil => simp [partsOf, hnil]
  | cons c as =>
      rw [partsOf_append (List.cons_ne_nil c as), partsOf_append (List.cons_ne_nil c as)]
      simp [hnil]

/-- A slash at the end adds no component. -/
lemma components_slash {as : List Char} (has : as ≠ []) :
    components ⟨String.ofList (as ++ ['/'])⟩ = components ⟨String.ofList as⟩ := by
  have hnil : (segments []).filterMap component? = [] := rfl
  rw [components, components, parts, parts, String.toList_ofList, String.toList_ofList,
    partsOf_append has]
  simp [hnil]

/-- A plain name is a relative path with one component. -/
lemma components_of_plain {name : String} (h : Plain name) :
    components ⟨name⟩ = [.name name] := by
  have hdot : name.toList ≠ ['.'] := fun heq => h.ne_dot (String.toList_injective heq)
  have hparts : partsOf name.toList = ⟨none, [name.toList]⟩ := by
    have hslash := h.no_slash
    rw [← segments_of_no_slash hslash]
    generalize name.toList = cs at hdot hslash
    fun_cases partsOf cs with
    | case1 rest => exact absurd List.mem_cons_self hslash
    | case2 => exact absurd rfl hdot
    | case3 rest => exact absurd (List.mem_cons_of_mem _ List.mem_cons_self) hslash
    | case4 => rfl
  rw [components, parts, hparts]
  simp [component?_of_plain h]

lemma isAbsolute_of_plain {name : String} (h : Plain name) : isAbsolute ⟨name⟩ = false := by
  rw [isAbsolute, beq_eq_false_iff_ne]
  exact fun hhead => h.no_slash (List.mem_of_mem_head? hhead)

/-- An entry of a directory has the components of the directory and its own name. -/
lemma components_join (base : Path) {name : String} (h : Plain name) :
    (base.join ⟨name⟩).components = base.components ++ [.name name] := by
  have hsegments : (segments name.toList).filterMap component? = [.name name] := by
    rw [segments_of_no_slash h.no_slash]
    simp [component?_of_plain h]
  obtain ⟨text⟩ := base
  rw [join, isAbsolute_of_plain h, Bool.false_or]
  by_cases hempty : text.isEmpty = true
  · rw [if_pos hempty, String.isEmpty_iff.1 hempty, components_of_plain h]
    rfl
  · have htext : text.toList ≠ [] := by simpa [String.isEmpty_iff] using hempty
    rw [if_neg hempty]
    split
    next hlast =>
      obtain ⟨as, has⟩ := List.getLast?_eq_some_iff.1 (beq_iff_eq.1 hlast)
      have htext : text = String.ofList (as ++ ['/']) := by rw [← has, String.ofList_toList]
      have hjoined : text ++ name = String.ofList (as ++ '/' :: name.toList) := by
        rw [← String.toList_inj]
        simp [has]
      rw [hjoined, components_append_slash, hsegments, ← htext]
    next =>
      have hjoined : text ++ "/" ++ name = String.ofList (text.toList ++ '/' :: name.toList) := by
        rw [← String.toList_inj]
        simp
      rw [hjoined, components_append_slash, hsegments, components_slash htext,
        String.ofList_toList]

/-- What is joined to a directory lies in it. -/
lemma prefix_components_join (base : Path) {name : String} (h : Plain name) :
    base.components ++ [.name name] <+: (base.join ⟨name⟩).components :=
  ⟨[], by rw [List.append_nil, components_join base h]⟩

end GoReach.Path
