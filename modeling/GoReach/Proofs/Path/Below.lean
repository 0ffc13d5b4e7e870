import GoReach.Module
import GoReach.Proofs.Path

/-!
# The rest of a path

What is below a path is cut out of the text segment by segment, and put together again.  On the way
segments are left out that are no components.  None of that changes the components that remain
(`components_below?`), because segments can be read back from the text they make
(`segments_joinSegments`), and because a text that begins with a component is not mistaken for one
that begins at the root or with a dot (`partsOf_of_segments`).

So the module of a file depends on what its path means, and not on how it is spelled
(`Module.ofFile_of_components`).  A file has a module exactly if it lies below the root.
-/

namespace GoReach

namespace Path

/-! ## Segments and the text they make -/

lemma no_slash_of_mem_segments {cs s : List Char} (h : s ∈ segments cs) : '/' ∉ s := by
  induction cs generalizing s with
  | nil =>
      rw [segments, List.mem_singleton] at h
      simp [h]
  | cons c cs ih =>
      rw [segments] at h
      split at h
      · rcases List.mem_cons.1 h with rfl | h
        · exact List.not_mem_nil
        · exact ih h
      next hc =>
        split at h
        next first more heq =>
          have hfirst : '/' ∉ first := ih (heq ▸ List.mem_cons_self)
          rcases List.mem_cons.1 h with rfl | h
          · exact List.not_mem_cons_of_ne_of_not_mem (Ne.symm hc) hfirst
          · exact ih (heq ▸ List.mem_cons_of_mem first h)
        next heq => exact absurd heq (segments_ne_nil cs)

/-- Segments without slashes can be read back. -/
lemma segments_joinSegments {body : List (List Char)} (hne : body ≠ [])
    (hslash : ∀ s ∈ body, '/' ∉ s) : segments (joinSegments body) = body := by
  induction body using joinSegments.induct with
  | case1 => exact absurd rfl hne
  | case2 s => exact segments_of_no_slash (hslash s List.mem_cons_self)
  | case3 s t rest ih =>
      rw [List.forall_mem_cons] at hslash
      rw [joinSegments, segments_append, segments_of_no_slash hslash.1,
        ih (List.cons_ne_nil t rest) hslash.2, List.singleton_append]

/-! ## Segments that are no components -/

/-- Void segments are no components. -/
lemma component?_eq_none_iff {s : List Char} : component? s = none ↔ isVoid s = true := by
  rw [component?]
  cases isVoid s with
  | true => simp
  | false => by_cases hs : s = ['.', '.'] <;> simp [hs]

/-- Joining and splitting keeps the components. -/
lemma filterMap_segments_joinSegments {body : List (List Char)} (hslash : ∀ s ∈ body, '/' ∉ s) :
    (segments (joinSegments body)).filterMap component? = body.filterMap component? := by
  cases body with
  | nil => rfl
  | cons s rest => rw [segments_joinSegments (List.cons_ne_nil s rest) hslash]

/-- Void segments at the beginning may be dropped, ... -/
lemma filterMap_dropWhile_isVoid (body : List (List Char)) :
    (body.dropWhile isVoid).filterMap component? = body.filterMap component? := by
  induction body with
  | nil => rfl
  | cons s rest ih =>
      cases hs : isVoid s with
      | false => rw [List.dropWhile_cons_of_neg (by simp [hs])]
      | true =>
          rw [List.dropWhile_cons_of_pos hs, ih,
            List.filterMap_cons_none (component?_eq_none_iff.2 hs)]

/-- ... and so may those at the end. -/
lemma filterMap_trimEnd (body : List (List Char)) :
    (trimEnd body).filterMap component? = body.filterMap component? := by
  rw [trimEnd, List.filterMap_reverse, filterMap_dropWhile_isVoid, List.filterMap_reverse,
    List.reverse_reverse]

/-- Dropping components drops void segments before them as well. -/
lemma filterMap_dropComponents (n : Nat) (body : List (List Char)) :
    (dropComponents n body).filterMap component? = (body.filterMap component?).drop n := by
  fun_induction dropComponents n body with
  | case1 body => rfl
  | case2 n => rfl
  | case3 n s rest hs ih =>
      rw [ih, List.filterMap_cons_none (component?_eq_none_iff.2 hs)]
  | case4 n s rest hs ih =>
      obtain ⟨c, hc⟩ := Option.ne_none_iff_exists'.1 (mt component?_eq_none_iff.1 hs)
      rw [ih, List.filterMap_cons_some hc, List.drop_succ_cons]

lemma prefix_trimEnd (body : List (List Char)) : trimEnd body <+: body := by
  rw [trimEnd, ← List.reverse_suffix, List.reverse_reverse]
  exact List.dropWhile_suffix isVoid

lemma suffix_dropComponents (n : Nat) (body : List (List Char)) :
    dropComponents n body <:+ body := by
  fun_induction dropComponents n body with
  | case1 body => exact List.suffix_rfl
  | case2 n => exact List.suffix_rfl
  | case3 n s rest hs ih => exact ih.trans (List.suffix_cons s rest)
  | case4 n s rest hs ih => exact ih.trans (List.suffix_cons s rest)

/-! ## Paths from segments -/

/-- A text whose first segment is a component is relative, and does not begin with a dot. -/
lemma partsOf_of_segments {cs s : List Char} {rest : List (List Char)}
    (h : segments cs = s :: rest) (hs : isVoid s = false) : partsOf cs = ⟨none, segments cs⟩ := by
  fun_cases partsOf cs with
  | case1 after =>
      have hempty : s = [] := (List.cons.inj h).1.symm
      rw [hempty] at hs
      cases hs
  | case2 =>
      have hdot : s = ['.'] := (List.cons.inj h).1.symm
      rw [hdot] at hs
      cases hs
  | case3 after =>
      have hdot : s = ['.'] := (List.cons.inj h).1.symm
      rw [hdot] at hs
      cases hs
  | case4 => rfl

/-- What is left begins as before. -/
lemma head_of_trimEnd {body rest : List (List Char)} {s : List Char}
    (h : trimEnd body = s :: rest) : ∃ more, body = s :: more := by
  obtain ⟨after, hafter⟩ := prefix_trimEnd body
  rw [h] at hafter
  exact ⟨rest ++ after, hafter.symm⟩

/-- Segments of which the first is a component make a relative path of just these components. -/
lemma components_joinSegments {body : List (List Char)} (hslash : ∀ s ∈ body, '/' ∉ s)
    (hhead : ∀ s more, body = s :: more → isVoid s = false) :
    components ⟨String.ofList (joinSegments body)⟩ = body.filterMap component? := by
  rw [components, parts, String.toList_ofList]
  cases body with
  | nil => rfl
  | cons s more =>
      have hsegments := segments_joinSegments (List.cons_ne_nil s more) hslash
      rw [partsOf_of_segments hsegments (hhead s more rfl), hsegments]
      rfl

/-- A text that begins with an empty segment is empty or begins with a slash. -/
lemma eq_of_segments_nil {cs : List Char} {more : List (List Char)}
    (h : segments cs = [] :: more) : cs = [] ∨ ∃ rest, cs = '/' :: rest := by
  cases cs with
  | nil => exact Or.inl rfl
  | cons c cs =>
      by_cases hc : c = '/'
      · exact Or.inr ⟨cs, by rw [hc]⟩
      · rw [segments, if_neg hc] at h
        split at h <;> simp at h

/-- A relative path that does not begin with a dot begins with a component, unless it is empty. -/
lemma isVoid_of_relative {cs s : List Char} {more : List (List Char)}
    (h : segments cs = s :: more) (hcs : cs ≠ []) (hroot : ∀ rest, cs ≠ '/' :: rest)
    (hdot : cs ≠ ['.']) (hcurrent : ∀ rest, cs ≠ '.' :: '/' :: rest) : isVoid s = false := by
  obtain ⟨c, rest, rfl⟩ := List.exists_cons_of_ne_nil hcs
  have hc : c ≠ '/' := fun hc => hroot rest (hc ▸ rfl)
  obtain ⟨first, others, hrest⟩ := List.exists_cons_of_ne_nil (segments_ne_nil rest)
  rw [segments, if_neg hc, hrest] at h
  obtain rfl : c :: first = s := (List.cons.inj h).1
  rw [Bool.eq_false_iff]
  intro hvoid
  -- a segment that is no component is a single dot, and then nothing or a slash comes after it
  obtain ⟨rfl, rfl⟩ : c = '.' ∧ first = [] := by simpa [isVoid] using hvoid
  rcases eq_of_segments_nil hrest with rfl | ⟨after, rfl⟩
  · exact hdot rfl
  · exact hcurrent after rfl

/-- There are no slashes within segments. -/
lemma no_slash_of_mem_body {cs s : List Char} (h : s ∈ (partsOf cs).body) : '/' ∉ s := by
  revert h
  fun_cases partsOf cs with
  | case1 rest => exact no_slash_of_mem_segments
  | case2 =>
      intro h
      rw [List.mem_singleton.1 h]
      exact List.not_mem_nil
  | case3 rest =>
      intro h
      rcases List.mem_cons.1 h with rfl | h
      · exact List.not_mem_nil
      · exact no_slash_of_mem_segments h
  | case4 => exact no_slash_of_mem_segments

lemma name_not_mem_anchor (cs : List Char) (name : String) :
    .name name ∉ (partsOf cs).anchor.toList := by
  fun_cases partsOf cs <;> simp

/-- A name is written as it is. -/
lemma eq_of_component? {s : List Char} {name : String} (h : component? s = some (.name name)) :
    s = name.toList := by
  unfold component? at h
  split at h
  · cases h
  · split at h
    · cases h
    · rw [← Component.name.inj (Option.some.inj h), String.toList_ofList]

/-- A component that is a name stands between slashes. -/
lemma no_slash_of_mem_components {p : Path} {name : String} (h : .name name ∈ p.components) :
    '/' ∉ name.toList := by
  rw [components, List.mem_append, parts, or_iff_right (name_not_mem_anchor _ name)] at h
  obtain ⟨s, hs, hcomponent⟩ := List.mem_filterMap.1 h
  rw [← eq_of_component? hcomponent]
  exact no_slash_of_mem_body hs

/-- Leaving out what is no component at the end of a path does not change its components. -/
lemma components_trimEnd (cs : List Char) :
    components ⟨String.ofList
        (anchorText (partsOf cs).anchor ++ joinSegments (trimEnd (partsOf cs).body))⟩
      = (partsOf cs).anchor.toList ++ (partsOf cs).body.filterMap component? := by
  have hslash : ∀ s ∈ trimEnd (partsOf cs).body, '/' ∉ s :=
    fun s hs => no_slash_of_mem_body ((prefix_trimEnd _).subset hs)
  rw [← filterMap_trimEnd, ← filterMap_segments_joinSegments hslash]
  revert hslash
  fun_cases partsOf cs with
  | case1 rest =>
      intro _
      rw [components, parts, String.toList_ofList]
      rfl
  | case2 => exact fun _ => rfl
  | case3 rest =>
      intro hslash
      rw [components, parts, String.toList_ofList]
      cases hbody : trimEnd ([] :: segments rest) with
      | nil => rfl
      | cons s more =>
          obtain ⟨others, hothers⟩ := head_of_trimEnd hbody
          obtain rfl : [] = s := (List.cons.inj hothers).1
          cases more with
          | nil => rfl
          | cons t more => rfl
  | case4 _ hroot hdot hcurrent =>
      intro hslash
      rw [filterMap_segments_joinSegments hslash]
      refine components_joinSegments hslash fun s more hbody => ?_
      obtain ⟨others, hothers⟩ := head_of_trimEnd hbody
      refine isVoid_of_relative hothers ?_ (fun r h => hroot r h) hdot (fun r h => hcurrent r h)
      rintro rfl
      cases hbody

/-- Leaving out segments up to a component leaves the components after it. -/
lemma components_dropComponents (cs : List Char) (n : Nat) :
    components ⟨String.ofList
        (joinSegments (trimEnd ((dropComponents n (partsOf cs).body).dropWhile isVoid)))⟩
      = ((partsOf cs).body.filterMap component?).drop n := by
  rw [← filterMap_dropComponents, ← filterMap_dropWhile_isVoid, ← filterMap_trimEnd]
  refine components_joinSegments (fun s hs => ?_) fun s more hbody => ?_
  · exact no_slash_of_mem_body ((suffix_dropComponents _ _).subset
      ((List.dropWhile_suffix isVoid).subset ((prefix_trimEnd _).subset hs)))
  · obtain ⟨others, hothers⟩ := head_of_trimEnd hbody
    have hfirst := List.head?_dropWhile_not isVoid (dropComponents n (partsOf cs).body)
    rw [hothers] at hfirst
    simpa using hfirst

/-- What is below a path has the components that come after those of the path. -/
lemma components_below? {p base q : Path} (h : p.below? base = some q) :
    q.components = p.components.drop base.components.length := by
  rw [below?] at h
  split at h
  next =>
    rw [← Option.some.inj h]
    split
    next hempty =>
      rw [List.isEmpty_iff.1 hempty]
      exact components_trimEnd p.text.toList
    next hne =>
      have hlong : p.parts.anchor.toList.length ≤ base.components.length := by
        have hpos := List.length_pos_iff.2 (mt List.isEmpty_iff.2 hne)
        cases p.parts.anchor with
        | none => exact Nat.zero_le _
        | some c => exact hpos
      rw [components.eq_1 p, List.drop_append, List.drop_eq_nil_of_le hlong, List.nil_append]
      exact components_dropComponents p.text.toList _
  next => cases h

lemma suffix_joinSegments (body : List (List Char)) (s : List Char) :
    s <:+ joinSegments (body ++ [s]) := by
  fun_induction joinSegments body with
  | case1 => exact List.suffix_rfl
  | case2 t => exact (List.suffix_cons '/' s).trans (List.suffix_append t _)
  | case3 t u rest ih =>
      rw [List.cons_append, List.cons_append, joinSegments]
      exact (ih.trans (List.suffix_cons '/' _)).trans (List.suffix_append t _)

/-- What makes a path whose last component is a name ends with the name, once what is no component
is left out at its end. -/
lemma suffix_trimEnd {body : List (List Char)} {name : String}
    (h : (body.filterMap component?).getLast? = some (.name name)) :
    name.toList <:+ joinSegments (trimEnd body) := by
  rw [← filterMap_trimEnd] at h
  have hhead := List.head?_dropWhile_not isVoid body.reverse
  rw [trimEnd] at h ⊢
  generalize body.reverse.dropWhile isVoid = rest at h hhead
  cases rest with
  | nil => cases h
  | cons s more =>
      have hs : component? s ≠ none := mt component?_eq_none_iff.1 (by simpa using hhead)
      obtain ⟨c, hc⟩ := Option.ne_none_iff_exists'.1 hs
      obtain rfl : c = .name name := by simpa [List.filterMap_append, hc] using h
      rw [List.reverse_cons, eq_of_component? hc]
      exact suffix_joinSegments more.reverse name.toList

/-- The text of what is below a path ends with its last component. -/
lemma suffix_text_below? {p base q : Path} {name : String} (h : p.below? base = some q)
    (hlast : q.components.getLast? = some (.name name)) : name.toList <:+ q.text.toList := by
  rw [below?] at h
  split at h
  next =>
    obtain rfl := Option.some.inj h
    rw [String.toList_ofList]
    split at hlast
    next hempty =>
      rw [if_pos hempty]
      rw [parts, components_trimEnd, List.getLast?_append, Option.or_eq_some_iff] at hlast
      rcases hlast with hlast | ⟨-, hlast⟩
      · exact (suffix_trimEnd hlast).trans (List.suffix_append _ _)
      · exact absurd (List.mem_of_getLast? hlast) (name_not_mem_anchor _ name)
    next hne =>
      rw [if_neg hne]
      rw [parts, components_dropComponents, ← filterMap_dropComponents,
        ← filterMap_dropWhile_isVoid]
        at hlast
      exact suffix_trimEnd hlast
  next => cases h

/-- A path lies below another exactly if its components begin with those of the other. -/
lemma exists_below?_iff {p base : Path} :
    (∃ q, p.below? base = some q) ↔ base.components <+: p.components := by
  rw [below?, ← List.isPrefixOf_iff_prefix]
  by_cases h : base.components.isPrefixOf p.components = true
  · simp [h]
  · simp [h]

/-- What is left of a path are the components after those of the root. -/
lemma components_eq_of_below? {root file p : Path} (hp : file.below? root = some p) :
    file.components = root.components ++ p.components := by
  rw [components_below? hp, List.prefix_iff_eq_append.1 (exists_below?_iff.1 ⟨p, hp⟩)]

end Path

/-! ## Modules of files -/

namespace Module

variable {root : Path} {rootModule : String}

/-- The module of a file is named by the directory, as seen from the root. -/
lemma ofFile_eq_ok_iff {file : Path} {module : String} :
    ofFile root rootModule file = .ok module ↔
      ∃ p, file.below? root = some p ∧ nameBelow rootModule p.directory = module := by
  rw [ofFile, relativePath]
  cases file.below? root with
  | none => simp [Except.map]
  | some p => simp [Except.map]

/-- A file belongs to a module exactly if it lies below the root. -/
lemma exists_ofFile_iff {file : Path} :
    (∃ module, ofFile root rootModule file = .ok module) ↔
      root.components <+: file.components := by
  simp only [ofFile_eq_ok_iff, ← Path.exists_below?_iff]
  constructor
  · rintro ⟨module, p, hp, -⟩
    exact ⟨p, hp⟩
  · rintro ⟨p, hp⟩
    exact ⟨_, p, hp, rfl⟩

/-- Two spellings of one path belong to the same module. -/
lemma ofFile_of_components {p q : Path} {module : String} (hsame : p.components = q.components)
    (h : ofFile root rootModule p = .ok module) : ofFile root rootModule q = .ok module := by
  obtain ⟨p', hp, hname⟩ := ofFile_eq_ok_iff.1 h
  obtain ⟨q', hq⟩ : ∃ q', q.below? root = some q' :=
    Path.exists_below?_iff.2 (hsame ▸ Path.exists_below?_iff.1 ⟨p', hp⟩)
  refine ofFile_eq_ok_iff.2 ⟨q', hq, ?_⟩
  rw [← hname, Path.directory, Path.directory, Path.components_below? hp,
    Path.components_below? hq, hsame]

end Module

end GoReach
