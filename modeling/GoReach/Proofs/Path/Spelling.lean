import Mathlib.Logic.Relation
import GoReach.Proofs.Path.Below

/-!
# Spellings of a path

Some slashes and dots of a text make no difference to the path that it spells: a slash after a
slash, a slash at the end, and a dot that is a segment but not the first one.  `Simplifies` leaves
out one of them.  It says nothing of components; it is about the text alone.

Nothing but that is ignored: two texts spell one path exactly if they become the same text when such
slashes and dots are left out (`components_eq_iff`).  For that every text is brought into the one
spelling that its components have (`simplifies_spelling`): going through the segments from left to
right, those that are no components can be left out one by one, because there is always a slash
before them.
-/

namespace GoReach.Path

open Relation (ReflTransGen Join)

/-- The second text is the first one without a slash or a dot that makes no difference. -/
inductive Simplifies : List Char → List Char → Prop where
  /-- A slash after a slash. -/
  | slash (as bs : List Char) : Simplifies (as ++ '/' :: '/' :: bs) (as ++ '/' :: bs)
  /-- A dot between slashes. -/
  | dot (as bs : List Char) : Simplifies (as ++ '/' :: '.' :: '/' :: bs) (as ++ '/' :: bs)
  /-- A dot at the end, after a slash. -/
  | lastDot (as : List Char) : Simplifies (as ++ ['/', '.']) (as ++ ['/'])
  /-- A slash at the end, unless it is all there is. -/
  | lastSlash {as : List Char} (has : as ≠ []) : Simplifies (as ++ ['/']) as

/-- Both texts become the same one. -/
def Respelled (as bs : List Char) : Prop := Join (ReflTransGen Simplifies) as bs

/-! ## Components stay the same -/

lemma components_simplifies {as bs : List Char} (h : Simplifies as bs) :
    components ⟨String.ofList as⟩ = components ⟨String.ofList bs⟩ := by
  have hempty : component? [] = none := rfl
  have hdot : component? ['.'] = none := rfl
  cases h with
  | slash as bs =>
      rw [components_append_slash, components_append_slash as bs]
      simp [segments, hempty]
  | dot as bs =>
      have hsegments : segments ('.' :: '/' :: bs) = ['.'] :: segments bs :=
        segments_append ['.'] bs
      rw [components_append_slash, components_append_slash as bs, hsegments]
      simp [hdot]
  | lastDot as =>
      have hsegments : segments ['.'] = [['.']] := rfl
      rw [components_append_slash, hsegments]
      simp [hdot]
  | lastSlash has => exact components_slash has

lemma components_reflTransGen {as bs : List Char} (h : ReflTransGen Simplifies as bs) :
    components ⟨String.ofList as⟩ = components ⟨String.ofList bs⟩ := by
  induction h with
  | refl => rfl
  | tail _ hstep ih => rw [ih, components_simplifies hstep]

/-! ## One spelling for each path -/

/-- How a component is spelled.  The root is the slash that comes after nothing. -/
def Component.text : Component → List Char
  | .root => []
  | .current => ['.']
  | .parent => ['.', '.']
  | .name s => s.toList

/-- The shortest spelling of a path. -/
def spelling : List Component → List Char
  | [.root] => ['/']
  | cs => joinSegments (cs.map Component.text)

lemma text_of_component? {s : List Char} {c : Component} (h : component? s = some c) :
    c.text = s := by
  unfold component? at h
  split at h
  · cases h
  · split at h
    next hparent =>
      obtain rfl := Option.some.inj h
      exact (beq_iff_eq.1 hparent).symm
    next =>
      obtain rfl := Option.some.inj h
      simp [Component.text]

/-- The segments that are components, as they are spelled. -/
lemma map_text_filterMap (body : List (List Char)) :
    (body.filterMap component?).map Component.text = body.filter fun s => !isVoid s := by
  induction body with
  | nil => rfl
  | cons s body ih =>
      cases hs : component? s with
      | none =>
          have hvoid := component?_eq_none_iff.1 hs
          simp [hs, hvoid, ih]
      | some c =>
          have hvoid : isVoid s = false := by
            rw [← Bool.not_eq_true, ← component?_eq_none_iff, hs]
            simp
          simp [hs, hvoid, ih, text_of_component? hs]

lemma joinSegments_append (as s : List Char) (rest : List (List Char)) :
    joinSegments ((as ++ s) :: rest) = as ++ joinSegments (s :: rest) := by
  cases rest with
  | nil => simp [joinSegments]
  | cons t rest => simp [joinSegments]

/-- A slash after which nothing is left goes as well. -/
lemma simplifies_joinSegments {as : List Char} (has : as ≠ []) (body : List (List Char)) :
    ReflTransGen Simplifies (as ++ '/' :: joinSegments body) (joinSegments (as :: body)) := by
  cases body with
  | nil => exact .single (.lastSlash has)
  | cons s rest => exact .refl

/-- After a slash, segments that are no components are left out. -/
lemma simplifies_body (as : List Char) (body : List (List Char)) :
    ReflTransGen Simplifies (as ++ '/' :: joinSegments body)
      (as ++ '/' :: joinSegments (body.filter fun s => !isVoid s)) := by
  induction body using joinSegments.induct generalizing as with
  | case1 => exact .refl
  | case2 s =>
      cases hs : isVoid s with
      | false => simp [hs, ReflTransGen.refl]
      | true =>
          obtain rfl | rfl : s = [] ∨ s = ['.'] := by simpa [isVoid] using hs
          · exact .refl
          · exact .single (.lastDot as)
  | case3 s t rest ih =>
      cases hs : isVoid s with
      | false =>
          -- the component stays, and what comes after it is simplified behind its slash
          have hne : as ++ '/' :: s ≠ [] := by simp
          have hrest := (ih (as ++ '/' :: s)).trans (simplifies_joinSegments hne _)
          have hjoin : ∀ body, joinSegments ((as ++ '/' :: s) :: body)
              = as ++ '/' :: joinSegments (s :: body) := by
            intro body
            simpa using joinSegments_append (as ++ ['/']) s body
          rw [hjoin] at hrest
          simpa [joinSegments, hs] using hrest
      | true =>
          have hfilter : (s :: t :: rest).filter (fun s => !isVoid s)
              = (t :: rest).filter fun s => !isVoid s := by simp [hs]
          rw [hfilter]
          obtain rfl | rfl : s = [] ∨ s = ['.'] := by simpa [isVoid] using hs
          · exact (ih as).head (.slash as _)
          · exact (ih as).head (.dot as _)

/-- The same, with the slash after a text that is not empty. -/
lemma simplifies_after {as : List Char} (has : as ≠ []) (body : List (List Char)) :
    ReflTransGen Simplifies (as ++ '/' :: joinSegments body)
      (joinSegments (as :: body.filter fun s => !isVoid s)) :=
  (simplifies_body as body).trans (simplifies_joinSegments has _)

lemma joinSegments_segments (cs : List Char) : joinSegments (segments cs) = cs := by
  induction cs with
  | nil => rfl
  | cons c cs ih =>
      rw [segments]
      split
      next hc =>
        obtain ⟨s, more, hs⟩ := List.exists_cons_of_ne_nil (segments_ne_nil cs)
        rw [hs] at ih ⊢
        rw [joinSegments, ih, hc]
        rfl
      next =>
        split
        next s more hs =>
          rw [hs] at ih
          have hfirst := joinSegments_append [c] s more
          rw [ih] at hfirst
          exact hfirst
        next hs => exact absurd hs (segments_ne_nil cs)

lemma spelling_filterMap (body : List (List Char)) :
    spelling (body.filterMap component?) = joinSegments (body.filter fun s => !isVoid s) := by
  rw [spelling, map_text_filterMap]
  intro hroot
  have hmem : Component.root ∈ body.filterMap component? := by simp [hroot]
  obtain ⟨s, -, hs⟩ := List.mem_filterMap.1 hmem
  unfold component? at hs
  split at hs
  · cases hs
  · split at hs <;> cases hs

/-- Every text can be brought into the one spelling of its path. -/
lemma simplifies_spelling (cs : List Char) :
    ReflTransGen Simplifies cs (spelling (components ⟨String.ofList cs⟩)) := by
  rw [components, parts, String.toList_ofList]
  fun_cases partsOf cs with
  | case1 rest =>
      have hrest := simplifies_body [] (segments rest)
      rw [joinSegments_segments] at hrest
      have hroot : spelling (.root :: (segments rest).filterMap component?)
          = '/' :: joinSegments ((segments rest).filter fun s => !isVoid s) := by
        rw [← map_text_filterMap]
        cases (segments rest).filterMap component? with
        | nil => rfl
        | cons c more => rfl
      simpa [hroot] using hrest
  | case2 => exact .refl
  | case3 rest =>
      have hne : ['.'] ≠ [] := by simp
      have hrest := simplifies_after hne (segments rest)
      rw [joinSegments_segments] at hrest
      have hempty : component? [] = none := rfl
      simpa [spelling, Component.text, map_text_filterMap, hempty] using hrest
  | case4 _ hroot hdot hcurrent =>
      simp only [Option.toList_none, List.nil_append]
      rw [spelling_filterMap]
      obtain ⟨s, more, hs⟩ := List.exists_cons_of_ne_nil (segments_ne_nil cs)
      by_cases hcs : cs = []
      · rw [hcs]
        exact .refl
      have hvoid := isVoid_of_relative hs hcs (fun rest h => hroot rest h) hdot
        fun rest h => hcurrent rest h
      have hself := joinSegments_segments cs
      rw [hs] at hself ⊢
      cases more with
      | nil => simp [← hself, hvoid, ReflTransGen.refl]
      | cons t more =>
          have hne : s ≠ [] := by
            rintro rfl
            cases hvoid
          have hrest := simplifies_after hne (t :: more)
          rw [← joinSegments, hself] at hrest
          simpa [hvoid] using hrest

/-- **What is ignored in a path.**  Two texts spell one path exactly if they become the same text
when slashes and dots are left out that make no difference. -/
lemma components_eq_iff {p q : Path} :
    p.components = q.components ↔ Respelled p.text.toList q.text.toList := by
  have hp := simplifies_spelling p.text.toList
  have hq := simplifies_spelling q.text.toList
  rw [String.ofList_toList] at hp hq
  constructor
  · intro h
    exact ⟨spelling p.components, hp, h ▸ hq⟩
  · rintro ⟨cs, hpc, hqc⟩
    have hpc := components_reflTransGen hpc
    have hqc := components_reflTransGen hqc
    rw [String.ofList_toList] at hpc hqc
    exact hpc.trans hqc.symm

end GoReach.Path
