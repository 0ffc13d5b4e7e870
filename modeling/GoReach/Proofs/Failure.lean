import Mathlib.Data.List.Forall2

/-!
# Computations that may fail

The functions of this library that may fail give an `Except`.  These lemmas take a success apart:
into the successes of its parts (`bind_eq_ok_iff`, `map_eq_ok_iff`, `mapM_eq_ok_iff`), and, for a
fold over a list, into the successes of its steps.  A fold keeps whatever its steps keep
(`foldlM_invariant`), also along with a record of the steps that were taken (`foldlM_record`), and
succeeds if its steps do (`foldlM_succeeds`).  A fold whose steps can follow those of another one
can follow it as a whole (`foldlM_follows`).

A failure is that of the first part that fails (`mapM_eq_error_iff`).
-/

namespace GoReach

variable {α β σ ε ε' : Type}

lemma bind_eq_ok_iff {x : Except ε α} {f : α → Except ε β} {b : β} :
    x >>= f = .ok b ↔ ∃ a, x = .ok a ∧ f a = .ok b := by
  cases x with
  | error e => exact iff_of_false nofun fun ⟨_, h, _⟩ => nomatch h
  | ok a => exact ⟨fun h => ⟨a, rfl, h⟩, fun ⟨_, rfl, h⟩ => h⟩

lemma map_eq_ok_iff {x : Except ε α} {f : α → β} {b : β} :
    x.map f = .ok b ↔ ∃ a, x = .ok a ∧ f a = b := by
  cases x with
  | error e => exact iff_of_false nofun fun ⟨_, h, _⟩ => nomatch h
  | ok a => exact ⟨fun h => ⟨a, rfl, Except.ok.inj h⟩, fun ⟨_, rfl, h⟩ => congrArg Except.ok h⟩

lemma exists_error_iff {x : Except ε α} : (∃ e, x = .error e) ↔ ¬ ∃ a, x = .ok a := by
  cases x with
  | error e => exact iff_of_true ⟨e, rfl⟩ fun ⟨_, h⟩ => nomatch h
  | ok a => exact iff_of_false (fun ⟨_, h⟩ => nomatch h) fun h => h ⟨a, rfl⟩

lemma mapError_eq_ok_iff {x : Except ε α} {f : ε → ε'} {a : α} :
    x.mapError f = .ok a ↔ x = .ok a := by
  cases x with
  | error e => exact iff_of_false nofun nofun
  | ok b => exact ⟨fun h => congrArg Except.ok (Except.ok.inj h), fun h => congrArg _ h⟩

/-- What every step keeps, a fold keeps. -/
lemma foldlM_invariant {P : σ → Prop} {step : σ → α → Except ε σ}
    (hstep : ∀ s a s', P s → step s a = .ok s' → P s') {as : List α} {s s' : σ} (hs : P s)
    (h : as.foldlM step s = .ok s') : P s' := by
  induction as generalizing s with
  | nil =>
      rw [List.foldlM_nil] at h
      exact Except.ok.inj h ▸ hs
  | cons a as ih =>
      rw [List.foldlM_cons] at h
      obtain ⟨t, ht, hrest⟩ := bind_eq_ok_iff.1 h
      exact ih (hstep s a t hs ht) hrest

/-- If every step adds to a record of what was done, so does a fold. -/
lemma foldlM_record {R : List β → σ → Prop} {step : σ → α → Except ε σ} {made : α → List β}
    (hstep : ∀ done s a s', R done s → step s a = .ok s' → R (done ++ made a) s') {as : List α}
    {done : List β} {s s' : σ} (hs : R done s) (h : as.foldlM step s = .ok s') :
    R (done ++ as.flatMap made) s' := by
  induction as generalizing done s with
  | nil =>
      rw [List.foldlM_nil] at h
      rw [List.flatMap_nil, List.append_nil, ← Except.ok.inj h]
      exact hs
  | cons a as ih =>
      rw [List.foldlM_cons] at h
      obtain ⟨t, ht, hrest⟩ := bind_eq_ok_iff.1 h
      rw [List.flatMap_cons, ← List.append_assoc]
      exact ih (hstep done s a t hs ht) hrest

/-- In a fold that succeeds, the step of every element has succeeded. -/
lemma exists_step_of_foldlM {step : σ → α → Except ε σ} {as : List α} {s s' : σ}
    (h : as.foldlM step s = .ok s') {a : α} (ha : a ∈ as) : ∃ t t', step t a = .ok t' := by
  induction as generalizing s with
  | nil => cases ha
  | cons b as ih =>
      rw [List.foldlM_cons] at h
      obtain ⟨t, ht, hrest⟩ := bind_eq_ok_iff.1 h
      rcases List.mem_cons.1 ha with rfl | ha
      · exact ⟨s, t, ht⟩
      · exact ih hrest ha

/-- A fold succeeds if all its steps do. -/
lemma foldlM_succeeds {step : σ → α → Except ε σ} {as : List α}
    (hstep : ∀ a ∈ as, ∀ s, ∃ s', step s a = .ok s') (s : σ) :
    ∃ s', as.foldlM step s = .ok s' := by
  induction as generalizing s with
  | nil => exact ⟨s, rfl⟩
  | cons a as ih =>
      obtain ⟨t, ht⟩ := hstep a List.mem_cons_self s
      obtain ⟨s', hs'⟩ := ih (fun b hb => hstep b (List.mem_cons_of_mem a hb)) t
      rw [List.foldlM_cons]
      exact ⟨s', bind_eq_ok_iff.2 ⟨t, ht, hs'⟩⟩

/-- If every step of a fold can be followed by a step of another one, so that the states stay
related, the other fold can follow it to its end. -/
lemma foldlM_follows {τ : Type} {R : σ → τ → Prop} {step : σ → α → Except ε σ}
    {step' : τ → α → Except ε τ}
    (hstep : ∀ s t a s', R s t → step s a = .ok s' → ∃ t', step' t a = .ok t' ∧ R s' t')
    {as : List α} {s s' : σ} {t : τ} (hst : R s t) (h : as.foldlM step s = .ok s') :
    ∃ t', as.foldlM step' t = .ok t' ∧ R s' t' := by
  induction as generalizing s t with
  | nil =>
      rw [List.foldlM_nil] at h
      exact ⟨t, rfl, Except.ok.inj h ▸ hst⟩
  | cons a as ih =>
      rw [List.foldlM_cons] at h
      obtain ⟨s₁, hs₁, hrest⟩ := bind_eq_ok_iff.1 h
      obtain ⟨t₁, ht₁, hst₁⟩ := hstep s t a s₁ hst hs₁
      obtain ⟨t', ht', hst'⟩ := ih hst₁ hrest
      rw [List.foldlM_cons]
      exact ⟨t', bind_eq_ok_iff.2 ⟨t₁, ht₁, ht'⟩, hst'⟩

/-- Results of a function on all elements of a list. -/
lemma mapM_eq_ok_iff {f : α → Except ε β} {as : List α} {bs : List β} :
    as.mapM f = .ok bs ↔ List.Forall₂ (fun a b => f a = .ok b) as bs := by
  induction as generalizing bs with
  | nil =>
      rw [List.mapM_nil, List.forall₂_nil_left_iff]
      exact ⟨fun h => (Except.ok.inj h).symm, fun h => congrArg Except.ok h.symm⟩
  | cons a as ih =>
      rw [List.mapM_cons, List.forall₂_cons_left_iff, bind_eq_ok_iff]
      constructor
      · rintro ⟨b, hb, h⟩
        obtain ⟨rest, hrest, h⟩ := bind_eq_ok_iff.1 h
        exact ⟨b, rest, hb, ih.1 hrest, (Except.ok.inj h).symm⟩
      · rintro ⟨b, rest, hb, hrest, rfl⟩
        exact ⟨b, hb, bind_eq_ok_iff.2 ⟨rest, ih.2 hrest, rfl⟩⟩

lemma exists_of_mem_of_mapM {f : α → Except ε β} {as : List α} {bs : List β}
    (h : as.mapM f = .ok bs) {a : α} (ha : a ∈ as) : ∃ b ∈ bs, f a = .ok b := by
  have hall := mapM_eq_ok_iff.1 h
  clear h
  induction hall with
  | nil => cases ha
  | cons hab _ ih =>
      rcases List.mem_cons.1 ha with rfl | ha
      · exact ⟨_, List.mem_cons_self, hab⟩
      · obtain ⟨b, hb, hfa⟩ := ih ha
        exact ⟨b, List.mem_cons_of_mem _ hb, hfa⟩

lemma exists_of_mem_result {f : α → Except ε β} {as : List α} {bs : List β}
    (h : as.mapM f = .ok bs) {b : β} (hb : b ∈ bs) : ∃ a ∈ as, f a = .ok b := by
  have hall := mapM_eq_ok_iff.1 h
  clear h
  induction hall with
  | nil => cases hb
  | cons hab _ ih =>
      rcases List.mem_cons.1 hb with rfl | hb
      · exact ⟨_, List.mem_cons_self, hab⟩
      · obtain ⟨a, ha, hfa⟩ := ih hb
        exact ⟨a, List.mem_cons_of_mem _ ha, hfa⟩

/-- Where no two elements have the same result, a list without repetition has such a result. -/
lemma nodup_of_mapM {f : α → Except ε β} {as : List α} {bs : List β} (h : as.mapM f = .ok bs)
    (has : as.Nodup)
    (hinj : ∀ a ∈ as, ∀ a' ∈ as, ∀ b, f a = .ok b → f a' = .ok b → a = a') : bs.Nodup := by
  induction as generalizing bs with
  | nil =>
      rw [List.mapM_nil] at h
      exact Except.ok.inj h ▸ List.nodup_nil
  | cons a as ih =>
      rw [List.mapM_cons] at h
      obtain ⟨b, hb, h⟩ := bind_eq_ok_iff.1 h
      obtain ⟨rest, hrest, h⟩ := bind_eq_ok_iff.1 h
      obtain rfl := Except.ok.inj h
      rw [List.nodup_cons] at has ⊢
      refine ⟨fun hmem => has.1 ?_, ih hrest has.2 fun x hx y hy => ?_⟩
      · obtain ⟨a', ha', hb'⟩ := exists_of_mem_result hrest hmem
        have heq : a = a' := hinj a List.mem_cons_self a' (List.mem_cons_of_mem a ha') b hb hb'
        exact heq ▸ ha'
      · exact hinj x (List.mem_cons_of_mem a hx) y (List.mem_cons_of_mem a hy)

/-- A selection of elements has the results of these elements. -/
lemma mapM_filter {f : α → Except ε β} {p : α → Bool} {q : β → Bool}
    (hpq : ∀ a b, f a = .ok b → q b = p a) {as : List α} {bs : List β} (h : as.mapM f = .ok bs) :
    (as.filter p).mapM f = .ok (bs.filter q) := by
  have hall := mapM_eq_ok_iff.1 h
  clear h
  rw [mapM_eq_ok_iff]
  induction hall with
  | nil => exact .nil
  | @cons a b as bs hab _ ih =>
      rw [List.filter_cons, List.filter_cons, hpq a b hab]
      cases p a with
      | false => exact ih
      | true => exact .cons hab ih

/-- A list fails with the failure of its first element that fails. -/
lemma mapM_eq_error_iff {f : α → Except ε β} {as : List α} {e : ε} :
    as.mapM f = .error e ↔
      ∃ before a after, as = before ++ a :: after ∧ (∀ x ∈ before, ∃ y, f x = .ok y) ∧
        f a = .error e := by
  constructor
  · intro h
    induction as with
    | nil => cases h
    | cons a as ih =>
        rw [List.mapM_cons] at h
        cases ha : f a with
        | error e' =>
            rw [ha] at h
            obtain rfl : e' = e := Except.error.inj h
            exact ⟨[], a, as, rfl, by simp, ha⟩
        | ok b =>
            rw [ha] at h
            cases hrest : as.mapM f with
            | error e' =>
                rw [hrest] at h
                obtain rfl : e' = e := Except.error.inj h
                obtain ⟨before, x, after, rfl, hbefore, hx⟩ := ih hrest
                exact ⟨a :: before, x, after, rfl, List.forall_mem_cons.2 ⟨⟨b, ha⟩, hbefore⟩, hx⟩
            | ok bs =>
                rw [hrest] at h
                cases h
  · rintro ⟨before, a, after, rfl, hbefore, ha⟩
    induction before with
    | nil =>
        rw [List.nil_append, List.mapM_cons, ha]
        rfl
    | cons x before ih =>
        rw [List.forall_mem_cons] at hbefore
        obtain ⟨⟨y, hy⟩, hbefore⟩ := hbefore
        rw [List.cons_append, List.mapM_cons, hy, ih hbefore]
        rfl

lemma mapM_succeeds {f : α → Except ε β} {as : List α} (h : ∀ a ∈ as, ∃ b, f a = .ok b) :
    ∃ bs, as.mapM f = .ok bs := by
  induction as with
  | nil => exact ⟨[], rfl⟩
  | cons a as ih =>
      obtain ⟨b, hb⟩ := h a List.mem_cons_self
      obtain ⟨bs, hbs⟩ := ih fun c hc => h c (List.mem_cons_of_mem a hc)
      exact ⟨b :: bs, mapM_eq_ok_iff.2 (.cons hb (mapM_eq_ok_iff.1 hbs))⟩

end GoReach
