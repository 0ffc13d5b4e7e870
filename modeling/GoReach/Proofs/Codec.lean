import GoReach.Codec
import GoReach.Proofs.Json.RoundTrip

/-!
# Reading undoes writing

Declarations, spans, kinds and imports are each given by a `Codec`: how a value becomes JSON and how
a literal becomes a value.  `Literal.fields?_zip` reads the fields of a written object back in
order; with it every codec is `Lawful`, and a lawful codec round-trips through texts.  Equality is
that of the whole values here, not that of declarations by file and name.
-/

namespace GoReach

/-! ## Fields -/

namespace Literal

lemma mapM_eq_some_map {α β : Type} {f : α → Option β} {g : α → β} {l : List α}
    (h : ∀ a ∈ l, f a = some (g a)) : l.mapM f = some (l.map g) := by
  induction l with
  | nil => rfl
  | cons a l ih =>
      rw [List.mapM_cons, h a List.mem_cons_self, ih fun b hb => h b (List.mem_cons_of_mem a hb)]
      rfl

/-- The names of written members are read again. -/
lemma text?_memberLiteralsOf (members : List (String × Json)) :
    (Json.memberLiteralsOf members).mapM
        (fun (name, value) => (text? (.string name)).map fun name => (name, value))
      = some (members.map (Prod.map id Json.literal)) := by
  induction members with
  | nil => rfl
  | cons m members ih =>
      simp [Json.memberLiteralsOf, List.mapM_cons, ih, Prod.map]

/-- A name that only one member has picks that member. -/
lemma filter_name_eq {α : Type} {members : List (String × α)}
    (h : (members.map Prod.fst).Nodup) {m : String × α} (hm : m ∈ members) :
    (members.filter fun m' => m'.1 == m.1) = [m] := by
  induction members with
  | nil => cases hm
  | cons head members ih =>
      rw [List.map_cons, List.nodup_cons] at h
      rcases List.mem_cons.1 hm with rfl | hm
      · have hrest : (members.filter fun m' => m'.1 == m.1) = [] := by
          rw [List.filter_eq_nil_iff]
          intro m' hm' hname
          exact h.1 (List.mem_map.2 ⟨m', hm', by simpa using hname⟩)
        simp [hrest]
      · have hne : head.1 ≠ m.1 := by
          intro hname
          exact h.1 (List.mem_map.2 ⟨m, hm, hname.symm⟩)
        simp [hne, ih h.2 hm]

/-- Where every member has a name of its own, each name finds its value. -/
lemma mapM_filter_name (members : List (String × Literal)) (h : (members.map Prod.fst).Nodup) :
    ((members.map Prod.fst).mapM fun name =>
      match members.filter fun m => m.1 == name with
      | [] => some none
      | [(_, value)] => some (some value)
      | _ => none) = some ((members.map Prod.snd).map some) := by
  rw [List.mapM_map, List.map_map]
  exact mapM_eq_some_map fun m hm => by simp [filter_name_eq h hm]

/-- The fields of a written object are those that it was written with. -/
lemma fields?_zip {names : List String} {values : List Json} (hnames : names.Nodup)
    (hlength : names.length = values.length) :
    (Json.obj (names.zip values)).literal.fields? names
      = some ((values.map Json.literal).map some) := by
  have hkeys : (names.zip (values.map Json.literal)).map Prod.fst = names :=
    List.map_fst_zip (by simp [hlength])
  have hvalues : (names.zip (values.map Json.literal)).map Prod.snd = values.map Json.literal :=
    List.map_snd_zip (by simp [hlength])
  have hfields := mapM_filter_name (names.zip (values.map Json.literal)) (by rwa [hkeys])
  rw [hkeys, hvalues] at hfields
  rw [Json.literal, fields?, text?_memberLiteralsOf, ← List.zip_map_right]
  exact hfields

/-- What is read as a number fits into 64 bits. -/
lemma lt_of_nat? {l : Literal} {n : Nat} (h : l.nat? = some n) : n < UInt64.size := by
  cases l with
  | number written =>
      simp only [nat?, Option.ite_none_right_eq_some, Bool.and_eq_true, decide_eq_true_eq,
        Option.some.injEq] at h
      exact h.2 ▸ h.1.2
  | _ => cases h

end Literal

/-! ## Codecs -/

/-- A form of JSON for the values of a type; `Fits` are the values that have it. -/
structure Codec (α : Type) where
  toJson : α → Json
  ofLiteral? : Literal → Option α
  Fits : α → Prop

namespace Codec

variable {α : Type} {c : Codec α}

def encode (c : Codec α) (a : α) : String := (c.toJson a).render

def decode? (c : Codec α) (text : String) : Option α := (Literal.ofText? text).bind c.ofLiteral?

/-- What has to be known of a codec, without any text. -/
structure Lawful (c : Codec α) : Prop where
  ofLiteral?_literal : ∀ a, c.Fits a → c.ofLiteral? (c.toJson a).literal = some a
  fits : ∀ l a, c.ofLiteral? l = some a → c.Fits a

/-- Reading undoes writing, so that different values are written differently; and what is read can
be written and read again. -/
structure RoundTrips (c : Codec α) : Prop where
  decode?_encode : ∀ a, c.Fits a → c.decode? (c.encode a) = some a
  encode_injective : ∀ a b, c.Fits a → c.Fits b → c.encode a = c.encode b → a = b
  decode?_again : ∀ text a, c.decode? text = some a → c.Fits a ∧ c.decode? (c.encode a) = some a

/-- A lawful codec round-trips through texts, because texts are read as the literals that were
written. -/
lemma Lawful.roundTrips (h : c.Lawful) : c.RoundTrips := by
  have hback : ∀ a, c.Fits a → c.decode? (c.encode a) = some a := by
    intro a ha
    rw [decode?, encode, Literal.ofText?_render]
    exact h.ofLiteral?_literal a ha
  refine ⟨hback, ?_, ?_⟩
  · intro a b ha hb hab
    have hsome : some a = some b := by rw [← hback a ha, hab, hback b hb]
    exact Option.some.inj hsome
  · intro text a hdecode
    obtain ⟨l, -, hl⟩ := Option.bind_eq_some_iff.1 hdecode
    have hfits := h.fits l a hl
    exact ⟨hfits, hback a hfits⟩

end Codec

/-! ## The records -/

namespace Declaration

namespace Kind

def codec : Codec Kind := ⟨toJson, ofLiteral?, fun _ => True⟩

/-- Kinds have different labels. -/
lemma ofLabel?_label (k : Kind) : ofLabel? k.label = some k := by
  cases k <;> decide

lemma lawful : codec.Lawful := by
  refine ⟨fun k _ => ?_, fun _ _ _ => trivial⟩
  show ofLiteral? (.string (Json.escape k.label.toList)) = some k
  rw [ofLiteral?, Literal.text?_escape, Option.bind_some, ofLabel?_label]
  simp

end Kind

namespace Span

/-- Lines and columns that fit into 64 bits. -/
def Fits (s : Span) : Prop :=
  s.startLine < UInt64.size ∧ s.startColumn < UInt64.size ∧
    s.endLine < UInt64.size ∧ s.endColumn < UInt64.size

def codec : Codec Span := ⟨toJson, ofLiteral?, Fits⟩

/-- The four numbers of a written span, in their order. -/
lemma fields?_toJson (s : Span) : s.toJson.literal.fields? fieldNames
    = some ([s.startLine, s.startColumn, s.endLine, s.endColumn].map fun n =>
        some (.number (Nat.toDigits 10 n))) :=
  Literal.fields?_zip (by decide) rfl

/-- A span is read from what it was written as. -/
lemma ofLiteral?_literal {s : Span} (h : s.Fits) : ofLiteral? s.toJson.literal = some s := by
  obtain ⟨hline, hcolumn, hendLine, hendColumn⟩ := h
  simp [ofLiteral?, fields?_toJson, Literal.nat?_toDigits, hline, hcolumn, hendLine, hendColumn]

/-- The numbers of a span that is read fit into 64 bits. -/
lemma fits_of_ofLiteral? {l : Literal} {s : Span} (h : ofLiteral? l = some s) : s.Fits := by
  rw [ofLiteral?] at h
  split at h
  next a b c d _ =>
    simp only [Option.bind_eq_bind, Option.bind_eq_some_iff, Option.pure_def,
      Option.some.injEq] at h
    obtain ⟨i, hi, j, hj, k, hk, n, hn, rfl⟩ := h
    exact ⟨Literal.lt_of_nat? hi, Literal.lt_of_nat? hj, Literal.lt_of_nat? hk,
      Literal.lt_of_nat? hn⟩
  next => cases h

lemma lawful : codec.Lawful :=
  ⟨fun _ => ofLiteral?_literal, fun _ _ => fits_of_ofLiteral?⟩

end Span

/-- A declaration whose span, if it has one, fits. -/
def Fits (d : Declaration) : Prop := ∀ s ∈ d.span, s.Fits

def codec : Codec Declaration := ⟨toJson, ofLiteral?, Fits⟩

/-- A span that is there is read as one. -/
lemma optionalSpan?_literal {s : Span} (h : s.Fits) :
    optionalSpan? (some s.toJson.literal) = some (some s) := by
  have hread := Span.ofLiteral?_literal h
  rw [Span.toJson, Json.literal] at *
  rw [optionalSpan?, hread]
  · rfl
  · simp

/-- A declaration is read from what it was written as, with its span or without one. -/
lemma ofLiteral?_literal {d : Declaration} (h : d.Fits) : ofLiteral? d.toJson.literal = some d := by
  have hkind : Kind.ofLiteral? d.kind.toJson.literal = some d.kind :=
    Kind.lawful.ofLiteral?_literal d.kind trivial
  obtain ⟨file, name, kind, span⟩ := d
  have hfields : ∀ span : Json,
      (Json.obj (fieldNames.zip [.str file.text, .str name, kind.toJson, span])).literal.fields?
        fieldNames = some [some (Json.str file.text).literal, some (Json.str name).literal,
          some kind.toJson.literal, some span.literal] :=
    fun span => Literal.fields?_zip (by decide) rfl
  cases span with
  | none =>
      simp only [toJson, ofLiteral?, hfields]
      simp [hkind, Json.literal, optionalSpan?]
  | some s =>
      have hspan := optionalSpan?_literal (h s rfl)
      simp only [toJson, ofLiteral?, hfields]
      simp [hkind, Json.literal, hspan]

/-- The span of a declaration that is read fits, if there is one. -/
lemma fits_of_ofLiteral? {l : Literal} {d : Declaration} (h : ofLiteral? l = some d) : d.Fits := by
  rw [ofLiteral?] at h
  split at h
  next file name kind span _ =>
    simp only [Option.bind_eq_bind, Option.bind_eq_some_iff, Option.pure_def,
      Option.some.injEq] at h
    obtain ⟨_, -, _, -, _, -, span', hspan, rfl⟩ := h
    intro s hs
    rw [optionalSpan?.eq_def] at hspan
    split at hspan
    next => simp_all
    next => simp_all
    next l =>
      obtain ⟨s', hs', rfl⟩ := Option.map_eq_some_iff.1 hspan
      cases hs
      exact Span.fits_of_ofLiteral? hs'
  next => cases h

lemma lawful : codec.Lawful :=
  ⟨fun _ => ofLiteral?_literal, fun _ _ => fits_of_ofLiteral?⟩

end Declaration

namespace Import

def codec : Codec Import := ⟨toJson, ofLiteral?, fun _ => True⟩

lemma lawful : codec.Lawful := by
  refine ⟨fun i _ => ?_, fun _ _ _ => trivial⟩
  have hfields : i.toJson.literal.fields? fieldNames
      = some [some (Json.str i.name).literal, some (Json.str i.path).literal] :=
    Literal.fields?_zip (by decide) rfl
  simp [codec, ofLiteral?, hfields, Json.literal]

end Import

namespace Codec

/-- Whatever a declaration, a kind, a span or an import consists of, its text is read as itself. -/
theorem roundTrips_records :
    Declaration.codec.RoundTrips ∧ Declaration.Kind.codec.RoundTrips ∧
      Declaration.Span.codec.RoundTrips ∧ Import.codec.RoundTrips :=
  ⟨Declaration.lawful.roundTrips, Declaration.Kind.lawful.roundTrips,
    Declaration.Span.lawful.roundTrips, Import.lawful.roundTrips⟩

/-- A declaration with everything in it that is written otherwise than it is. -/
def Sample.escaped : Declaration where
  file := ⟨"./a//\"b\\\x01\n/𝔤.go"⟩
  name := "\t\x1f\x7f"
  kind := .value
  span := some ⟨0, 1, UInt64.size - 1, 10⟩

/-- Quotes, backslashes, control characters and large numbers come back. -/
theorem roundTrips_records_sample :
    Sample.escaped.Fits ∧
      Declaration.codec.decode? (Declaration.codec.encode Sample.escaped)
        = some Sample.escaped := by
  have hfits : Sample.escaped.Fits := by
    intro s hs
    cases hs
    exact ⟨by decide, by decide, by decide, by decide⟩
  exact ⟨hfits, roundTrips_records.1.decode?_encode _ hfits⟩

example : Import.codec.encode ⟨"_", "a\"b\\\x01"⟩
    = "\x7b\"alias\":\"_\",\"path\":\"a\\\"b\\\\\\u0001\"\x7d" := by
  decide +kernel

end Codec

end GoReach
