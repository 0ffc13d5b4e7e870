import GoReach.Manifest
import GoReach.Proofs.Text.Characters

/-!
# The lines that give a path

A line gives the path of the module if it is `module` and a token, between white space
(`Directive`), once its comment is cut off (`Cut`).  A path in quotes may hold white space, so the
ways to read a token are tried one after the other, and the last one reads everything that is not in
quotes, even a quote that is never closed (`Token`).  Which of them applies does not depend on the
white space after the token, as a token does not end in any (`quoted?_append`).

The reader finds exactly these lines, and their paths (`path?_eq_some_iff`).
-/

namespace GoReach.Manifest

open GoReach.Text (isBlank isBlank_iff WhiteSpace takeWhile_dropWhile_iff)

/-! ## Tokens -/

/-- Nothing but white space. -/
def Blanks (w : List Char) : Prop := ∀ c ∈ w, WhiteSpace c

instance (w : List Char) : Decidable (Blanks w) := List.decidableBAll WhiteSpace w

/-- The path stands between two quotes, and there are none inside. -/
structure Quoted (quote : Char) (token path : List Char) : Prop where
  eq : token = quote :: (path ++ [quote])
  ne_nil : path ≠ []
  no_quote : quote ∉ path

/-- The characters that are used as quotes. -/
def quotes : List Char := ['"', '\x60']

/-- How a path is written: in quotes, or else without white space. -/
inductive Token : List Char → List Char → Prop where
  | quoted {quote : Char} {token path : List Char} (hquote : quote ∈ quotes)
      (h : Quoted quote token path) : Token token path
  | bare {path : List Char} (ne_nil : path ≠ []) (unbroken : ∀ c ∈ path, ¬ WhiteSpace c)
      (unquoted : ∀ quote ∈ quotes, ∀ inside, ¬ Quoted quote path inside) : Token path path

lemma all_isBlank_iff {w : List Char} : w.all isBlank = true ↔ Blanks w := by
  simp [Blanks]

lemma mem_quotes_iff {quote : Char} : quote ∈ quotes ↔ quote = '"' ∨ quote = '\x60' := by
  simp [quotes]

lemma not_whiteSpace_of_mem_quotes {quote : Char} (h : quote ∈ quotes) : ¬ WhiteSpace quote := by
  rcases mem_quotes_iff.1 h with rfl | rfl
  · decide
  · decide

/-- A quoted path, and nothing but blanks after it. -/
lemma quoted?_eq_some_iff {quote : Char} {cs path : List Char} :
    quoted? quote cs = some path ↔
      ∃ token w, Quoted quote token path ∧ Blanks w ∧ cs = token ++ w := by
  constructor
  · intro h
    cases cs with
    | nil => cases h
    | cons c rest =>
        obtain ⟨hrest, hinside, hquote⟩ :=
          (takeWhile_dropWhile_iff (p := (· != quote))).1 ⟨rfl, rfl⟩
        rw [quoted?] at h
        generalize rest.takeWhile (· != quote) = inside at h hrest hinside
        generalize rest.dropWhile (· != quote) = outside at h hrest hquote
        cases outside with
        | nil => cases h
        | cons c' after =>
            obtain rfl : c' = quote := by simpa using hquote c' rfl
            dsimp only at h
            split at h
            next hif =>
              obtain rfl := Option.some.inj h
              simp only [Bool.and_eq_true, beq_iff_eq, Bool.not_eq_true', List.isEmpty_eq_false_iff,
                all_isBlank_iff] at hif
              obtain ⟨⟨rfl, hne⟩, hafter⟩ := hif
              have hnone : c ∉ inside := fun hmem => by simpa using hinside c hmem
              exact ⟨_, after, ⟨rfl, hne, hnone⟩, hafter, by simp [hrest]⟩
            next => cases h
  · rintro ⟨token, w, ⟨rfl, hne, hquote⟩, hw, rfl⟩
    have hpath : ∀ c ∈ path, (c != quote) = true := by
      intro c hc
      rw [bne_iff_ne]
      rintro rfl
      exact hquote hc
    have hrest : path ++ [quote] ++ w = path ++ quote :: w := by simp
    obtain ⟨htake, hdrop⟩ := takeWhile_dropWhile_iff.2 ⟨hrest, hpath, by simp⟩
    rw [List.cons_append, quoted?, htake, hdrop]
    simp [all_isBlank_iff.2 hw, hne]

/-- A path without quotes, and nothing but blanks after it. -/
lemma bare?_eq_some_iff {cs path : List Char} :
    bare? cs = some path ↔
      path ≠ [] ∧ (∀ c ∈ path, ¬ WhiteSpace c) ∧ ∃ w, Blanks w ∧ cs = path ++ w := by
  constructor
  · intro h
    obtain ⟨hcs, hword, -⟩ := (takeWhile_dropWhile_iff (p := fun c => !isBlank c)).1 ⟨rfl, rfl⟩
    rw [bare?] at h
    generalize cs.takeWhile (fun c => !isBlank c) = word at h hcs hword
    generalize cs.dropWhile (fun c => !isBlank c) = rest at hcs
    rw [hcs, List.drop_left] at h
    split at h
    next hif =>
      obtain rfl := Option.some.inj h
      simp only [Bool.and_eq_true, Bool.not_eq_true', List.isEmpty_eq_false_iff,
        all_isBlank_iff] at hif
      exact ⟨hif.1, by simpa using hword, rest, hif.2, hcs⟩
    next => cases h
  · rintro ⟨hne, hunbroken, w, hw, rfl⟩
    have hblank : ∀ c, w.head? = some c → (!isBlank c) = false := by
      intro c hc
      simpa using hw c (List.mem_of_mem_head? hc)
    obtain ⟨htake, -⟩ := (takeWhile_dropWhile_iff (p := fun c => !isBlank c)).2
      ⟨rfl, by simpa using hunbroken, hblank⟩
    rw [bare?, htake, List.drop_left]
    simp [all_isBlank_iff.2 hw, hne]

/-- A text that begins with a character that is no white space. -/
def Begun (cs : List Char) : Prop := ∃ c rest, cs = c :: rest ∧ ¬ WhiteSpace c

/-- A text that ends with a character that is no white space. -/
def Ended (cs : List Char) : Prop := ∃ before c, cs = before ++ [c] ∧ ¬ WhiteSpace c

lemma Begun.append {as : List Char} (h : Begun as) (bs : List Char) : Begun (as ++ bs) := by
  obtain ⟨c, rest, rfl, hc⟩ := h
  exact ⟨c, rest ++ bs, rfl, hc⟩

lemma Ended.append {bs : List Char} (h : Ended bs) (as : List Char) : Ended (as ++ bs) := by
  obtain ⟨before, c, rfl, hc⟩ := h
  exact ⟨as ++ before, c, (List.append_assoc as before [c]).symm, hc⟩

/-- Tokens neither begin nor end with a blank. -/
lemma Token.begun_and_ended {token path : List Char} (h : Token token path) :
    Begun token ∧ Ended token := by
  cases h with
  | @quoted quote _ _ hquote h =>
      have hspace := not_whiteSpace_of_mem_quotes hquote
      exact ⟨⟨quote, _, h.eq, hspace⟩, quote :: path, quote, by simp [h.eq], hspace⟩
  | bare hne hunbroken =>
      refine ⟨?_, ?_⟩
      · obtain ⟨c, rest, rfl⟩ := List.exists_cons_of_ne_nil hne
        exact ⟨c, rest, rfl, hunbroken c List.mem_cons_self⟩
      · obtain rfl | ⟨before, c, rfl⟩ := List.eq_nil_or_concat token
        · exact absurd rfl hne
        · exact ⟨before, c, by simp, hunbroken c (by simp)⟩

/-- Blanks at the end of a text belong to what comes after a part that does not end in a blank. -/
lemma prefix_of_append_blanks {as bs w v : List Char}
    (has : Ended as) (hv : Blanks v) (h : as ++ w = bs ++ v) :
    as <+: bs := by
  rcases List.append_eq_append_iff.1 h with ⟨x, rfl, -⟩ | ⟨x, rfl, rfl⟩
  · exact List.prefix_append _ _
  · -- what `as` has more than `bs` is blank, but the last character of `as` is not
    obtain ⟨before, c, hc, hspace⟩ := has
    obtain rfl | ⟨x, c', rfl⟩ := List.eq_nil_or_concat x
    · simp
    · rw [List.concat_eq_append, ← List.append_assoc, List.append_singleton_inj] at hc
      exact absurd (hv c' (by simp)) (hc.2 ▸ hspace)

/-- So what stands before trailing blanks can be told. -/
lemma eq_of_append_blanks {as bs w v : List Char} (has : Ended as) (hbs : Ended bs)
    (hw : Blanks w) (hv : Blanks v) (h : as ++ w = bs ++ v) : as = bs :=
  (prefix_of_append_blanks has hv h).eq_of_length_le
    (prefix_of_append_blanks hbs hw h.symm).length_le

/-- Whether a token is in quotes does not depend on the blanks after it. -/
lemma quoted?_append {quote : Char} {token path w inside : List Char} (hquote : quote ∈ quotes)
    (htoken : Token token path) (hw : Blanks w) :
    quoted? quote (token ++ w) = some inside ↔ Quoted quote token inside := by
  rw [quoted?_eq_some_iff]
  constructor
  · rintro ⟨token', w', hinside, hw', heq⟩
    obtain rfl := eq_of_append_blanks htoken.begun_and_ended.2
      (Token.quoted hquote hinside).begun_and_ended.2 hw hw' heq
    exact hinside
  · exact fun hinside => ⟨token, w, hinside, hw, rfl⟩

/-- What is read as a path is a token, and blanks after it. -/
lemma token_iff {cs path : List Char} :
    (quoted? '"' cs <|> quoted? '\x60' cs <|> bare? cs) = some path ↔
      ∃ token w, Token token path ∧ Blanks w ∧ cs = token ++ w := by
  have hdouble : '"' ∈ quotes := by decide
  have hback : '\x60' ∈ quotes := by decide
  constructor
  · intro h
    simp only [Option.orElse_eq_orElse, Option.orElse_eq_or, Option.or_eq_some_iff] at h
    rcases h with h | ⟨hnone, h | ⟨hnone', h⟩⟩
    · obtain ⟨token, w, htoken, hw, rfl⟩ := quoted?_eq_some_iff.1 h
      exact ⟨token, w, .quoted hdouble htoken, hw, rfl⟩
    · obtain ⟨token, w, htoken, hw, rfl⟩ := quoted?_eq_some_iff.1 h
      exact ⟨token, w, .quoted hback htoken, hw, rfl⟩
    · obtain ⟨hne, hunbroken, w, hw, rfl⟩ := bare?_eq_some_iff.1 h
      refine ⟨path, w, .bare hne hunbroken ?_, hw, rfl⟩
      intro quote hquote inside hinside
      have hsome : quoted? quote (path ++ w) = some inside :=
        quoted?_eq_some_iff.2 ⟨path, w, hinside, hw, rfl⟩
      rcases mem_quotes_iff.1 hquote with rfl | rfl
      · simp [hnone] at hsome
      · simp [hnone'] at hsome
  · rintro ⟨token, w, htoken, hw, rfl⟩
    have hread : ∀ quote ∈ quotes, ∀ inside,
        quoted? quote (token ++ w) = some inside ↔ Quoted quote token inside :=
      fun quote hquote inside => quoted?_append hquote htoken hw
    cases htoken with
    | @quoted quote _ _ hquote h =>
        rcases mem_quotes_iff.1 hquote with rfl | rfl
        · simp [(hread _ hdouble path).2 h]
        · have hnone : quoted? '"' (token ++ w) = none := by
            rw [Option.eq_none_iff_forall_ne_some]
            intro inside hinside
            simpa [h.eq] using ((hread _ hdouble inside).1 hinside).eq
          simp [hnone, (hread _ hback path).2 h]
    | bare hne hunbroken hunquoted =>
        have hnone : ∀ quote ∈ quotes, quoted? quote (path ++ w) = none := by
          intro quote hquote
          rw [Option.eq_none_iff_forall_ne_some]
          intro inside hinside
          exact hunquoted quote hquote inside ((hread quote hquote inside).1 hinside)
        have hbare : bare? (path ++ w) = some path :=
          bare?_eq_some_iff.2 ⟨hne, hunbroken, w, hw, rfl⟩
        simp [hnone _ hdouble, hnone _ hback, hbare]

/-! ## Directives -/

/-- A line that gives the path to the module. -/
def Directive (line path : List Char) : Prop :=
  ∃ w₁ w₂ token w₃, Blanks w₁ ∧ Blanks w₂ ∧ w₂ ≠ [] ∧ Blanks w₃ ∧ Token token path ∧
    line = w₁ ++ "module".toList ++ w₂ ++ token ++ w₃

/-- A line begins with its blanks. -/
lemma exists_blanks (line : List Char) : ∃ w, Blanks w ∧ line = w ++ line.dropWhile isBlank := by
  obtain ⟨hline, hw, -⟩ := (takeWhile_dropWhile_iff (p := isBlank)).1 ⟨rfl, rfl⟩
  exact ⟨_, by simpa [Blanks] using hw, hline⟩

/-- The blanks before a token are passed over, and no more than these. -/
lemma dropWhile_blanks {w rest : List Char} (hw : Blanks w) (hrest : Begun rest) :
    (w ++ rest).dropWhile isBlank = rest := by
  obtain ⟨c, more, rfl, hc⟩ := hrest
  exact (takeWhile_dropWhile_iff.2 ⟨rfl, by simpa [Blanks] using hw, by simpa using hc⟩).2

/-- What is taken for a directive is one. -/
lemma directive?_eq_some_iff {line path : List Char} :
    directive? line = some path ↔ Directive line path := by
  constructor
  · intro h
    obtain ⟨w₁, hw₁, hline⟩ := exists_blanks line
    rw [directive?] at h
    dsimp only at h
    split at h
    next hkeyword =>
      obtain ⟨rest, hrest⟩ := List.isPrefixOf_iff_prefix.1 hkeyword
      rw [← hrest, List.drop_left] at h
      split at h
      next hblank =>
        obtain ⟨w₂, hw₂, hpath⟩ := exists_blanks rest
        obtain ⟨token, w₃, htoken, hw₃, heq⟩ := token_iff.1 h
        refine ⟨w₁, w₂, token, w₃, hw₁, hw₂, ?_, hw₃, htoken, ?_⟩
        · rintro rfl
          obtain ⟨c, more, hc, hspace⟩ := htoken.begun_and_ended.1.append w₃
          rw [hpath, List.nil_append, heq, hc, List.head?_cons, Option.any_some,
            isBlank_iff] at hblank
          exact hspace hblank
        · rw [hline, ← hrest, hpath, heq]
          simp
      next => cases h
    next => cases h
  · rintro ⟨w₁, w₂, token, w₃, hw₁, hw₂, hne, hw₃, htoken, rfl⟩
    obtain ⟨c, w, rfl⟩ := List.exists_cons_of_ne_nil hne
    have hblank : isBlank c = true := isBlank_iff.2 (hw₂ c List.mem_cons_self)
    have hkeyword : Begun "module".toList := ⟨'m', _, rfl, by decide⟩
    simp only [List.append_assoc]
    rw [directive?, dropWhile_blanks hw₁ (hkeyword.append _)]
    dsimp only
    rw [if_pos (List.isPrefixOf_iff_prefix.2 (List.prefix_append _ _)), List.drop_left,
      dropWhile_blanks hw₂ (htoken.begun_and_ended.1.append w₃),
      token_iff.2 ⟨token, w₃, htoken, hw₃, rfl⟩]
    simp [hblank]

/-- Blanks at the end of a line do not matter. -/
lemma directive_append_iff {line path w : List Char} (hw : Blanks w) :
    Directive (line ++ w) path ↔ Directive line path := by
  constructor
  · rintro ⟨w₁, w₂, token, w₃, hw₁, hw₂, hne, hw₃, htoken, heq⟩
    obtain ⟨x, rfl⟩ := prefix_of_append_blanks (htoken.begun_and_ended.2.append _) hw heq.symm
    rw [List.append_assoc, List.append_cancel_left_eq] at heq
    refine ⟨w₁, w₂, token, x, hw₁, hw₂, hne, fun c hc => hw₃ c ?_, htoken, rfl⟩
    exact heq ▸ List.mem_append_left w hc
  · rintro ⟨w₁, w₂, token, w₃, hw₁, hw₂, hne, hw₃, htoken, rfl⟩
    exact ⟨w₁, w₂, token, w₃ ++ w, hw₁, hw₂, hne, List.forall_mem_append.2 ⟨hw₃, hw⟩, htoken,
      List.append_assoc _ w₃ w⟩

/-! ## Comments -/

/-- Where a comment begins. -/
def slashes : List Char := ['/', '/']

/-- A line up to its comment. -/
inductive Cut : List Char → List Char → Prop where
  | plain {line : List Char} (h : ¬ slashes <:+: line) : Cut line line
  | comment {code words : List Char} (h : ¬ slashes <:+: code ++ ['/']) :
      Cut (code ++ slashes ++ words) code

/-- Two slashes stand at the beginning or further on. -/
lemma slashes_infix_cons_iff {c : Char} {rest : List Char} :
    slashes <:+: c :: rest ↔ (c = '/' ∧ rest.head? = some '/') ∨ slashes <:+: rest := by
  rw [List.infix_cons_iff, slashes, List.cons_prefix_cons]
  cases rest with
  | nil => simp
  | cons d rest => simp [eq_comm]

/-- Two slashes side by side come from one part or the other, or from where the two meet. -/
lemma slashes_infix_append_iff {as bs : List Char} :
    slashes <:+: as ++ bs ↔
      slashes <:+: as ∨ slashes <:+: bs ∨ (as.getLast? = some '/' ∧ bs.head? = some '/') := by
  induction as with
  | nil => simp [slashes]
  | cons c as ih =>
      rw [List.cons_append, slashes_infix_cons_iff, slashes_infix_cons_iff, ih]
      cases as with
      | nil => simp [slashes, or_comm]
      | cons d as => simp [or_assoc]

lemma slashes_infix_append_left {as bs : List Char} (has : '/' ∉ as) :
    slashes <:+: as ++ bs ↔ slashes <:+: bs := by
  have hslashes : ¬ slashes <:+: as := fun h => has (h.mem (by decide))
  have hlast : as.getLast? ≠ some '/' := fun h => has (List.mem_of_getLast? h)
  simp [slashes_infix_append_iff, hslashes, hlast]

lemma slashes_infix_append_right {as bs : List Char} (hbs : '/' ∉ bs) :
    slashes <:+: as ++ bs ↔ slashes <:+: as := by
  have hslashes : ¬ slashes <:+: bs := fun h => hbs (h.mem (by decide))
  have hhead : bs.head? ≠ some '/' := fun h => hbs (List.mem_of_mem_head? h)
  simp [slashes_infix_append_iff, hslashes, hhead]

/-- The code goes on until two slashes come. -/
lemma withoutComment_cons (c : Char) (rest : List Char) :
    withoutComment (c :: rest)
      = if c = '/' ∧ rest.head? = some '/' then [] else c :: withoutComment rest := by
  split
  next h =>
    obtain ⟨rfl, hrest⟩ := h
    obtain ⟨rest, rfl⟩ := List.head?_eq_some_iff.1 hrest
    rfl
  next h =>
    rw [withoutComment]
    rintro rest rfl rfl
    exact h ⟨rfl, rfl⟩

/-- The first of two slashes is seen as well without what comes after it. -/
lemma head?_append_slash (code rest : List Char) :
    (code ++ '/' :: rest).head? = (code ++ ['/']).head? := by
  cases code with
  | nil => rfl
  | cons c code => rfl

/-- What is left of a line is the code before its comment, ... -/
lemma cut_withoutComment (line : List Char) : Cut line (withoutComment line) := by
  induction line with
  | nil => exact .plain (by decide)
  | cons c rest ih =>
      rw [withoutComment_cons]
      split
      next h =>
        obtain ⟨rfl, hrest⟩ := h
        obtain ⟨words, rfl⟩ := List.head?_eq_some_iff.1 hrest
        exact @Cut.comment [] words (by decide)
      next h =>
        generalize withoutComment rest = code at ih
        cases ih with
        | plain hrest =>
            exact .plain fun hslashes => (slashes_infix_cons_iff.1 hslashes).elim h hrest
        | @comment code words hcode =>
            refine @Cut.comment (c :: code) words fun hslashes => ?_
            rw [List.append_assoc, slashes, List.cons_append, head?_append_slash] at h
            exact (slashes_infix_cons_iff.1 hslashes).elim h hcode

/-- ... and there is only one way to cut a line. -/
lemma withoutComment_eq_iff {line code : List Char} :
    withoutComment line = code ↔ Cut line code := by
  constructor
  · rintro rfl
    exact cut_withoutComment line
  · intro h
    cases h with
    | plain h =>
        induction line with
        | nil => rfl
        | cons c rest ih =>
            rw [slashes_infix_cons_iff, not_or] at h
            rw [withoutComment_cons, if_neg h.1, ih h.2]
    | @comment _ words h =>
        induction code with
        | nil => rfl
        | cons c code ih =>
            rw [List.cons_append, slashes_infix_cons_iff, not_or,
              ← head?_append_slash code ('/' :: words)] at h
            rw [List.append_assoc, List.cons_append, ← List.append_assoc, withoutComment_cons,
              ih h.2, List.append_assoc]
            exact if_neg h.1

/-- A line and the path it gives. -/
def Says (line path : List Char) : Prop := ∃ code, Cut line code ∧ Directive code path

/-- The path that a line gives. -/
def path? (line : List Char) : Option (List Char) := directive? (withoutComment line)

/-- A line gives a path exactly if it says so. -/
lemma path?_eq_some_iff {line path : List Char} : path? line = some path ↔ Says line path := by
  rw [path?, directive?_eq_some_iff]
  constructor
  · exact fun h => ⟨withoutComment line, cut_withoutComment line, h⟩
  · rintro ⟨code, hcut, h⟩
    rw [withoutComment_eq_iff.2 hcut]
    exact h

lemma not_says_iff {line : List Char} : (∀ path, ¬ Says line path) ↔ path? line = none := by
  rw [Option.eq_none_iff_forall_ne_some]
  exact forall_congr' fun path => not_congr path?_eq_some_iff.symm

/-- A carriage return at the end of a line is part of its comment, or a blank at its end. -/
lemma path?_append_return (line : List Char) : path? (line ++ ['\r']) = path? line := by
  have hblank : Blanks ['\r'] := by decide
  have hslash : '/' ∉ ['\r'] := by decide
  obtain ⟨code, hcut⟩ : ∃ code, withoutComment line = code := ⟨_, rfl⟩
  rw [path?, path?, hcut]
  cases withoutComment_eq_iff.1 hcut with
  | plain h =>
      rw [withoutComment_eq_iff.2 (.plain (mt (slashes_infix_append_right hslash).1 h))]
      ext path
      rw [directive?_eq_some_iff, directive?_eq_some_iff, directive_append_iff hblank]
  | @comment _ words h =>
      rw [List.append_assoc, withoutComment_eq_iff.2 (.comment h)]

/-- No line gives the empty path, ... -/
lemma Says.ne_nil {line path : List Char} (h : Says line path) : path ≠ [] := by
  obtain ⟨code, -, _, _, _, _, -, -, -, -, htoken, -⟩ := h
  cases htoken with
  | quoted _ h => exact h.ne_nil
  | bare hne => exact hne

/-- ... or a path that would begin a comment. -/
lemma Says.no_slashes {line path : List Char} (h : Says line path) : ¬ slashes <:+: path := by
  obtain ⟨code, hcut, w₁, w₂, token, w₃, -, -, -, -, htoken, hcode⟩ := h
  have hpath : path <:+: token := by
    cases htoken with
    | @quoted quote _ _ _ h => exact ⟨[quote], [quote], by simp [h.eq]⟩
    | bare => exact List.infix_rfl
  have htoken : token <:+: code := ⟨w₁ ++ "module".toList ++ w₂, w₃, hcode.symm⟩
  have hnone : ¬ slashes <:+: code := by
    cases hcut with
    | plain h => exact h
    | comment h => exact fun hslashes => h (List.infix_append_of_infix_left hslashes)
  exact fun hslashes => hnone (hslashes.trans (hpath.trans htoken))

end GoReach.Manifest
