import Mathlib.Tactic.Lemma
import GoReach.Json.Literal

/-!
# Written JSON is read again

Every value is written as a text that the scanner takes apart again: into the literals that the
value was written as, with nothing left over.  Strings come back by `unescape_escape`, numbers by
`nat?_toDigits`; `scanValue_chars` scans a value in front of any rest of a text that does not go on
with a number, and `ofText?_render` is the statement about whole texts.
-/

namespace GoReach

/-! ## Strings -/

namespace Literal

-- The proofs below all unfold the scanner.  Its equations are long, and are made here once for all.
attribute [local grind =] scanString unescape scanValue scanItems scanMembers

/-- A hexadecimal digit is read again. -/
lemma hexValue?_hexDigit (n : Nat) : hexValue? (Json.hexDigit n) = some (n % 16) := by
  have hdigits : ∀ m < 16, hexValue? (Nat.digitChar m) = some m := by decide
  exact hdigits (n % 16) (Nat.mod_lt n (by decide))

/-- The number of a control character, as it is written, is read again. -/
lemma hexValue4?_control {n : Nat} (h : n < 0x20) :
    hexValue4? '0' '0' (Json.hexDigit (n / 16)) (Json.hexDigit n) = some n := by
  have hzero : hexValue? '0' = some 0 := by decide
  simp only [hexValue4?, hzero, hexValue?_hexDigit, Option.bind_eq_bind, Option.bind_some,
    Option.pure_def, Option.some.injEq]
  omega

/-- How a character is written: as it is, by a backslash and a letter, or by its number. -/
lemma escapeChar_cases (c : Char) :
    (Json.escapeChar c = [c] ∧ c ≠ '"' ∧ c ≠ '\\' ∧ ¬ c.toNat < 0x20) ∨
    (∃ l, Json.escapeChar c = ['\\', l] ∧ l ≠ 'u' ∧ shortEscape? l = some c) ∨
    (c.toNat < 0x20 ∧ Json.escapeChar c
      = ['\\', 'u', '0', '0', Json.hexDigit (c.toNat / 16), Json.hexDigit c.toNat]) := by
  have hback : ∀ n, c.toNat = n → c = Char.ofNat n := fun n h => h ▸ (Char.ofNat_toNat c).symm
  rw [Json.escapeChar]
  by_cases hquote : c = '"'
  · subst hquote
    exact Or.inr (Or.inl ⟨'"', by simp, by decide, rfl⟩)
  by_cases hslash : c = '\\'
  · subst hslash
    exact Or.inr (Or.inl ⟨'\\', by simp, by decide, rfl⟩)
  simp only [beq_iff_eq, hquote, hslash, if_false]
  by_cases hcontrol : c.toNat < 0x20
  · right
    rw [if_pos hcontrol]
    split
    next h => exact Or.inl ⟨'b', rfl, by decide, congrArg some (hback _ h).symm⟩
    next h => exact Or.inl ⟨'t', rfl, by decide, congrArg some (hback _ h).symm⟩
    next h => exact Or.inl ⟨'n', rfl, by decide, congrArg some (hback _ h).symm⟩
    next h => exact Or.inl ⟨'f', rfl, by decide, congrArg some (hback _ h).symm⟩
    next h => exact Or.inl ⟨'r', rfl, by decide, congrArg some (hback _ h).symm⟩
    next => exact Or.inr ⟨hcontrol, rfl⟩
  · left
    rw [if_neg hcontrol]
    exact ⟨rfl, hquote, hslash, hcontrol⟩

/-- A character that is written as it is. -/
lemma scanString_plain {c : Char} (hquote : c ≠ '"') (hslash : c ≠ '\\')
    (hplain : ¬ c.toNat < 0x20) (rest : List Char) :
    scanString (c :: rest) = (scanString rest).map (before [c]) := by
  rw [scanString, if_neg (by simpa [hslash] using hplain)] <;> simp [hquote, hslash]

/-- A character that is written by a backslash and a letter. -/
lemma scanString_short {l c : Char} (hu : l ≠ 'u') (hl : shortEscape? l = some c)
    (rest : List Char) :
    scanString ('\\' :: l :: rest) = (scanString rest).map (before ['\\', l]) := by
  rw [scanString] <;> simp [hu, hl]

/-- A character that is written as it is stands for itself. -/
lemma unescape_plain {c : Char} (hslash : c ≠ '\\') (rest : List Char) :
    unescape (c :: rest) = (unescape rest).map (c :: ·) := by
  rw [unescape] <;> simp [hslash]

/-- A backslash and a letter stand for the character of that letter. -/
lemma unescape_short {l c : Char} (hu : l ≠ 'u') (hl : shortEscape? l = some c)
    (rest : List Char) :
    unescape ('\\' :: l :: rest) = (unescape rest).map (c :: ·) := by
  rw [unescape] <;> simp [hu, hl]

/-- Four characters that write no number are refused, whatever comes after them. -/
lemma unescape_no_number {a b c d : Char} (h : hexValue4? a b c d = none) (rest : List Char) :
    unescape ('\\' :: 'u' :: a :: b :: c :: d :: rest) = none := by
  rw [unescape.eq_def]
  split <;> grind

/-- A number that is no half of a pair stands for a character, whatever comes after it. -/
lemma unescape_number {a b c d : Char} {n : Nat} (hn : hexValue4? a b c d = some n)
    (hhigh : isHighHalf n = false) (hlow : isLowHalf n = false) (rest : List Char) :
    unescape ('\\' :: 'u' :: a :: b :: c :: d :: rest)
      = (unescape rest).map (Char.ofNat n :: ·) := by
  by_cases hpair : ∃ a' b' c' d' after, rest = '\\' :: 'u' :: a' :: b' :: c' :: d' :: after
  · obtain ⟨a', b', c', d', after, rfl⟩ := hpair
    rw [unescape]
    cases hnext : hexValue4? a' b' c' d' with
    | none => simp [hn, unescape_no_number hnext]
    | some m => simp [hn, hhigh, hlow]
  · rw [unescape]
    · simp [hn, hhigh, hlow]
    · intro a' b' c' d' after hrest
      exact hpair ⟨a', b', c', d', after, hrest⟩

/-- A written character is scanned as a whole. -/
lemma scanString_escapeChar (c : Char) (rest : List Char) :
    scanString (Json.escapeChar c ++ rest)
      = (scanString rest).map (before (Json.escapeChar c)) := by
  rcases escapeChar_cases c with ⟨h, hquote, hslash, hplain⟩ | ⟨l, h, hu, hl⟩ | ⟨hcontrol, h⟩
  · rw [h]
    exact scanString_plain hquote hslash hplain rest
  · rw [h]
    exact scanString_short hu hl rest
  · rw [h]
    simp [scanString, hexValue4?_control hcontrol]

/-- A written character stands for itself. -/
lemma unescape_escapeChar (c : Char) (rest : List Char) :
    unescape (Json.escapeChar c ++ rest) = (unescape rest).map (c :: ·) := by
  rcases escapeChar_cases c with ⟨h, -, hslash, -⟩ | ⟨l, h, hu, hl⟩ | ⟨hcontrol, h⟩
  · rw [h]
    exact unescape_plain hslash rest
  · rw [h]
    exact unescape_short hu hl rest
  · have hhigh : isHighHalf c.toNat = false := by
      simp only [isHighHalf, Bool.and_eq_false_imp, decide_eq_true_eq]
      omega
    have hlow : isLowHalf c.toNat = false := by
      simp only [isLowHalf, Bool.and_eq_false_imp, decide_eq_true_eq]
      omega
    have hnumber := unescape_number (hexValue4?_control hcontrol) hhigh hlow rest
    rw [Char.ofNat_toNat] at hnumber
    rw [h]
    exact hnumber

/-- A written string ends at the first quote that is not escaped. -/
lemma scanString_escape (cs rest : List Char) :
    scanString (Json.escape cs ++ '"' :: rest) = some (Json.escape cs, rest) := by
  induction cs with
  | nil => simp [Json.escape, scanString]
  | cons c cs ih =>
      rw [Json.escape, List.flatMap_cons, List.append_assoc, scanString_escapeChar, ← Json.escape,
        ih]
      rfl

/-- A written string stands for its text. -/
lemma unescape_escape (cs : List Char) : unescape (Json.escape cs) = some cs := by
  induction cs with
  | nil => simp [Json.escape, unescape]
  | cons c cs ih =>
      rw [Json.escape, List.flatMap_cons, unescape_escapeChar, ← Json.escape, ih]
      rfl

@[simp] lemma text?_escape (s : String) : text? (.string (Json.escape s.toList)) = some s := by
  simp [text?, unescape_escape]

/-! ## Numbers -/

/-- The digits of a number write it. -/
lemma digitsValue_toDigits (n : Nat) : digitsValue (Nat.toDigits 10 n) = n :=
  Nat.ofDigitChars_ten_toDigits

lemma all_isDigit_toDigits (n : Nat) : (Nat.toDigits 10 n).all Char.isDigit = true := by
  rw [List.all_eq_true]
  exact fun c hc => Nat.isDigit_of_mem_toDigits (by decide) (by decide) hc

/-- A number that fits into 64 bits is read from its digits. -/
lemma nat?_toDigits {n : Nat} (h : n < UInt64.size) :
    nat? (.number (Nat.toDigits 10 n)) = some n := by
  simp only [nat?, all_isDigit_toDigits, digitsValue_toDigits, h, decide_true, Bool.and_self,
    if_true]

/-- A number begins with a zero only if it is zero. -/
lemma head_toDigits_ne {n : Nat} (h : 0 < n) : (Nat.toDigits 10 n).head? ≠ some '0' := by
  induction n using Nat.strongRecOn with
  | ind n ih =>
      rw [Nat.toDigits_eq_if (by decide)]
      split
      next hsmall =>
        have hdigits : ∀ m < 10, 0 < m → Nat.digitChar m ≠ '0' := by decide
        simpa using hdigits n hsmall h
      next hlarge =>
        have hhead := ih (n / 10) (by omega) (by omega)
        cases hdigits : Nat.toDigits 10 (n / 10) with
        | nil => exact absurd hdigits Nat.toDigits_ne_nil
        | cons c cs =>
            rw [hdigits] at hhead
            simpa using hhead

/-- A text that does not go on with a number. -/
def NoDigit (rest : List Char) : Prop :=
  ∀ c ∈ rest.head?, c.isDigit = false ∧ c ≠ '.' ∧ c ≠ 'e' ∧ c ≠ 'E'

/-- Digits are scanned up to the last one. -/
lemma scanDigits_append {ds rest : List Char} (hds : ds.all Char.isDigit = true) (hne : ds ≠ [])
    (hrest : NoDigit rest) : scanDigits (ds ++ rest) = some (ds, rest) := by
  have htake : (ds ++ rest).takeWhile Char.isDigit = ds := by
    rw [List.takeWhile_append_of_pos (by simpa using hds)]
    cases rest with
    | nil => simp
    | cons c rest => simp [(hrest c rfl).1]
  simp [scanDigits, htake, hne]

lemma scanWhole_toDigits (n : Nat) {rest : List Char} (hrest : NoDigit rest) :
    scanWhole (Nat.toDigits 10 n ++ rest) = some (Nat.toDigits 10 n, rest) := by
  rw [scanWhole, scanDigits_append (all_isDigit_toDigits n) Nat.toDigits_ne_nil hrest]
  rcases Nat.eq_zero_or_pos n with rfl | hpos
  · rfl
  · have hhead : ((Nat.toDigits 10 n).head? != some '0') = true := by
      simpa using head_toDigits_ne hpos
    simp [hhead]

/-- The text of a number begins with a digit. -/
lemma exists_toDigits_eq_cons (n : Nat) :
    ∃ c cs, Nat.toDigits 10 n = c :: cs ∧ c.isDigit = true := by
  obtain ⟨c, cs, h⟩ := List.exists_cons_of_ne_nil (Nat.toDigits_ne_nil (n := n) (b := 10))
  refine ⟨c, cs, h, Nat.isDigit_of_mem_toDigits (b := 10) (n := n) (by decide) (by decide) ?_⟩
  rw [h]
  exact List.mem_cons_self

lemma isBlank_of_isDigit {c : Char} (h : c.isDigit = true) : isBlank c = false := by
  rw [Bool.eq_false_iff]
  intro hblank
  simp only [isBlank, Bool.or_eq_true, beq_iff_eq] at hblank
  rcases hblank with ((rfl | rfl) | rfl) | rfl <;> cases h

/-- The digits of a number are scanned as a number without fraction and exponent. -/
lemma scanNumber_toDigits (n : Nat) {rest : List Char} (hrest : NoDigit rest) :
    scanNumber (Nat.toDigits 10 n ++ rest) = some (Nat.toDigits 10 n, rest) := by
  have hfraction : scanFraction rest = some ([], rest) := by
    rw [scanFraction]
    rintro after rfl
    exact (hrest _ rfl).2.1 rfl
  have hexponent : scanExponent rest = some ([], rest) := by
    rw [scanExponent]
    · rintro after rfl
      exact (hrest _ rfl).2.2.1 rfl
    · rintro after rfl
      exact (hrest _ rfl).2.2.2 rfl
  obtain ⟨c, cs, hdigits, hc⟩ := exists_toDigits_eq_cons n
  rw [scanNumber]
  · simp [scanUnsigned, scanWhole_toDigits n hrest, hfraction, hexponent]
  · intro after hminus
    rw [hdigits, List.cons_append, List.cons.injEq] at hminus
    rw [hminus.1] at hc
    cases hc

end Literal

/-! ## Values -/

namespace Json

mutual

/-- What the text of a value is taken apart into. -/
def literal : Json → Literal
  | .null => .null
  | .bool b => .bool b
  | .num n => .number (Nat.toDigits 10 n)
  | .str s => .string (escape s.toList)
  | .arr items => .array (literalsOf items)
  | .obj members => .object (memberLiteralsOf members)

def literalsOf : List Json → List Literal
  | [] => []
  | j :: rest => j.literal :: literalsOf rest

def memberLiteralsOf : List (String × Json) → List (List Char × Literal)
  | [] => []
  | (name, j) :: rest => (escape name.toList, j.literal) :: memberLiteralsOf rest

end

/-- The text of a value begins with a character that is no blank and ends no array. -/
lemma exists_chars_eq_cons (j : Json) :
    ∃ c cs, j.chars = c :: cs ∧ Literal.isBlank c = false ∧ c ≠ ']' := by
  cases j with
  | null => exact ⟨'n', _, rfl, by decide, by decide⟩
  | bool b => cases b <;> exact ⟨_, _, rfl, by decide, by decide⟩
  | num n =>
      obtain ⟨c, cs, hdigits, hc⟩ := Literal.exists_toDigits_eq_cons n
      exact ⟨c, cs, hdigits, Literal.isBlank_of_isDigit hc, fun h => by rw [h] at hc; cases hc⟩
  | str s => exact ⟨'"', _, rfl, by decide, by decide⟩
  | arr items => exact ⟨'[', _, rfl, by decide, by decide⟩
  | obj members => exact ⟨'\x7b', _, rfl, by decide, by decide⟩

/-- So does the text of items. -/
lemma exists_charsOfItems_eq_cons (j : Json) (items : List Json) :
    ∃ c cs, charsOfItems (j :: items) = c :: cs ∧ Literal.isBlank c = false ∧ c ≠ ']' := by
  obtain ⟨c, cs, hchars, hc⟩ := j.exists_chars_eq_cons
  cases items with
  | nil => exact ⟨c, cs, by rw [charsOfItems, hchars], hc⟩
  | cons k items =>
      exact ⟨c, cs ++ ',' :: charsOfItems (k :: items), by simp [charsOfItems, hchars], hc⟩

/-- The text of members begins with the quote of a name. -/
lemma exists_charsOfMembers_eq_cons (name : String) (j : Json) (members : List (String × Json)) :
    ∃ cs, charsOfMembers ((name, j) :: members) = '"' :: cs := by
  cases members with
  | nil => simp [charsOfMembers, quoted]
  | cons m members => simp [charsOfMembers, quoted]

lemma chars_length_pos (j : Json) : 0 < j.chars.length := by
  obtain ⟨c, cs, hchars, -⟩ := j.exists_chars_eq_cons
  simp [hchars]

end Json

namespace Literal

lemma skipBlanks_cons {c : Char} (h : isBlank c = false) (cs : List Char) :
    skipBlanks (c :: cs) = c :: cs := by
  simp [skipBlanks, h]

/-- There are no blanks before the text of a value. -/
lemma skipBlanks_chars (j : Json) (rest : List Char) :
    skipBlanks (j.chars ++ rest) = j.chars ++ rest := by
  obtain ⟨c, cs, hchars, hc, -⟩ := j.exists_chars_eq_cons
  rw [hchars, List.cons_append, skipBlanks_cons hc]

lemma noDigit_cons {c : Char} {rest : List Char}
    (h : c.isDigit = false ∧ c ≠ '.' ∧ c ≠ 'e' ∧ c ≠ 'E') : NoDigit (c :: rest) := by
  intro d hd
  simp only [List.head?_cons, Option.mem_some_iff] at hd
  exact hd ▸ h

/-- The digits of a number are scanned as a value. -/
lemma scanValue_num (n fuel : Nat) {rest : List Char} (hrest : NoDigit rest) :
    scanValue (fuel + 1) (Nat.toDigits 10 n ++ rest)
      = some (.number (Nat.toDigits 10 n), rest) := by
  have hnumber := scanNumber_toDigits n hrest
  have hskip := skipBlanks_chars (.num n) rest
  obtain ⟨c, cs, hdigits, hc⟩ := exists_toDigits_eq_cons n
  rw [Json.chars] at hskip
  rw [scanValue, hskip]
  rw [hdigits] at hnumber ⊢
  split
  case h_7 =>
    rw [hnumber]
    rfl
  -- a digit begins nothing but a number
  all_goals
    rename_i heq
    rw [List.cons_append, List.cons.injEq] at heq
    rw [heq.1] at hc
    cases hc

/-! One step of the scanner for each way in which a value, an item or a member can go on. -/

section Rules

variable {fuel : Nat} {cs cs' rest name : List Char} {l : Literal}

/-- An array with items. -/
lemma scanValue_array {items : List Literal} (hblank : skipBlanks cs = cs)
    (hend : cs.head? ≠ some ']') (h : scanItems fuel cs = some (items, rest)) :
    scanValue (fuel + 1) ('[' :: cs) = some (.array items, rest) := by
  rw [scanValue, skipBlanks_cons (by decide)]
  simp only [hblank]
  split
  next => simp at hend
  next => simp [h]

/-- The last item of an array. -/
lemma scanItems_last (h : scanValue fuel cs = some (l, ']' :: rest)) :
    scanItems (fuel + 1) cs = some ([l], rest) := by
  simp [scanItems, h, skipBlanks_cons, isBlank]

/-- An item with others after it. -/
lemma scanItems_more {items : List Literal} (h : scanValue fuel cs = some (l, ',' :: cs'))
    (hmore : scanItems fuel cs' = some (items, rest)) :
    scanItems (fuel + 1) cs = some (l :: items, rest) := by
  simp [scanItems, h, skipBlanks_cons, isBlank, hmore]

/-- An object with members. -/
lemma scanValue_object {members : List (List Char × Literal)}
    (h : scanMembers fuel ('"' :: cs) = some (members, rest)) :
    scanValue (fuel + 1) ('\x7b' :: '"' :: cs) = some (.object members, rest) := by
  simp [scanValue, skipBlanks_cons, isBlank, h]

/-- The last member of an object. -/
lemma scanMembers_last (hname : scanString cs = some (name, ':' :: cs'))
    (h : scanValue fuel cs' = some (l, '\x7d' :: rest)) :
    scanMembers (fuel + 1) ('"' :: cs) = some ([(name, l)], rest) := by
  simp [scanMembers, skipBlanks_cons, isBlank, hname, h]

/-- A member with others after it. -/
lemma scanMembers_more {cs'' : List Char} {members : List (List Char × Literal)}
    (hname : scanString cs = some (name, ':' :: cs'))
    (h : scanValue fuel cs' = some (l, ',' :: cs''))
    (hmore : scanMembers fuel cs'' = some (members, rest)) :
    scanMembers (fuel + 1) ('"' :: cs) = some ((name, l) :: members, rest) := by
  simp [scanMembers, skipBlanks_cons, isBlank, hname, h, hmore]

end Rules

/-
The three statements are proved together, each for every rest of the text.  The scanner spends a
unit of fuel on a value and one on an item or member, so that two units for each character of the
text suffice; the fuel is also what the recursion descends on.
-/
mutual

/-- The text of a value is scanned as the literal of the value. -/
theorem scanValue_chars : ∀ (j : Json) (fuel : Nat) (rest : List Char),
    2 * j.chars.length ≤ fuel + 1 → NoDigit rest →
      scanValue (fuel + 1) (j.chars ++ rest) = some (j.literal, rest)
  | .null, fuel, rest, _, _ => by simp [Json.chars, scanValue, skipBlanks, isBlank, Json.literal]
  | .bool true, fuel, rest, _, _ => by
      simp [Json.chars, scanValue, skipBlanks, isBlank, Json.literal]
  | .bool false, fuel, rest, _, _ => by
      simp [Json.chars, scanValue, skipBlanks, isBlank, Json.literal]
  | .num n, fuel, rest, _, hrest => scanValue_num n fuel hrest
  | .str s, fuel, rest, _, _ => by
      simp [Json.chars, Json.quoted, scanValue, skipBlanks, isBlank, Json.literal,
        scanString_escape]
  | .arr [], fuel, rest, _, _ => by
      simp [Json.chars, Json.charsOfItems, scanValue, skipBlanks, isBlank, Json.literal,
        Json.literalsOf]
  | .arr (j :: items), fuel, rest, hfuel, _ => by
      simp only [Json.chars, List.length_cons, List.length_append, List.length_nil] at hfuel
      obtain ⟨fuel, rfl⟩ : ∃ k, fuel = k + 1 := ⟨fuel - 1, by omega⟩
      obtain ⟨c, cs, hchars, hc, hend⟩ := Json.exists_charsOfItems_eq_cons j items
      have hitems := scanItems_chars j items fuel rest (by omega)
      simp only [Json.chars, List.cons_append, List.append_assoc, List.nil_append, Json.literal]
      refine scanValue_array ?_ ?_ hitems
      · rw [hchars, List.cons_append, skipBlanks_cons hc]
      · simpa [hchars] using hend
  | .obj [], fuel, rest, _, _ => by
      simp [Json.chars, Json.charsOfMembers, scanValue, skipBlanks, isBlank, Json.literal,
        Json.memberLiteralsOf]
  | .obj ((name, j) :: members), fuel, rest, hfuel, _ => by
      simp only [Json.chars, List.length_cons, List.length_append, List.length_nil] at hfuel
      obtain ⟨fuel, rfl⟩ : ∃ k, fuel = k + 1 := ⟨fuel - 1, by omega⟩
      obtain ⟨cs, hchars⟩ := Json.exists_charsOfMembers_eq_cons name j members
      have hmembers := scanMembers_chars name j members fuel rest (by omega)
      simp only [Json.chars, List.cons_append, List.append_assoc, List.nil_append, Json.literal]
      rw [hchars] at hmembers ⊢
      exact scanValue_object hmembers
termination_by _ fuel => fuel

/-- The text of items, up to the end of the array. -/
theorem scanItems_chars : ∀ (j : Json) (items : List Json) (fuel : Nat) (rest : List Char),
    2 * (Json.charsOfItems (j :: items)).length ≤ fuel →
      scanItems (fuel + 1) (Json.charsOfItems (j :: items) ++ ']' :: rest)
        = some (Json.literalsOf (j :: items), rest)
  | j, [], fuel, rest, hfuel => by
      rw [Json.charsOfItems] at hfuel ⊢
      have hpos := j.chars_length_pos
      obtain ⟨fuel, rfl⟩ : ∃ k, fuel = k + 1 := ⟨fuel - 1, by omega⟩
      exact scanItems_last (scanValue_chars j fuel _ hfuel (noDigit_cons (by decide)))
  | j, k :: items, fuel, rest, hfuel => by
      simp only [Json.charsOfItems, List.length_append, List.length_cons] at hfuel
      obtain ⟨fuel, rfl⟩ : ∃ k, fuel = k + 1 := ⟨fuel - 1, by omega⟩
      have hvalue := scanValue_chars j fuel
        (',' :: (Json.charsOfItems (k :: items) ++ ']' :: rest)) (by omega)
        (noDigit_cons (by decide))
      have hmore := scanItems_chars k items fuel rest (by omega)
      simp only [Json.charsOfItems, List.append_assoc, List.cons_append]
      exact scanItems_more hvalue hmore
termination_by _ _ fuel => fuel

/-- The text of members, up to the end of the object. -/
theorem scanMembers_chars : ∀ (name : String) (j : Json) (members : List (String × Json))
    (fuel : Nat) (rest : List Char),
    2 * (Json.charsOfMembers ((name, j) :: members)).length ≤ fuel →
      scanMembers (fuel + 1) (Json.charsOfMembers ((name, j) :: members) ++ '\x7d' :: rest)
        = some (Json.memberLiteralsOf ((name, j) :: members), rest)
  | name, j, [], fuel, rest, hfuel => by
      simp only [Json.charsOfMembers, List.length_append, List.length_cons] at hfuel
      obtain ⟨fuel, rfl⟩ : ∃ k, fuel = k + 1 := ⟨fuel - 1, by omega⟩
      have hvalue := scanValue_chars j fuel ('\x7d' :: rest) (by omega) (noDigit_cons (by decide))
      simp only [Json.charsOfMembers, Json.quoted, List.cons_append, List.append_assoc,
        List.nil_append]
      exact scanMembers_last (scanString_escape _ _) hvalue
  | name, j, (name', k) :: members, fuel, rest, hfuel => by
      simp only [Json.charsOfMembers, List.length_append, List.length_cons] at hfuel
      obtain ⟨fuel, rfl⟩ : ∃ k, fuel = k + 1 := ⟨fuel - 1, by omega⟩
      have hvalue := scanValue_chars j fuel
        (',' :: (Json.charsOfMembers ((name', k) :: members) ++ '\x7d' :: rest)) (by omega)
        (noDigit_cons (by decide))
      have hmore := scanMembers_chars name' k members fuel rest (by omega)
      simp only [Json.charsOfMembers, Json.quoted, List.cons_append, List.append_assoc,
        List.nil_append]
      exact scanMembers_more (scanString_escape _ _) hvalue hmore
termination_by _ _ _ fuel => fuel

end

/-- The text of a value is read, and taken apart as it was put together. -/
lemma ofText?_render (j : Json) : ofText? j.render = some j.literal := by
  have hscan := scanValue_chars j (2 * j.chars.length) [] (by omega) (by simp [NoDigit])
  rw [List.append_nil] at hscan
  simp [ofText?, ofChars?, Json.render, hscan, skipBlanks]

end Literal

end GoReach
