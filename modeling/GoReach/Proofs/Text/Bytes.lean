import Mathlib.Tactic.Lemma
import Mathlib.Tactic.SplitIfs

/-!
# The order of texts by their bytes

Texts are compared character by character.  That is the same as to compare their bytes
(`bytes_lt_of_lt`): the bytes of a character hold its digits to the base 64, the highest ones first,
and the more digits there are, the greater is the first byte (`utf8EncodeChar_lt`).
-/

namespace GoReach.Text

/-- The bytes of a text. -/
def bytes (s : String) : List UInt8 := s.toUTF8.data.toList

lemma bytes_eq_flatMap (s : String) : bytes s = s.toList.flatMap String.utf8EncodeChar := by
  rw [bytes, String.toUTF8_eq_toByteArray, ← String.utf8Encode_toList, List.utf8Encode,
    List.data_toByteArray]

lemma cons_ofNat_lt {m n : Nat} (hm : m < 256) (hn : n < 256) {as bs : List UInt8} :
    UInt8.ofNat m :: as < UInt8.ofNat n :: bs ↔ m < n ∨ (m = n ∧ as < bs) := by
  rw [List.cons_lt_cons_iff, UInt8.lt_iff_toNat_lt, ← UInt8.toNat_inj, UInt8.toNat_ofNat_of_lt' hm,
    UInt8.toNat_ofNat_of_lt' hn]

/-- The smaller number has the smaller digit at the first place where the two differ. -/
lemma digits_lt {m n : Nat} (h : m < n) :
    m / 262144 < n / 262144 ∨ (m / 262144 = n / 262144 ∧ (m / 4096 % 64 < n / 4096 % 64 ∨
      (m / 4096 % 64 = n / 4096 % 64 ∧ (m / 64 % 64 < n / 64 % 64 ∨
        (m / 64 % 64 = n / 64 % 64 ∧ m % 64 < n % 64))))) := by
  have step : ∀ {m n : Nat}, m < n → m / 64 < n / 64 ∨ (m / 64 = n / 64 ∧ m % 64 < n % 64) := by
    omega
  have hdiv : ∀ k : Nat, k / 4096 = k / 64 / 64 ∧ k / 262144 = k / 64 / 64 / 64 := by omega
  rw [(hdiv m).1, (hdiv m).2, (hdiv n).1, (hdiv n).2]
  rcases step h with h₁ | ⟨h₁, h₀⟩
  · rcases step h₁ with h₂ | ⟨h₂, h₁⟩
    · rcases step h₂ with h₃ | ⟨h₃, h₂⟩
      · exact .inl h₃
      · exact .inr ⟨h₃, .inl h₂⟩
    · exact .inr ⟨by rw [h₂], .inr ⟨by rw [h₂], .inl h₁⟩⟩
  · exact .inr ⟨by rw [h₁], .inr ⟨by rw [h₁], .inr ⟨by rw [h₁], h₀⟩⟩⟩

/-- A character that comes before another has the smaller byte where the two first differ. -/
lemma utf8EncodeChar_lt {c d : Char} (h : c < d) (as bs : List UInt8) :
    String.utf8EncodeChar c ++ as < String.utf8EncodeChar d ++ bs := by
  have hval : c.val.toNat < d.val.toNat := UInt32.lt_iff_toNat_lt.1 h
  have hd : d.val.toNat < 0x110000 := by
    rcases d.valid with hd | ⟨-, hd⟩
    · exact Nat.lt_trans hd (by decide)
    · exact hd
  have hdigits := digits_lt hval
  unfold String.utf8EncodeChar
  generalize c.val.toNat = m at hval hdigits
  generalize d.val.toNat = n at hval hdigits hd
  have hlead : ∀ k < 0x110000, k / 262144 % 8 = k / 262144 := by omega
  rw [← hlead m (by omega), ← hlead n hd] at hdigits
  dsimp only
  split_ifs <;>
    simp (disch := omega) only [List.cons_append, List.nil_append, cons_ofNat_lt] <;>
    omega

lemma flatMap_utf8EncodeChar_lt {as bs : List Char} (h : as < bs) :
    as.flatMap String.utf8EncodeChar < bs.flatMap String.utf8EncodeChar := by
  induction as generalizing bs with
  | nil =>
      cases bs with
      | nil => cases h
      | cons b bs =>
          obtain ⟨x, xs, hx⟩ := List.exists_cons_of_ne_nil (@String.utf8EncodeChar_ne_nil b)
          simp [hx]
  | cons a as ih =>
      cases bs with
      | nil => cases h
      | cons b bs =>
          rw [List.flatMap_cons, List.flatMap_cons]
          rcases List.cons_lt_cons_iff.1 h with hab | ⟨rfl, has⟩
          · exact utf8EncodeChar_lt hab _ _
          · exact List.append_left_lt (ih has)

/-- The order of texts is that of their bytes. -/
lemma bytes_lt_of_lt {s t : String} (h : s < t) : bytes s < bytes t := by
  rw [bytes_eq_flatMap, bytes_eq_flatMap]
  exact flatMap_utf8EncodeChar_lt h

end GoReach.Text
