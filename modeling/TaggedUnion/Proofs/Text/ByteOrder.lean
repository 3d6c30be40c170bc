/-
The order of texts is the order of their bytes. Texts are compared by code points; UTF-8 keeps that
order, because at the first place where two encodings differ the lesser code point has the lesser byte,
and no encoding is the beginning of another.
-/
import Mathlib.Data.Char

namespace TaggedUnion.Text

/-- The bytes of a text in UTF-8. -/
def bytes (s : String) : List UInt8 := s.toUTF8.data.toList

theorem bytes_eq_flatMap (s : String) : bytes s = s.toList.flatMap String.utf8EncodeChar := by
  rw [bytes, String.toUTF8, ← String.utf8Encode_toList, List.utf8Encode, List.toList_data_toByteArray]

/-! ## One character -/

theorem ofNat_lt_ofNat_iff {m n : Nat} (hm : m < 256) (hn : n < 256) :
    UInt8.ofNat m < UInt8.ofNat n ↔ m < n := by
  rw [UInt8.lt_iff_toNat_lt, UInt8.toNat_ofNat', UInt8.toNat_ofNat', Nat.mod_eq_of_lt hm,
    Nat.mod_eq_of_lt hn]

theorem ofNat_eq_ofNat_iff {m n : Nat} (hm : m < 256) (hn : n < 256) :
    UInt8.ofNat m = UInt8.ofNat n ↔ m = n := by
  rw [← UInt8.toNat_inj, UInt8.toNat_ofNat', UInt8.toNat_ofNat', Nat.mod_eq_of_lt hm,
    Nat.mod_eq_of_lt hn]

/-- Of two numbers the lesser has the lesser digit to the base 64 at the first place, counted from the
third on downwards, where their digits differ. -/
theorem digits_lt {m n : Nat} (h : m < n) :
    m / 262144 < n / 262144 ∨ m / 262144 = n / 262144 ∧
      (m / 4096 % 64 < n / 4096 % 64 ∨ m / 4096 % 64 = n / 4096 % 64 ∧
        (m / 64 % 64 < n / 64 % 64 ∨ m / 64 % 64 = n / 64 % 64 ∧ m % 64 < n % 64)) := by
  have hm₁ := Nat.div_div_eq_div_mul m 64 64
  have hn₁ := Nat.div_div_eq_div_mul n 64 64
  have hm₂ := Nat.div_div_eq_div_mul m 4096 64
  have hn₂ := Nat.div_div_eq_div_mul n 4096 64
  rcases Nat.lt_or_ge (m / 262144) (n / 262144) with h₃ | h₃
  · exact .inl h₃
  refine .inr ⟨by omega, ?_⟩
  rcases Nat.lt_or_ge (m / 4096) (n / 4096) with h₂ | h₂
  · exact .inl (by omega)
  refine .inr ⟨by omega, ?_⟩
  rcases Nat.lt_or_ge (m / 64) (n / 64) with h₁ | h₁
  · exact .inl (by omega)
  · exact .inr ⟨by omega, by omega⟩

/-- The encoding of a lesser code point is less at the first byte where the two differ, whatever
follows them. -/
theorem encode_append_lt {c d : Char} (h : c < d) (as bs : List UInt8) :
    String.utf8EncodeChar c ++ as < String.utf8EncodeChar d ++ bs := by
  have hlt : c.val.toNat < d.val.toNat := h
  have hd : d.val.toNat < 1114112 := by
    rcases d.valid with low | ⟨-, high⟩
    · exact Nat.lt_trans low (by decide)
    · exact high
  have first := digits_lt hlt
  have leadc : c.val.toNat / 262144 % 8 = c.val.toNat / 262144 := Nat.mod_eq_of_lt (by omega)
  have leadd : d.val.toNat / 262144 % 8 = d.val.toNat / 262144 := Nat.mod_eq_of_lt (by omega)
  simp only [String.utf8EncodeChar]
  -- one, two, three or four bytes for each of them
  split_ifs <;>
    simp only [List.cons_append, List.nil_append, List.cons_lt_cons_iff] <;>
    simp (disch := omega) only [ofNat_lt_ofNat_iff, ofNat_eq_ofNat_iff] <;>
    omega

/-! ## Whole texts -/

theorem append_lt_append_iff (bs as cs : List UInt8) : bs ++ as < bs ++ cs ↔ as < cs := by
  induction bs with
  | nil => rfl
  | cons b bs ih =>
    rw [List.cons_append, List.cons_append, List.cons_lt_cons_iff, ih]
    simp [UInt8.lt_irrefl]

theorem encode_append_ne_nil (c : Char) (bs : List UInt8) : String.utf8EncodeChar c ++ bs ≠ [] := by
  simp [String.utf8EncodeChar_ne_nil]

theorem flatMap_encode_lt_iff : ∀ cs ds : List Char,
    cs.flatMap String.utf8EncodeChar < ds.flatMap String.utf8EncodeChar ↔ cs < ds
  | _, [] => by simp
  | [], d :: ds => by
    obtain ⟨b, bs, h⟩ := List.exists_cons_of_ne_nil (encode_append_ne_nil d (ds.flatMap String.utf8EncodeChar))
    rw [List.flatMap_cons, h]
    simp
  | c :: cs, d :: ds => by
    rw [List.flatMap_cons, List.flatMap_cons, List.cons_lt_cons_iff]
    rcases lt_trichotomy c d with h | rfl | h
    · exact ⟨fun _ => .inl h, fun _ => encode_append_lt h _ _⟩
    · rw [append_lt_append_iff, flatMap_encode_lt_iff cs ds]
      constructor
      · exact fun less => .inr ⟨rfl, less⟩
      · rintro (less | ⟨-, less⟩)
        · exact absurd less (lt_irrefl _)
        · exact less
    · constructor
      · intro less
        exact absurd less (List.lt_asymm (encode_append_lt h _ _))
      · rintro (less | ⟨rfl, -⟩)
        · exact absurd less (lt_asymm h)
        · exact absurd h (lt_irrefl _)

theorem lt_iff_bytes_lt {s t : String} : s < t ↔ bytes s < bytes t := by
  rw [bytes_eq_flatMap, bytes_eq_flatMap, flatMap_encode_lt_iff]
  rfl

/-- Texts are in the order of their bytes. -/
theorem le_iff_bytes_le {s t : String} : s ≤ t ↔ bytes s ≤ bytes t := by
  rw [← String.not_lt, ← List.not_lt, lt_iff_bytes_lt]

end TaggedUnion.Text
