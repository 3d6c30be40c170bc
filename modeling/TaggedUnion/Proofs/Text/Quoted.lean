/-
Quoted texts can be read back in one way. Whatever follows an escape, it tells its character, and no escape begins
with a quote; so the quote that ends a quoted text is the first that is not inside an escape, and the characters in
front of it are known one after another.
-/
import TaggedUnion.Text.Quoted
import Mathlib.Data.List.Basic

namespace TaggedUnion.Text

variable {c d : Char} {cs ds rest rest' : List Char}

/-- The longest beginning of a text in which all characters have a property is known. -/
theorem append_eq_append_iff_of_ends {p : Char → Prop} (hcs : ∀ c ∈ cs, p c) (hds : ∀ c ∈ ds, p c)
    (ends : ∀ c ∈ rest.head?, ¬ p c) (ends' : ∀ c ∈ rest'.head?, ¬ p c) :
    cs ++ rest = ds ++ rest' ↔ cs = ds ∧ rest = rest' := by
  constructor
  · intro same
    induction cs generalizing ds with
    | nil =>
      cases ds with
      | nil => exact ⟨rfl, same⟩
      | cons d ds =>
        rw [List.nil_append] at same
        exact absurd (hds d List.mem_cons_self) (ends d (by rw [same]; rfl))
    | cons c cs ih =>
      cases ds with
      | nil =>
        rw [List.nil_append] at same
        exact absurd (hcs c List.mem_cons_self) (ends' c (by rw [← same]; rfl))
      | cons d ds =>
        rw [List.cons_append, List.cons_append, List.cons_eq_cons] at same
        obtain ⟨rfl, same⟩ := same
        obtain ⟨rfl, rfl⟩ := ih (List.forall_mem_cons.1 hcs).2 (List.forall_mem_cons.1 hds).2 same
        exact ⟨rfl, rfl⟩
  · rintro ⟨rfl, rfl⟩
    rfl

/-! ## Code points -/

theorem digitChar_inj {m n : Nat} (hm : m < 16) (hn : n < 16) : Nat.digitChar m = Nat.digitChar n ↔ m = n := by
  have inj : ∀ m n : Fin 16, Nat.digitChar m = Nat.digitChar n → m = n := by decide
  exact ⟨fun same => congrArg Fin.val (inj ⟨m, hm⟩ ⟨n, hn⟩ same), congrArg Nat.digitChar⟩

/-- A number is known from its hexadecimal digits. -/
theorem toDigits_inj {m n : Nat} : Nat.toDigits 16 m = Nat.toDigits 16 n ↔ m = n := by
  refine ⟨fun same => ?_, congrArg (Nat.toDigits 16)⟩
  induction m using Nat.strongRecOn generalizing n with
  | _ m ih =>
    have short : ∀ k, Nat.toDigits 16 k ≠ [] := fun k => Nat.toDigits_ne_nil
    rcases Nat.lt_or_ge m 16 with hm | hm <;> rcases Nat.lt_or_ge n 16 with hn | hn
    · rw [Nat.toDigits_of_lt_base hm, Nat.toDigits_of_lt_base hn] at same
      exact (digitChar_inj hm hn).1 (List.singleton_inj.1 same)
    · rw [Nat.toDigits_of_lt_base hm, Nat.toDigits_of_base_le (by decide) hn] at same
      exact absurd (List.append_eq_singleton_iff.1 same.symm) (by simp [short])
    · rw [Nat.toDigits_of_base_le (by decide) hm, Nat.toDigits_of_lt_base hn] at same
      exact absurd (List.append_eq_singleton_iff.1 same) (by simp [short])
    · rw [Nat.toDigits_of_base_le (by decide) hm, Nat.toDigits_of_base_le (by decide) hn] at same
      obtain ⟨init, last⟩ := List.append_inj' same rfl
      have quotient := ih (m / 16) (by omega) init
      have remainder := (digitChar_inj (Nat.mod_lt m (by decide)) (Nat.mod_lt n (by decide))).1 (List.singleton_inj.1 last)
      omega

theorem ne_brace_of_mem_toDigits {n : Nat} : ∀ c ∈ Nat.toDigits 16 n, c ≠ '\x7d' := by
  induction n using Nat.strongRecOn with
  | _ n ih =>
    rw [Nat.toDigits_eq_if (by decide)]
    split
    · simp
    · next large =>
      refine List.forall_mem_append.2 ⟨ih (n / 16) (by omega), ?_⟩
      simp

theorem codePointEscape_append_inj : codePointEscape c ++ rest = codePointEscape d ++ rest' ↔ c = d ∧ rest = rest' := by
  simp only [codePointEscape, List.append_assoc, List.cons_append, List.nil_append, List.cons.injEq, true_and]
  rw [append_eq_append_iff_of_ends ne_brace_of_mem_toDigits ne_brace_of_mem_toDigits (by simp) (by simp), toDigits_inj,
    Char.toNat_inj]
  simp

/-! ## Escapes -/

/-- The printable characters of ASCII, which all versions of Unicode have a glyph for. -/
@[reducible]
def Glyphs.ascii : Glyphs := ⟨fun c => decide (' ' ≤ c ∧ c ≤ '~')⟩

/-- The characters that have an escape of one letter, with it. -/
def letterEscapes : List (Char × Char) :=
  [('\x00', '0'), ('\t', 't'), ('\n', 'n'), ('\r', 'r'), ('"', '"'), ('\\', '\\')]

/-- How a character is written. -/
inductive Escape (c : Char) : List Char → Prop where
  | letter (k : Char) (mem : (c, k) ∈ letterEscapes) : Escape c ['\\', k]
  | codePoint : Escape c (codePointEscape c)
  | plain (noBackslash : c ≠ '\\') (noQuote : c ≠ '"') : Escape c [c]

theorem escape_escape [Glyphs] (c : Char) : Escape c (escape c) := by
  unfold escape
  split
  case h_7 noNull noTab noFeed noReturn noQuote noBackslash =>
    split
    · exact .plain noBackslash noQuote
    · exact .codePoint
  all_goals exact .letter _ (by decide)

theorem Escape.head_ne_quote {es : List Char} (escape : Escape c es) : ∃ e es', es = e :: es' ∧ e ≠ '"' := by
  cases escape with
  | letter | codePoint => exact ⟨_, _, rfl, by decide⟩
  | plain _ noQuote => exact ⟨_, _, rfl, noQuote⟩

/-- Whatever follows the escape of a character, the character is known. -/
theorem Escape.append_inj {es es' : List Char} (escape : Escape c es) (escape' : Escape d es')
    (same : es ++ rest = es' ++ rest') : c = d ∧ rest = rest' := by
  have letter_inj : ∀ p ∈ letterEscapes, ∀ q ∈ letterEscapes, p.2 = q.2 → p.1 = q.1 := by decide
  have letter_ne_u : ∀ p ∈ letterEscapes, p.2 ≠ 'u' := by decide
  cases escape with
  | letter k mem =>
    cases escape' with
    | letter k' mem' =>
      obtain ⟨-, letter, rest⟩ : '\\' = '\\' ∧ k = k' ∧ rest = rest' := by simpa using same
      exact ⟨letter_inj _ mem _ mem' letter, rest⟩
    | codePoint => exact absurd (List.cons.inj (List.cons.inj same).2).1 (letter_ne_u _ mem)
    | plain noBackslash => exact absurd (List.cons.inj same).1.symm noBackslash
  | codePoint =>
    cases escape' with
    | letter k' mem' => exact absurd (List.cons.inj (List.cons.inj same).2).1.symm (letter_ne_u _ mem')
    | codePoint => exact codePointEscape_append_inj.1 same
    | plain noBackslash => exact absurd (List.cons.inj same).1.symm noBackslash
  | plain noBackslash =>
    cases escape' with
    | letter | codePoint => exact absurd (List.cons.inj same).1 noBackslash
    | plain => exact List.cons_eq_cons.1 same

variable [Glyphs]

theorem escape_append_inj : escape c ++ rest = escape d ++ rest' ↔ c = d ∧ rest = rest' := by
  refine ⟨(escape_escape c).append_inj (escape_escape d), ?_⟩
  rintro ⟨rfl, rfl⟩
  rfl

/-! ## Quoted texts -/

/-- Whatever follows a quoted text, the text is known. -/
theorem quotedChars_append_inj : quotedChars cs ++ rest = quotedChars ds ++ rest' ↔ cs = ds ∧ rest = rest' := by
  constructor
  · intro same
    simp only [quotedChars, List.cons_append, List.append_assoc, List.nil_append, List.cons.injEq, true_and] at same
    induction cs generalizing ds with
    | nil =>
      cases ds with
      | nil => exact ⟨rfl, (List.cons.inj same).2⟩
      | cons d ds =>
        obtain ⟨e, es, head, noQuote⟩ := (escape_escape d).head_ne_quote
        rw [List.flatMap_cons, head] at same
        exact absurd (List.cons.inj same).1.symm noQuote
    | cons c cs ih =>
      cases ds with
      | nil =>
        obtain ⟨e, es, head, noQuote⟩ := (escape_escape c).head_ne_quote
        rw [List.flatMap_cons, head] at same
        exact absurd (List.cons.inj same).1 noQuote
      | cons d ds =>
        rw [List.flatMap_cons, List.flatMap_cons, List.append_assoc, List.append_assoc, escape_append_inj] at same
        obtain ⟨rfl, same⟩ := same
        obtain ⟨rfl, rest⟩ := ih same
        exact ⟨rfl, rest⟩
  · rintro ⟨rfl, rfl⟩
    rfl

end TaggedUnion.Text
