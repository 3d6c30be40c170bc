/-
Decimal numerals as they are written: a sign, digits, digits after a point, and an exponent. Their texts are exactly
the words of the regular expression `[+-]?([0-9]+(\.[0-9]*)?|\.[0-9]+)([eE][+-]?[0-9]+)?`, and reading accepts
exactly these texts. What is read is the value of the numeral, rounded to the nearest number.
-/
import Mathlib.Computability.RegularExpressions
import Mathlib.Data.List.TakeWhile
import Mathlib.Tactic.FinCases
import Mathlib.Tactic.IntervalCases
import TaggedUnion.Proofs.Binary64.Rounding

namespace TaggedUnion

/-! ## Numerals -/

inductive Sign
  | none
  | plus
  | minus
deriving DecidableEq

namespace Sign

def chars : Sign → List Char
  | none => []
  | plus => ['+']
  | minus => ['-']

def isMinus : Sign → Bool
  | minus => true
  | _ => false

end Sign

@[ext]
structure Digits where
  chars : List Char
  isDigit : ∀ c ∈ chars, c.isDigit = true

namespace Digits

def value (ds : Digits) : Nat := Nat.ofDigitChars 10 ds.chars 0

def empty : Digits := ⟨[], fun _ h => nomatch h⟩

theorem natOfDigits_chars (ds : Digits) : Binary64.natOfDigits ds.chars = ds.value := Nat.ofDigitChars_eq_foldl.symm

theorem head_ne_sign (ds : Digits) : ∀ c ∈ ds.chars.head?, c ≠ '+' ∧ c ≠ '-' := by
  intro c hc
  have isDigit := ds.isDigit c (List.mem_of_mem_head? hc)
  constructor
  · rintro rfl
    cases isDigit
  · rintro rfl
    cases isDigit

theorem isEmpty_or_not_all_iff {cs : List Char} :
    (cs.isEmpty || !cs.all Char.isDigit) = false ↔ ∃ ds : Digits, ds.chars = cs ∧ ds.chars ≠ [] := by
  rw [Bool.or_eq_false_iff, List.isEmpty_eq_false_iff, Bool.not_eq_false', List.all_eq_true]
  constructor
  · rintro ⟨hasDigit, isDigit⟩
    exact ⟨⟨cs, isDigit⟩, rfl, hasDigit⟩
  · rintro ⟨ds, rfl, hasDigit⟩
    exact ⟨hasDigit, ds.isDigit⟩

end Digits

/-- What ends a numeral: a letter, a sign and at least one digit. -/
structure Exponent where
  isUpper : Bool
  sign : Sign
  digits : Digits
  hasDigit : digits.chars ≠ []

namespace Exponent

def chars (e : Exponent) : List Char := (if e.isUpper then 'E' else 'e') :: (e.sign.chars ++ e.digits.chars)

def value (e : Exponent) : ℤ := if e.sign.isMinus then -e.digits.value else e.digits.value

end Exponent

/-- A numeral has a digit before or after its point. There may be a point with nothing after it. -/
structure Numeral where
  sign : Sign
  whole : Digits
  fraction : Option Digits
  exponent : Option Exponent
  hasDigit : whole.chars ≠ [] ∨ (fraction.getD Digits.empty).chars ≠ []

namespace Numeral

variable (n : Numeral)

def pointChars : Option Digits → List Char
  | none => []
  | some ds => '.' :: ds.chars

def exponentChars : Option Exponent → List Char
  | none => []
  | some e => e.chars

def chars : List Char := n.sign.chars ++ (n.whole.chars ++ (pointChars n.fraction ++ exponentChars n.exponent))

def fractionDigits : Digits := n.fraction.getD Digits.empty

def scale : ℤ := (n.exponent.map Exponent.value).getD 0

/-- The number that a numeral is written for: `± whole.fraction · 10 ^ scale`. -/
def value : ℚ :=
  Binary64.signFactor n.sign.isMinus *
    ((n.whole.value + n.fractionDigits.value / 10 ^ n.fractionDigits.chars.length) * 10 ^ n.scale)

def IsInteger : Prop := n.fraction = none ∧ n.exponent = none

end Numeral

/-! ## The grammar -/

namespace Grammar

open RegularExpression

def digit : RegularExpression Char :=
  char '0' + char '1' + char '2' + char '3' + char '4' + char '5' + char '6' + char '7' + char '8' + char '9'

/-- The regular expression `[0-9]+`. -/
def digits : RegularExpression Char := digit * digit.star

/-- The regular expression `[+-]?`. -/
def sign : RegularExpression Char := 1 + (char '+' + char '-')

/-- The regular expression `[+-]?[0-9]+`. -/
def integer : RegularExpression Char := sign * digits

/-- The regular expression `([eE][+-]?[0-9]+)?`. -/
def exponent : RegularExpression Char := 1 + (char 'e' + char 'E') * (sign * digits)

/-- The regular expression `[+-]?([0-9]+(\.[0-9]*)?|\.[0-9]+)([eE][+-]?[0-9]+)?`. -/
def decimal : RegularExpression Char :=
  sign * ((digits * (1 + char '.' * digit.star) + char '.' * digits) * exponent)

variable {cs : List Char}

theorem isDigit_iff_mem {c : Char} :
    c.isDigit = true ↔ c ∈ ['0', '1', '2', '3', '4', '5', '6', '7', '8', '9'] := by
  constructor
  · intro isDigit
    have low : 48 ≤ c.toNat := (Char.isDigit_iff_toNat.1 isDigit).1
    have high : c.toNat ≤ 57 := (Char.isDigit_iff_toNat.1 isDigit).2
    rw [← Char.ofNat_toNat c]
    interval_cases c.toNat <;> decide
  · intro isMember
    fin_cases isMember <;> rfl

theorem mem_char_iff {c : Char} : cs ∈ (char c).matches' ↔ cs = [c] := Iff.rfl

theorem mem_digit_iff : cs ∈ digit.matches' ↔ ∃ c : Char, c.isDigit = true ∧ cs = [c] := by
  simp only [digit, matches'_add, Language.mem_add, mem_char_iff, isDigit_iff_mem, List.mem_cons, List.not_mem_nil,
    or_false, or_and_right, exists_or, exists_eq_left, or_assoc]

theorem mem_star_digit_iff : cs ∈ digit.star.matches' ↔ ∀ c ∈ cs, c.isDigit = true := by
  rw [matches'_star, Language.mem_kstar]
  constructor
  · rintro ⟨words, rfl, digits⟩ c hc
    obtain ⟨word, hword, hc⟩ := List.mem_flatten.1 hc
    obtain ⟨d, isDigit, rfl⟩ := mem_digit_iff.1 (digits word hword)
    rwa [List.mem_singleton.1 hc]
  · intro isDigit
    refine ⟨cs.map fun c => [c], by rw [← List.flatMap_def, List.flatMap_singleton'], ?_⟩
    intro word hword
    obtain ⟨c, hc, rfl⟩ := List.mem_map.1 hword
    exact mem_digit_iff.2 ⟨c, isDigit c hc, rfl⟩

theorem mem_digits_iff : cs ∈ digits.matches' ↔ ∃ ds : Digits, ds.chars = cs ∧ cs ≠ [] := by
  rw [digits, matches'_mul, Language.mem_mul]
  constructor
  · rintro ⟨first, hfirst, more, hmore, rfl⟩
    obtain ⟨c, isDigit, rfl⟩ := mem_digit_iff.1 hfirst
    exact ⟨⟨c :: more, List.forall_mem_cons.2 ⟨isDigit, mem_star_digit_iff.1 hmore⟩⟩, rfl, List.cons_ne_nil _ _⟩
  · rintro ⟨⟨cs, isDigit⟩, rfl, hasDigit⟩
    obtain ⟨c, more, rfl⟩ := List.exists_cons_of_ne_nil hasDigit
    rw [List.forall_mem_cons] at isDigit
    exact ⟨[c], mem_digit_iff.2 ⟨c, isDigit.1, rfl⟩, more, mem_star_digit_iff.2 isDigit.2, rfl⟩

theorem mem_sign_iff : cs ∈ sign.matches' ↔ ∃ s : Sign, s.chars = cs := by
  simp only [sign, matches'_add, matches'_epsilon, mem_char_iff, Language.mem_add,
    Language.mem_one]
  constructor
  · rintro (rfl | rfl | rfl)
    · exact ⟨.none, rfl⟩
    · exact ⟨.plus, rfl⟩
    · exact ⟨.minus, rfl⟩
  · rintro ⟨s, rfl⟩
    cases s with
    | none => exact Or.inl rfl
    | plus => exact Or.inr (Or.inl rfl)
    | minus => exact Or.inr (Or.inr rfl)

theorem mem_exponent_iff : cs ∈ exponent.matches' ↔ ∃ e, Numeral.exponentChars e = cs := by
  simp only [exponent, matches'_add, matches'_mul, matches'_epsilon, mem_char_iff, Language.mem_add,
    Language.mem_one, Language.mem_mul, mem_sign_iff, mem_digits_iff]
  constructor
  · rintro (rfl | ⟨letter, isLetter, _, ⟨_, ⟨s, rfl⟩, _, ⟨ds, rfl, hasDigit⟩, rfl⟩, rfl⟩)
    · exact ⟨none, rfl⟩
    · rcases isLetter with rfl | rfl
      · exact ⟨some ⟨false, s, ds, hasDigit⟩, rfl⟩
      · exact ⟨some ⟨true, s, ds, hasDigit⟩, rfl⟩
  · rintro ⟨_ | ⟨isUpper, s, ds, hasDigit⟩, rfl⟩
    · exact Or.inl rfl
    · refine Or.inr ⟨[if isUpper then 'E' else 'e'], ?_, _, ⟨_, ⟨s, rfl⟩, _, ⟨ds, rfl, hasDigit⟩, rfl⟩, rfl⟩
      cases isUpper with
      | false => exact Or.inl rfl
      | true => exact Or.inr rfl

theorem mem_integer_iff : cs ∈ integer.matches' ↔ ∃ n : Numeral, n.chars = cs ∧ n.IsInteger := by
  simp only [integer, matches'_mul, Language.mem_mul, mem_sign_iff, mem_digits_iff]
  constructor
  · rintro ⟨_, ⟨s, rfl⟩, _, ⟨ds, rfl, hasDigit⟩, rfl⟩
    refine ⟨⟨s, ds, none, none, Or.inl hasDigit⟩, ?_, rfl, rfl⟩
    simp [Numeral.chars, Numeral.pointChars, Numeral.exponentChars]
  · rintro ⟨⟨s, ds, _, _, hasDigit⟩, rfl, rfl, rfl⟩
    refine ⟨_, ⟨s, rfl⟩, _, ⟨ds, rfl, ?_⟩, ?_⟩
    · exact hasDigit.resolve_right fun h => h rfl
    · simp [Numeral.chars, Numeral.pointChars, Numeral.exponentChars]

theorem mem_decimal_iff : cs ∈ decimal.matches' ↔ ∃ n : Numeral, n.chars = cs := by
  simp only [decimal, matches'_mul, matches'_add, matches'_epsilon, mem_char_iff, Language.mem_mul,
    Language.mem_add, Language.mem_one, mem_sign_iff, mem_digits_iff, mem_exponent_iff, mem_star_digit_iff]
  constructor
  · rintro ⟨_, ⟨s, rfl⟩, _, ⟨_, mantissa, _, ⟨e, rfl⟩, rfl⟩, rfl⟩
    rcases mantissa with ⟨_, ⟨ds, rfl, hasDigit⟩, _, rfl | ⟨_, rfl, fs, isDigit, rfl⟩, rfl⟩ |
      ⟨_, rfl, _, ⟨fs, rfl, hasDigit⟩, rfl⟩
    · exact ⟨⟨s, ds, none, e, Or.inl hasDigit⟩, by simp [Numeral.chars, Numeral.pointChars]⟩
    · exact ⟨⟨s, ds, some ⟨fs, isDigit⟩, e, Or.inl hasDigit⟩, by simp [Numeral.chars, Numeral.pointChars]⟩
    · exact ⟨⟨s, .empty, some fs, e, Or.inr hasDigit⟩, by simp [Numeral.chars, Numeral.pointChars, Digits.empty]⟩
  · rintro ⟨⟨s, ds, fraction, e, hasDigit⟩, rfl⟩
    refine ⟨_, ⟨s, rfl⟩, _, ⟨ds.chars ++ Numeral.pointChars fraction, ?_, _, ⟨e, rfl⟩, rfl⟩, ?_⟩
    · cases fraction with
      | none => exact Or.inl ⟨_, ⟨ds, rfl, hasDigit.resolve_right fun h => h rfl⟩, [], Or.inl rfl, rfl⟩
      | some fs =>
        rcases eq_or_ne ds.chars [] with nothing | hasWhole
        · rw [nothing]
          exact Or.inr ⟨_, rfl, _, ⟨fs, rfl, hasDigit.resolve_left fun h => h nothing⟩, rfl⟩
        · exact Or.inl ⟨_, ⟨ds, rfl, hasWhole⟩, _, Or.inr ⟨_, rfl, _, fs.isDigit, rfl⟩, rfl⟩
    · simp [Numeral.chars]

end Grammar

/-! ## Reading -/

namespace Binary64

open Numeral (pointChars exponentChars)

variable {cs rest : List Char}

theorem splitSign_chars_append (s : Sign) (head : ∀ c ∈ rest.head?, c ≠ '+' ∧ c ≠ '-') :
    splitSign (s.chars ++ rest) = (s.isMinus, rest) := by
  cases s with
  | plus => rfl
  | minus => rfl
  | none =>
    show splitSign rest = _
    unfold splitSign
    split
    · exact absurd rfl (head _ rfl).2
    · exact absurd rfl (head _ rfl).1
    · rfl

theorem exists_sign (cs : List Char) :
    ∃ (s : Sign) (rest : List Char), splitSign cs = (s.isMinus, rest) ∧ s.chars ++ rest = cs := by
  unfold splitSign
  split
  · exact ⟨.minus, _, rfl, rfl⟩
  · exact ⟨.plus, _, rfl, rfl⟩
  · exact ⟨.none, _, rfl, rfl⟩

theorem splitDigits_chars_append (ds : Digits) (head : ∀ c ∈ rest.head?, ¬ c.isDigit = true) :
    splitDigits (ds.chars ++ rest) = (ds.chars, rest) := by
  have noDigit : rest.takeWhile Char.isDigit = [] ∧ rest.dropWhile Char.isDigit = rest := by
    cases rest with
    | nil => exact ⟨rfl, rfl⟩
    | cons c cs => simp [head c rfl]
  rw [splitDigits, List.takeWhile_append_of_pos ds.isDigit, List.dropWhile_append_of_pos ds.isDigit, noDigit.1,
    noDigit.2, List.append_nil]

theorem exists_digits (cs : List Char) :
    ∃ (ds : Digits) (rest : List Char), splitDigits cs = (ds.chars, rest) ∧ ds.chars ++ rest = cs :=
  ⟨⟨cs.takeWhile Char.isDigit, fun _ => List.mem_takeWhile_imp⟩, _, rfl, List.takeWhile_append_dropWhile⟩

theorem splitPoint_chars_append (whole : Digits) (fraction : Option Digits)
    (head : ∀ c ∈ rest.head?, ¬ c.isDigit = true ∧ c ≠ '.') :
    splitPoint (whole.chars ++ (pointChars fraction ++ rest)) =
      (whole.chars, (fraction.getD Digits.empty).chars, rest) := by
  have noDigit : ∀ c ∈ rest.head?, ¬ c.isDigit = true := fun c hc => (head c hc).1
  cases fraction with
  | none =>
    rw [splitPoint, pointChars, List.nil_append, splitDigits_chars_append whole noDigit]
    split
    next same =>
      cases same
      exact absurd rfl (head _ rfl).2
    next same =>
      cases same
      rfl
  | some ds =>
    have point : ∀ c ∈ ('.' :: (ds.chars ++ rest)).head?, ¬ c.isDigit = true := by simp
    rw [splitPoint, pointChars, List.cons_append, splitDigits_chars_append whole point]
    simp only [splitDigits_chars_append ds noDigit]
    rfl

theorem exists_point (cs : List Char) : ∃ (whole : Digits) (fraction : Option Digits) (rest : List Char),
    splitPoint cs = (whole.chars, (fraction.getD Digits.empty).chars, rest) ∧
      whole.chars ++ (pointChars fraction ++ rest) = cs := by
  obtain ⟨whole, rest, first, split⟩ := exists_digits cs
  rw [splitPoint, first]
  split
  next same =>
    cases same
    obtain ⟨ds, rest, second, more⟩ := exists_digits _
    exact ⟨whole, some ds, rest, by rw [second]; rfl, by rw [← split, ← more]; rfl⟩
  next same =>
    cases same
    exact ⟨whole, none, rest, rfl, split⟩

theorem readExponent?_eq_some_iff {k : ℤ} :
    readExponent? cs = some k ↔ ∃ e, exponentChars e = cs ∧ k = (e.map Exponent.value).getD 0 := by
  constructor
  · intro read
    unfold readExponent? at read
    split at read
    next =>
      cases read
      exact ⟨none, rfl, rfl⟩
    next letter cs =>
      split at read
      next isLetter =>
        obtain ⟨s, rest, sign, split⟩ := exists_sign cs
        rw [sign] at read
        simp only at read
        split at read
        · cases read
        next readable =>
          obtain ⟨ds, rfl, hasDigit⟩ := Digits.isEmpty_or_not_all_iff.1 (Bool.eq_false_iff.2 readable)
          cases read
          refine ⟨some ⟨letter = 'E', s, ds, hasDigit⟩, ?_, ?_⟩
          · rw [exponentChars, Exponent.chars, split]
            rcases isLetter with rfl | rfl <;> rfl
          · rw [ds.natOfDigits_chars]
            rfl
      · cases read
  · rintro ⟨_ | ⟨isUpper, s, ds, hasDigit⟩, rfl, rfl⟩
    · rfl
    · have isLetter : (if isUpper then 'E' else 'e') = 'e' ∨ (if isUpper then 'E' else 'e') = 'E' := by
        cases isUpper with
        | false => exact Or.inl rfl
        | true => exact Or.inr rfl
      have readable := Digits.isEmpty_or_not_all_iff.2 ⟨ds, rfl, hasDigit⟩
      rw [exponentChars, Exponent.chars, readExponent?, if_pos isLetter, splitSign_chars_append s ds.head_ne_sign]
      simp only [readable, ds.natOfDigits_chars]
      rfl

theorem head_exponentChars (e : Option Exponent) : ∀ c ∈ (exponentChars e).head?, ¬ c.isDigit = true ∧ c ≠ '.' := by
  intro c hc
  cases e with
  | none => cases hc
  | some e =>
    cases hc
    cases e.isUpper <;> decide

theorem head_mantissa (n : Numeral) : ∀ c ∈ (n.whole.chars ++ (pointChars n.fraction ++ exponentChars n.exponent)).head?,
    c ≠ '+' ∧ c ≠ '-' := by
  have head := n.whole.head_ne_sign
  intro c hc
  rcases eq_or_ne n.whole.chars [] with nothing | hasWhole
  · rw [nothing] at hc
    cases point : n.fraction with
    | none => exact absurd (n.hasDigit.resolve_left fun h => h nothing) (by rw [point]; exact fun h => h rfl)
    | some ds =>
      rw [point] at hc
      cases hc
      decide
  · rw [List.head?_append_of_ne_nil _ hasWhole] at hc
    exact head c hc

/-- A text is a numeral for one value. -/
theorem value_eq_of_chars_eq {n m : Numeral} (same : n.chars = m.chars) : n.value = m.value := by
  have sign := splitSign_chars_append n.sign (head_mantissa n)
  rw [← Numeral.chars, same, Numeral.chars, splitSign_chars_append m.sign (head_mantissa m), Prod.mk.injEq] at sign
  have point := splitPoint_chars_append n.whole n.fraction (head_exponentChars n.exponent)
  rw [← sign.2, splitPoint_chars_append m.whole m.fraction (head_exponentChars m.exponent), Prod.mk.injEq,
    Prod.mk.injEq] at point
  obtain ⟨whole, fraction, exponent⟩ := point
  have own : readExponent? (exponentChars n.exponent) = some n.scale :=
    readExponent?_eq_some_iff.2 ⟨n.exponent, rfl, rfl⟩
  have other : readExponent? (exponentChars n.exponent) = some m.scale :=
    readExponent?_eq_some_iff.2 ⟨m.exponent, exponent, rfl⟩
  have scale : n.scale = m.scale := Option.some.inj (own.symm.trans other)
  have fraction : n.fractionDigits = m.fractionDigits := Digits.ext fraction.symm
  rw [Numeral.value, Numeral.value, sign.1, Digits.ext whole, fraction, scale]

/-- The number that is read for a numeral. -/
def ofNumeral (n : Numeral) : Binary64 :=
  ofMagnitude n.sign.isMinus (magnitudeOfDecimal (natOfDigits (n.whole.chars ++ n.fractionDigits.chars))
    (n.scale - n.fractionDigits.chars.length))

theorem ofDecimal?_chars (n : Numeral) : ofDecimal? n.chars = some (ofNumeral n) := by
  have scale : readExponent? (exponentChars n.exponent) = some n.scale :=
    readExponent?_eq_some_iff.2 ⟨n.exponent, rfl, rfl⟩
  have hasDigit : (n.whole.chars.isEmpty && (n.fraction.getD Digits.empty).chars.isEmpty) = false := by
    have hasDigit := n.hasDigit
    rwa [← List.isEmpty_eq_false_iff, ← List.isEmpty_eq_false_iff, ← Bool.and_eq_false_iff] at hasDigit
  rw [ofDecimal?, Numeral.chars, splitSign_chars_append n.sign (head_mantissa n)]
  simp only [splitPoint_chars_append n.whole n.fraction (head_exponentChars n.exponent), hasDigit, scale]
  rfl

theorem ofDecimal?_eq_some_iff {x : Binary64} :
    ofDecimal? cs = some x ↔ ∃ n : Numeral, n.chars = cs ∧ ofNumeral n = x := by
  constructor
  · intro read
    obtain ⟨s, rest, sign, split⟩ := exists_sign cs
    obtain ⟨whole, fraction, rest, point, more⟩ := exists_point rest
    have isNumeral : ∃ n : Numeral, n.chars = cs := by
      rw [ofDecimal?, sign] at read
      simp only [point] at read
      split at read
      · cases read
      next hasDigit =>
        split at read
        · cases read
        next exponent =>
          obtain ⟨e, rfl, -⟩ := readExponent?_eq_some_iff.1 exponent
          rw [Bool.not_eq_true, Bool.and_eq_false_iff, List.isEmpty_eq_false_iff, List.isEmpty_eq_false_iff] at hasDigit
          exact ⟨⟨s, whole, fraction, e, hasDigit⟩, by rw [← split, ← more]; rfl⟩
    obtain ⟨n, rfl⟩ := isNumeral
    rw [ofDecimal?_chars] at read
    exact ⟨n, rfl, Option.some.inj read⟩
  · rintro ⟨n, rfl, rfl⟩
    exact ofDecimal?_chars n

/-! ## The value that is read -/

theorem natOfDigits_append (ds ds' : Digits) :
    natOfDigits (ds.chars ++ ds'.chars) = 10 ^ ds'.chars.length * ds.value + ds'.value := by
  rw [natOfDigits, ← Nat.ofDigitChars_eq_foldl, Nat.ofDigitChars_append, Nat.ofDigitChars_eq_ofDigitChars_zero]
  rfl

theorem value_numeral (n : Numeral) : n.value = signFactor n.sign.isMinus *
    ((natOfDigits (n.whole.chars ++ n.fractionDigits.chars) : ℕ) * 10 ^ (n.scale - n.fractionDigits.chars.length)) := by
  rw [Numeral.value, natOfDigits_append, zpow_sub₀ (by norm_num), zpow_natCast]
  push_cast
  field_simp

theorem rounded_ofNumeral (n : Numeral) :
    (ofNumeral n).isNegative = n.sign.isMinus ∧ Rounded n.value (ofNumeral n) := by
  have rounds := roundsTo_magnitudeOfDecimal (natOfDigits (n.whole.chars ++ n.fractionDigits.chars))
    (n.scale - n.fractionDigits.chars.length)
  constructor
  · exact isNegative_ofMagnitude rounds.lt_two_pow
  · rw [value_numeral]
    exact rounded_ofMagnitude _ (by positivity) rounds

end Binary64

end TaggedUnion
