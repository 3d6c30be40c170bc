/-
The grammar of words: digits with an optional sign are an integer if its value has 64 bits, every other decimal
numeral is the number nearest to its value, and every other word is itself.

The names of infinity and of what is no number would be read as numbers, but each of them has a letter that no numeral
has, so the filter in front of reading accepts exactly the characters of numerals and changes nothing for these.
-/
import TaggedUnion.Proofs.Binary64.Numeral
import TaggedUnion.Proofs.Value.Plain
import TaggedUnion.Repl.Word
import TaggedUnion.Value.Text

namespace TaggedUnion

/-! ## Integers -/

theorem Numeral.IsInteger.value_eq {n : Numeral} (isInteger : n.IsInteger) :
    n.value = ((if n.sign.isMinus then -(n.whole.value : ℤ) else n.whole.value : ℤ) : ℚ) := by
  have fraction : n.fractionDigits = Digits.empty := by rw [fractionDigits, isInteger.1]; rfl
  have scale : n.scale = 0 := by rw [Numeral.scale, isInteger.2]; rfl
  rw [Numeral.value, fraction, scale]
  cases n.sign.isMinus <;> simp [Binary64.signFactor, Digits.empty, Digits.value]

namespace Repl

open Binary64 (splitSign_chars_append exists_sign Rounded)

variable {cs : List Char} {w : String}

theorem readInt?_eq_some_iff {i : Int64} :
    readInt? cs = some i ↔ ∃ n : Numeral, n.chars = cs ∧ n.IsInteger ∧ n.value = i.toInt := by
  constructor
  · intro read
    obtain ⟨s, rest, sign, split⟩ := exists_sign cs
    rw [readInt?, sign] at read
    simp only at read
    split at read
    · cases read
    next readable =>
      obtain ⟨ds, rfl, hasDigit⟩ := Digits.isEmpty_or_not_all_iff.1 (Bool.eq_false_iff.2 readable)
      rw [ds.natOfDigits_chars, Int64.toInt_minValue, Int64.toInt_maxValue] at read
      have isInteger : Numeral.IsInteger ⟨s, ds, none, none, Or.inl hasDigit⟩ := ⟨rfl, rfl⟩
      have value := isInteger.value_eq
      simp only at value
      generalize (if s.isMinus then -(ds.value : ℤ) else ds.value) = n at read value
      split at read
      next fits =>
        obtain rfl := Option.some.inj read
        refine ⟨_, ?_, isInteger, ?_⟩
        · rw [← split, Numeral.chars, Numeral.pointChars, Numeral.exponentChars, List.nil_append, List.append_nil]
        · rw [value, Int64.toInt_ofInt_of_le fits.1 (by omega)]
      · cases read
  · rintro ⟨n, rfl, isInteger, value⟩
    rw [isInteger.value_eq, Int.cast_inj] at value
    have hasDigit : n.whole.chars ≠ [] := n.hasDigit.resolve_right fun h => h (by rw [isInteger.1]; rfl)
    have readable := Digits.isEmpty_or_not_all_iff.2 ⟨n.whole, rfl, hasDigit⟩
    rw [readInt?, Numeral.chars, isInteger.1, isInteger.2, Numeral.pointChars, Numeral.exponentChars,
      List.nil_append, List.append_nil, splitSign_chars_append n.sign n.whole.head_ne_sign]
    simp only [readable, n.whole.natOfDigits_chars, value, i.minValue_le_toInt, i.toInt_le, and_self, if_true,
      Int64.ofInt_toInt]
    rfl

/-! ## The characters of numerals -/

/-- Digits, signs, the point and the letters of exponents. -/
def IsNumeralChar (c : Char) : Prop := c.isDigit = true ∨ c ∈ ['+', '-', '.', 'e', 'E']

theorem isNumeric_iff : isNumeric cs = true ↔ (∃ c ∈ cs, c.isDigit = true) ∧ ∀ c ∈ cs, IsNumeralChar c := by
  simp [isNumeric, IsNumeralChar]

theorem isNumeralChar_of_mem_sign (s : Sign) : ∀ c ∈ s.chars, IsNumeralChar c := by
  intro c hc
  cases s with
  | none => cases hc
  | plus =>
    obtain rfl := List.mem_singleton.1 hc
    exact Or.inr (by decide)
  | minus =>
    obtain rfl := List.mem_singleton.1 hc
    exact Or.inr (by decide)

theorem isNumeralChar_of_mem_digits (ds : Digits) : ∀ c ∈ ds.chars, IsNumeralChar c :=
  fun c hc => Or.inl (ds.isDigit c hc)

theorem isNumeralChar_of_mem (n : Numeral) : ∀ c ∈ n.chars, IsNumeralChar c := by
  intro c hc
  rcases List.mem_append.1 hc with hc | hc
  · exact isNumeralChar_of_mem_sign n.sign c hc
  rcases List.mem_append.1 hc with hc | hc
  · exact isNumeralChar_of_mem_digits n.whole c hc
  rcases List.mem_append.1 hc with hc | hc
  · cases fraction : n.fraction with
    | none => simp [fraction, Numeral.pointChars] at hc
    | some ds =>
      rw [fraction] at hc
      rcases List.mem_cons.1 hc with rfl | hc
      · exact Or.inr (by decide)
      · exact isNumeralChar_of_mem_digits ds c hc
  · cases exponent : n.exponent with
    | none => simp [exponent, Numeral.exponentChars] at hc
    | some e =>
      rw [exponent] at hc
      rcases List.mem_cons.1 hc with rfl | hc
      · exact Or.inr (by cases e.isUpper <;> decide)
      rcases List.mem_append.1 hc with hc | hc
      · exact isNumeralChar_of_mem_sign e.sign c hc
      · exact isNumeralChar_of_mem_digits e.digits c hc

theorem exists_isDigit (n : Numeral) : ∃ c ∈ n.chars, c.isDigit = true := by
  rcases n.hasDigit with hasDigit | hasDigit
  · obtain ⟨c, hc⟩ := List.exists_mem_of_ne_nil _ hasDigit
    exact ⟨c, List.mem_append_right _ (List.mem_append_left _ hc), n.whole.isDigit c hc⟩
  · obtain ⟨c, hc⟩ := List.exists_mem_of_ne_nil _ hasDigit
    cases fraction : n.fraction with
    | none => exact absurd hc (by rw [fraction]; exact List.not_mem_nil)
    | some ds =>
      rw [fraction] at hc
      have point : c ∈ Numeral.pointChars n.fraction := by rw [fraction]; exact List.mem_cons_of_mem _ hc
      exact ⟨c, List.mem_append_right _ (List.mem_append_right _ (List.mem_append_left _ point)), ds.isDigit c hc⟩

theorem isNumeric_chars (n : Numeral) : isNumeric n.chars = true :=
  isNumeric_iff.2 ⟨exists_isDigit n, isNumeralChar_of_mem n⟩

theorem toLower_ne_of_isNumeralChar {c : Char} (numeral : IsNumeralChar c) : c.toLower ≠ 'n' := by
  rcases numeral with isDigit | isMember
  · have isMember := Grammar.isDigit_iff_mem.1 isDigit
    fin_cases isMember <;> decide
  · fin_cases isMember <;> decide

theorem mem_of_magnitudeOfName? {name : List Char} {m : Nat} (named : Binary64.magnitudeOfName? name = some m) :
    'n' ∈ name.map Char.toLower := by
  unfold Binary64.magnitudeOfName? at named
  simp only at named
  split at named
  next infinity => rcases infinity with h | h <;> simp [h]
  next =>
    split at named
    next nan => simp [nan]
    next => cases named

theorem ofText?_of_isNumeric (numeric : isNumeric w.toList = true) :
    Binary64.ofText? w = Binary64.ofDecimal? w.toList := by
  rw [Binary64.ofText?]
  cases decimal : Binary64.ofDecimal? w.toList with
  | some x => rfl
  | none =>
    obtain ⟨s, name, sign, split⟩ := exists_sign w.toList
    simp only [sign, Option.map_eq_none_iff]
    rw [Option.eq_none_iff_forall_ne_some]
    intro m named
    obtain ⟨c, hc, lower⟩ := List.mem_map.1 (mem_of_magnitudeOfName? named)
    have numeral := (isNumeric_iff.1 numeric).2 c (split ▸ List.mem_append_right _ hc)
    exact toLower_ne_of_isNumeralChar numeral lower

/-- The filter lets the numerals pass and no name. -/
theorem filtered_eq (w : String) :
    (if isNumeric w.toList then Binary64.ofText? w else none) = Binary64.ofDecimal? w.toList := by
  split
  next numeric => exact ofText?_of_isNumeric numeric
  next notNumeric =>
    symm
    rw [Option.eq_none_iff_forall_ne_some]
    intro x read
    obtain ⟨n, chars, -⟩ := Binary64.ofDecimal?_eq_some_iff.1 read
    exact notNumeric (chars ▸ isNumeric_chars n)

theorem valueOf_eq (w : String) : valueOf w = match readInt? w.toList with
    | some i => .int i
    | none => match Binary64.ofDecimal? w.toList with
      | some x => .float x
      | none => .str w := by
  cases integer : readInt? w.toList with
  | some i => simp only [valueOf, integer]
  | none => cases decimal : Binary64.ofDecimal? w.toList <;> simp only [valueOf, integer, filtered_eq, decimal]

theorem valueOf_eq_int_iff {i : Int64} :
    valueOf w = .int i ↔ ∃ n : Numeral, n.chars = w.toList ∧ n.IsInteger ∧ n.value = i.toInt := by
  rw [valueOf_eq, ← readInt?_eq_some_iff]
  cases readInt? w.toList with
  | some j => simp
  | none => cases Binary64.ofDecimal? w.toList <;> simp

theorem valueOf_eq_float_iff {x : Binary64} :
    valueOf w = .float x ↔ (∀ i, valueOf w ≠ .int i) ∧
      ∃ n : Numeral, n.chars = w.toList ∧ x.isNegative = n.sign.isMinus ∧ Rounded n.value x := by
  have reads : Binary64.ofDecimal? w.toList = some x ↔
      ∃ n : Numeral, n.chars = w.toList ∧ x.isNegative = n.sign.isMinus ∧ Rounded n.value x := by
    rw [Binary64.ofDecimal?_eq_some_iff]
    refine exists_congr fun n => and_congr_right fun _ => ⟨?_, ?_⟩
    · rintro rfl
      exact Binary64.rounded_ofNumeral n
    · rintro ⟨sign, rounded⟩
      obtain ⟨sign', rounded'⟩ := Binary64.rounded_ofNumeral n
      exact rounded'.unique rounded (sign'.trans sign.symm)
  rw [← reads, valueOf_eq]
  cases readInt? w.toList with
  | some j => simp
  | none => cases Binary64.ofDecimal? w.toList <;> simp

theorem valueOf_eq_str_iff {s : String} :
    valueOf w = .str s ↔ s = w ∧ ¬ ∃ n : Numeral, n.chars = w.toList := by
  by_cases isNumeral : ∃ n : Numeral, n.chars = w.toList
  · obtain ⟨n, chars⟩ := isNumeral
    have read := Binary64.ofDecimal?_chars n
    rw [chars] at read
    rw [valueOf_eq, read]
    have numeral : ¬ (s = w ∧ ¬ ∃ n : Numeral, n.chars = w.toList) := fun h => h.2 ⟨n, chars⟩
    cases readInt? w.toList <;> simpa using numeral
  · have noInt : readInt? w.toList = none := by
      rw [Option.eq_none_iff_forall_ne_some]
      intro i read
      obtain ⟨n, chars, -⟩ := readInt?_eq_some_iff.1 read
      exact isNumeral ⟨n, chars⟩
    have noDecimal : Binary64.ofDecimal? w.toList = none := by
      rw [Option.eq_none_iff_forall_ne_some]
      intro x read
      obtain ⟨n, chars, -⟩ := Binary64.ofDecimal?_eq_some_iff.1 read
      exact isNumeral ⟨n, chars⟩
    rw [valueOf_eq, noInt, noDecimal]
    constructor
    · rintro ⟨⟩
      exact ⟨rfl, isNumeral⟩
    · rintro ⟨rfl, -⟩
      rfl

/-! ## Texts of integers, and other words -/

/-- An integer is written as a numeral that has its value. -/
theorem exists_numeral (i : ℤ) : ∃ n : Numeral, n.chars = Text.integerChars i ∧ n.IsInteger ∧ n.value = i := by
  have written : ∀ (s : Sign) (m : Nat), ∃ n : Numeral, n.chars = s.chars ++ Nat.toDigits 10 m ∧ n.IsInteger ∧
      n.value = ((if s.isMinus then -(m : ℤ) else m : ℤ) : ℚ) := by
    intro s m
    have isInteger : Numeral.IsInteger
        ⟨s, ⟨Nat.toDigits 10 m, Text.isDigit_of_mem_toDigits⟩, none, none, Or.inl Nat.toDigits_ne_nil⟩ := ⟨rfl, rfl⟩
    refine ⟨_, ?_, isInteger, ?_⟩
    · rw [Numeral.chars, Numeral.pointChars, Numeral.exponentChars, List.nil_append, List.append_nil]
    · rw [isInteger.value_eq, Digits.value, Nat.ofDigitChars_ten_toDigits]
  rw [Text.integerChars]
  split
  next nonneg =>
    obtain ⟨n, chars, isInteger, value⟩ := written .none i.toNat
    refine ⟨n, chars, isInteger, ?_⟩
    have sign : Sign.none.isMinus = false := rfl
    rw [value, Int.cast_inj, sign, if_neg (by decide), Int.toNat_of_nonneg nonneg]
  next negative =>
    obtain ⟨n, chars, isInteger, value⟩ := written .minus (-i).toNat
    refine ⟨n, chars, isInteger, ?_⟩
    rw [value, Int.cast_inj, Sign.isMinus, if_pos rfl, Int.toNat_of_nonneg (by omega), neg_neg]

theorem valueOf_display_int [Text.Glyphs] (i : Int64) : valueOf (Value.display (.int i)) = .int i := by
  obtain ⟨n, chars, isInteger, value⟩ := exists_numeral i.toInt
  rw [valueOf_eq_int_iff, Value.display, Text.toList_toString_int]
  exact ⟨n, chars, isInteger, value⟩

/-- A word with a character that no numeral has is a text. -/
theorem valueOf_of_mem {c : Char} (hc : c ∈ w.toList) (other : ¬ IsNumeralChar c) : valueOf w = .str w := by
  rw [valueOf_eq_str_iff]
  refine ⟨rfl, ?_⟩
  rintro ⟨n, chars⟩
  exact other (isNumeralChar_of_mem n c (chars ▸ hc))

theorem valueOf_of_named {s : Sign} {name : List Char} (named : 'n' ∈ name.map Char.toLower)
    (word : w.toList = s.chars ++ name) : valueOf w = .str w := by
  obtain ⟨c, hc, lower⟩ := List.mem_map.1 named
  exact valueOf_of_mem (word ▸ List.mem_append_right _ hc) fun numeral => toLower_ne_of_isNumeralChar numeral lower

/-- Words are classified by a regular grammar. A word is an integer if it is digits with an optional sign and its value
has 64 bits; else it is the number nearest to its value, with the sign that is written, if it is a decimal numeral;
else it is a text with its own characters, as are all names of infinity and of what is no number, and all words with a
character that no numeral has. An integer that is too large is a number, and the text of an integer is read as it. -/
theorem valueOf_reads_grammar (w : String) :
    (w.toList ∈ Grammar.integer.matches' ↔ ∃ n : Numeral, n.chars = w.toList ∧ n.IsInteger) ∧
    (w.toList ∈ Grammar.decimal.matches' ↔ ∃ n : Numeral, n.chars = w.toList) ∧
    (∀ i, valueOf w = .int i ↔ ∃ n : Numeral, n.chars = w.toList ∧ n.IsInteger ∧ n.value = i.toInt) ∧
    (∀ x, valueOf w = .float x ↔ (∀ i, valueOf w ≠ .int i) ∧
      ∃ n : Numeral, n.chars = w.toList ∧ x.isNegative = n.sign.isMinus ∧ Rounded n.value x) ∧
    ((∃ x, valueOf w = .float x) ↔ (∀ i, valueOf w ≠ .int i) ∧ w.toList ∈ Grammar.decimal.matches') ∧
    (∀ s, valueOf w = .str s ↔ s = w ∧ w.toList ∉ Grammar.decimal.matches') ∧
    (∀ c ∈ w.toList, ¬ c.isDigit = true → c ∉ ['+', '-', '.', 'e', 'E'] → valueOf w = .str w) ∧
    (∀ (s : Sign) (name : List Char), w.toList = s.chars ++ name →
      name.map Char.toLower ∈ ["nan".toList, "inf".toList, "infinity".toList] → valueOf w = .str w) ∧
    (∀ n : Numeral, n.chars = w.toList → n.IsInteger → (∀ i : Int64, n.value ≠ i.toInt) → ∃ x, valueOf w = .float x) ∧
    ∀ [Text.Glyphs] (i : Int64), valueOf (Value.display (.int i)) = .int i := by
  have float : (∃ x, valueOf w = .float x) ↔ (∀ i, valueOf w ≠ .int i) ∧ w.toList ∈ Grammar.decimal.matches' := by
    rw [Grammar.mem_decimal_iff]
    constructor
    · rintro ⟨x, read⟩
      obtain ⟨noInt, n, chars, -⟩ := valueOf_eq_float_iff.1 read
      exact ⟨noInt, n, chars⟩
    · rintro ⟨noInt, n, chars⟩
      obtain ⟨sign, rounded⟩ := Binary64.rounded_ofNumeral n
      exact ⟨_, valueOf_eq_float_iff.2 ⟨noInt, n, chars, sign, rounded⟩⟩
  refine ⟨Grammar.mem_integer_iff, Grammar.mem_decimal_iff, fun i => valueOf_eq_int_iff, fun x => valueOf_eq_float_iff, float,
    ?_, ?_, ?_, ?_, valueOf_display_int⟩
  · intro s
    rw [Grammar.mem_decimal_iff, valueOf_eq_str_iff]
  · intro c hc notDigit notMember
    exact valueOf_of_mem hc fun numeral => numeral.elim notDigit notMember
  · intro s name word named
    have letter : ∀ ds ∈ ["nan".toList, "inf".toList, "infinity".toList], 'n' ∈ ds := by decide
    exact valueOf_of_named (letter _ named) word
  · intro n chars isInteger large
    refine float.2 ⟨?_, Grammar.mem_decimal_iff.2 ⟨n, chars⟩⟩
    intro i read
    obtain ⟨m, chars', -, value⟩ := valueOf_eq_int_iff.1 read
    exact large i ((Binary64.value_eq_of_chars_eq (chars.trans chars'.symm)).trans value)

/-- One below the least integer is a number, and a name and a word with a letter of its own are texts. -/
theorem valueOf_reads_grammar_below :
    (∃ x, valueOf "-9223372036854775809" = .float x) ∧ valueOf "-iNF" = .str "-iNF" ∧ valueOf "1e5x" = .str "1e5x" := by
  refine ⟨?_, ?_, ?_⟩
  · let n : Numeral := ⟨.minus, ⟨"9223372036854775809".toList, List.all_eq_true.1 rfl⟩, none, none, Or.inl (by decide)⟩
    have isInteger : n.IsInteger := ⟨rfl, rfl⟩
    have large : ∀ i : Int64, n.value ≠ i.toInt := by
      intro i value
      have whole : n.whole.value = 9223372036854775809 := by decide +kernel
      rw [isInteger.value_eq, Int.cast_inj, whole] at value
      have least := i.le_toInt
      rw [← value] at least
      exact absurd least (by decide)
    obtain ⟨-, -, -, -, -, -, -, -, tooLarge, -⟩ := valueOf_reads_grammar "-9223372036854775809"
    exact tooLarge n (by decide +kernel) isInteger large
  · obtain ⟨-, -, -, -, -, -, -, named, -, -⟩ := valueOf_reads_grammar "-iNF"
    exact named .minus "iNF".toList (by decide) (by decide)
  · obtain ⟨-, -, -, -, -, -, other, -, -, -⟩ := valueOf_reads_grammar "1e5x"
    exact other 'x' (by decide) (by decide) (by decide)

end Repl

end TaggedUnion
