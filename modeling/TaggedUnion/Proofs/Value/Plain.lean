/-
Plain data: what is made of nothing but integers, truth values, texts and slices. The text of plain data tells the data,
however deep it is and whatever characters are in it. The first character tells the sort of a value, and then, whatever
follows, where the value ends: a text at the quote that is not inside an escape, a slice at its bracket, and an
integer at the first character that is no digit, as only a comma or a bracket can follow an element.
-/
import TaggedUnion.Proofs.Text.Quoted
import TaggedUnion.Proofs.Value.Equality
import TaggedUnion.Proofs.Value.Text

namespace TaggedUnion

/-! ## Integers -/

namespace Text

variable {i j : Int} {rest rest' : List Char}

/-- An integer as it is written. -/
def integerChars (i : Int) : List Char :=
  if 0 ≤ i then Nat.toDigits 10 i.toNat else '-' :: Nat.toDigits 10 (-i).toNat

theorem toList_toString_int (i : Int) : (toString i).toList = integerChars i := by
  show i.repr.toList = _
  rw [Int.repr_eq_if, integerChars]
  split <;> simp [Nat.repr_eq_ofList_toDigits]

theorem isDigit_of_mem_toDigits {n : Nat} : ∀ c ∈ Nat.toDigits 10 n, c.isDigit = true :=
  fun _ => Nat.isDigit_of_mem_toDigits (by decide) (by decide)

theorem toDigits_eq_cons (n : Nat) : ∃ d ds, Nat.toDigits 10 n = d :: ds ∧ d.isDigit = true := by
  obtain ⟨d, ds, digits⟩ := List.exists_cons_of_ne_nil (Nat.toDigits_ne_nil (n := n) (b := 10))
  exact ⟨d, ds, digits, isDigit_of_mem_toDigits d (digits ▸ List.mem_cons_self)⟩

theorem toDigits_append_ne_minus (n : Nat) (cs : List Char) : Nat.toDigits 10 n ++ rest ≠ '-' :: cs := by
  obtain ⟨d, ds, digits, isDigit⟩ := toDigits_eq_cons n
  rw [digits]
  rintro ⟨⟩
  cases isDigit

/-- An integer is known from the beginning of a text, up to the first character that is no digit. -/
theorem integerChars_append_inj (ends : ∀ c ∈ rest.head?, ¬ c.isDigit = true)
    (ends' : ∀ c ∈ rest'.head?, ¬ c.isDigit = true) (same : integerChars i ++ rest = integerChars j ++ rest') :
    i = j ∧ rest = rest' := by
  have digits : ∀ {m n : Nat}, Nat.toDigits 10 m ++ rest = Nat.toDigits 10 n ++ rest' → m = n ∧ rest = rest' := by
    intro m n same
    rw [append_eq_append_iff_of_ends isDigit_of_mem_toDigits isDigit_of_mem_toDigits ends ends'] at same
    refine ⟨?_, same.2⟩
    rw [← Nat.ofDigitChars_ten_toDigits (n := m), same.1, Nat.ofDigitChars_ten_toDigits]
  unfold integerChars at same
  split at same <;> split at same
  · obtain ⟨magnitude, rest⟩ := digits same
    exact ⟨by omega, rest⟩
  · exact absurd same (toDigits_append_ne_minus _ _)
  · exact absurd same.symm (toDigits_append_ne_minus _ _)
  · obtain ⟨magnitude, rest⟩ := digits (List.cons.inj same).2
    exact ⟨by omega, rest⟩

theorem toList_intercalate_cons (s : String) (ss : List String) :
    (", ".intercalate (s :: ss)).toList = s.toList ++ ss.flatMap fun s => [',', ' '] ++ s.toList := by
  induction ss generalizing s with
  | nil => simp
  | cons t ss ih =>
    have rest := ih t
    rw [String.toList_intercalate] at rest ⊢
    rw [List.map_cons, List.map_cons, List.intercalate_cons_cons, ← List.map_cons, rest, List.flatMap_cons]
    simp

end Text

/-! ## Plain data -/

namespace Value

inductive Plain : Value → Prop where
  | nothing : Plain .nothing
  | int (i : Int64) : Plain (.int i)
  | bool (b : Bool) : Plain (.bool b)
  | str (s : String) : Plain (.str s)
  | slice {vs : List Value} (inside : ∀ v ∈ vs, Plain v) : Plain (.slice vs)

variable {v w : Value} {vs ws : List Value} {rest rest' : List Char}

/-- The sort of plain data whose text begins with a character. -/
def leadKind? (c : Char) : Option Kind :=
  if c.isDigit || c == '-' then some .int
  else
    match c with
    | 'N' => some .nothing
    | 't' | 'f' => some .bool
    | '"' => some .str
    | '[' => some .slice
    | _ => none

/-- Whether a text ends here, or can go on with another element or with the end of a slice. -/
def Ends (rest : List Char) : Prop := ∀ c ∈ rest.head?, c = ',' ∨ c = ']'

theorem Ends.not_digit (ends : Ends rest) : ∀ c ∈ rest.head?, ¬ c.isDigit = true := by
  intro c hc
  rcases ends c hc with rfl | rfl <;> decide

/-! ## Texts -/

section Texts

variable [Text.Glyphs]

theorem toList_display_str (s : String) : (Value.str s).display.toList = Text.quotedChars s.toList :=
  String.toList_ofList

theorem toList_display_slice (vs : List Value) :
    (Value.slice vs).display.toList = '[' :: ((", ".intercalate (vs.map display)).toList ++ [']']) := by
  rw [display_slice, bracketed, String.toList_append, String.toList_append]
  rfl

/-- The first character of the text of plain data tells its sort. -/
theorem Plain.lead (plain : v.Plain) : ∃ c cs, v.display.toList = c :: cs ∧ leadKind? c = some v.kind := by
  cases plain with
  | nothing =>
    rw [display]
    exact ⟨_, _, rfl, rfl⟩
  | int i =>
    rw [display, Text.toList_toString_int, Text.integerChars]
    split
    · obtain ⟨d, ds, digits, isDigit⟩ := Text.toDigits_eq_cons i.toInt.toNat
      exact ⟨d, ds, digits, if_pos (by rw [isDigit, Bool.true_or])⟩
    · exact ⟨_, _, rfl, rfl⟩
  | bool b =>
    rw [display]
    cases b <;> exact ⟨_, _, rfl, rfl⟩
  | str s => exact ⟨_, _, toList_display_str s, rfl⟩
  | slice => exact ⟨_, _, toList_display_slice _, rfl⟩

/-- Whether a value is known from the beginning of a text, among plain data. -/
def Readable (v : Value) : Prop := ∀ w rest rest', w.Plain → Ends rest → Ends rest' →
  v.display.toList ++ rest = w.display.toList ++ rest' → v = w ∧ rest = rest'

/-- The elements of a slice after the first, as they are written. -/
def moreChars (vs : List Value) : List Char := (vs.map display).flatMap fun s => [',', ' '] ++ s.toList

theorem ends_moreChars (vs : List Value) (rest : List Char) : Ends (moreChars vs ++ ']' :: rest) := by
  cases vs with
  | nil => rintro c ⟨⟩; exact .inr rfl
  | cons v vs => rintro c ⟨⟩; exact .inl rfl

theorem moreChars_append_inj (readable : ∀ v ∈ vs, Readable v) (plain : ∀ w ∈ ws, w.Plain)
    (same : moreChars vs ++ ']' :: rest = moreChars ws ++ ']' :: rest') : vs = ws ∧ rest = rest' := by
  induction vs generalizing ws with
  | nil =>
    cases ws with
    | nil => exact ⟨rfl, (List.cons.inj same).2⟩
    | cons w ws => cases same
  | cons v vs ih =>
    cases ws with
    | nil => cases same
    | cons w ws =>
      obtain ⟨readable, readableMore⟩ := List.forall_mem_cons.1 readable
      obtain ⟨plain, plainMore⟩ := List.forall_mem_cons.1 plain
      have same : v.display.toList ++ (moreChars vs ++ ']' :: rest) =
          w.display.toList ++ (moreChars ws ++ ']' :: rest') := by
        simpa [moreChars] using same
      obtain ⟨rfl, more⟩ := readable w _ _ plain (ends_moreChars vs rest) (ends_moreChars ws rest') same
      obtain ⟨rfl, rest⟩ := ih readableMore plainMore more
      exact ⟨rfl, rest⟩

/-- Elements are known from the text with commas between them, up to a bracket. -/
theorem intercalate_append_inj (plain : ∀ v ∈ vs, v.Plain) (readable : ∀ v ∈ vs, Readable v)
    (plain' : ∀ w ∈ ws, w.Plain)
    (same : (", ".intercalate (vs.map display)).toList ++ ']' :: rest =
      (", ".intercalate (ws.map display)).toList ++ ']' :: rest') : vs = ws ∧ rest = rest' := by
  have bracket : ∀ {v : Value} {cs ds : List Char}, v.Plain → v.display.toList ++ cs ≠ ']' :: ds := by
    intro v cs ds plain same
    obtain ⟨c, cs', lead, kind⟩ := plain.lead
    rw [lead] at same
    cases same
    cases kind
  cases vs with
  | nil =>
    cases ws with
    | nil => exact ⟨rfl, (List.cons.inj same).2⟩
    | cons w ws =>
      rw [List.map_cons, Text.toList_intercalate_cons, List.append_assoc] at same
      exact absurd same.symm (bracket (plain' w List.mem_cons_self))
  | cons v vs =>
    cases ws with
    | nil =>
      rw [List.map_cons, Text.toList_intercalate_cons, List.append_assoc] at same
      exact absurd same (bracket (plain v List.mem_cons_self))
    | cons w ws =>
      refine moreChars_append_inj readable plain' ?_
      rw [List.map_cons, List.map_cons, Text.toList_intercalate_cons, Text.toList_intercalate_cons] at same
      simpa [moreChars] using same

theorem Plain.kind_eq (plain : v.Plain) (plain' : w.Plain)
    (same : v.display.toList ++ rest = w.display.toList ++ rest') : v.kind = w.kind := by
  obtain ⟨c, cs, lead, kind⟩ := plain.lead
  obtain ⟨d, ds, lead', kind'⟩ := plain'.lead
  rw [lead, lead'] at same
  rw [(List.cons.inj same).1, kind'] at kind
  exact (Option.some.inj kind).symm

/-- Plain data is known from the beginning of a text, whatever follows that can follow an element. -/
theorem Plain.readable (plain : v.Plain) : Readable v := by
  induction plain with
  | nothing =>
    intro w rest rest' plain' ends ends' same
    have kind := kind_eq .nothing plain' same
    cases plain' <;> cases kind
    exact ⟨rfl, List.append_cancel_left same⟩
  | int i =>
    intro w rest rest' plain' ends ends' same
    have kind := kind_eq (.int i) plain' same
    cases plain' <;> cases kind
    rw [display, display, Text.toList_toString_int, Text.toList_toString_int] at same
    obtain ⟨number, rest⟩ := Text.integerChars_append_inj ends.not_digit ends'.not_digit same
    exact ⟨congrArg Value.int (Int64.toInt_inj.1 number), rest⟩
  | bool b =>
    intro w rest rest' plain' ends ends' same
    have kind := kind_eq (.bool b) plain' same
    cases plain' with
    | bool b' =>
      rw [display, display] at same
      cases b <;> cases b'
      · exact ⟨rfl, List.append_cancel_left same⟩
      · cases same
      · cases same
      · exact ⟨rfl, List.append_cancel_left same⟩
    | _ => cases kind
  | str s =>
    intro w rest rest' plain' ends ends' same
    have kind := kind_eq (.str s) plain' same
    cases plain' <;> cases kind
    rw [toList_display_str, toList_display_str, Text.quotedChars_append_inj, String.toList_inj] at same
    exact ⟨congrArg Value.str same.1, same.2⟩
  | slice plain ih =>
    intro w rest rest' plain' ends ends' same
    have kind := kind_eq (.slice plain) plain' same
    cases plain' with
    | slice plain' =>
      rw [toList_display_slice, toList_display_slice, List.cons_append, List.cons_append, List.append_assoc,
        List.append_assoc] at same
      obtain ⟨rfl, rest⟩ := intercalate_append_inj plain ih plain' (List.cons.inj same).2
      exact ⟨rfl, rest⟩
    | _ => cases kind

theorem Plain.display_eq_iff (plain : v.Plain) (plain' : w.Plain) : v.display = w.display ↔ v = w := by
  constructor
  · intro same
    have ends : Ends [] := fun _ h => nomatch h
    exact (plain.readable w [] [] plain' ends ends (by rw [same])).1
  · exact congrArg display

/-- Elements are known from the text with commas between them. -/
theorem intercalate_display_eq_iff (plain : ∀ v ∈ vs, v.Plain) (plain' : ∀ w ∈ ws, w.Plain) :
    ", ".intercalate (vs.map display) = ", ".intercalate (ws.map display) ↔ vs = ws := by
  constructor
  · intro same
    have readable : ∀ v ∈ vs, Readable v := fun v hv => (plain v hv).readable
    have chars : (", ".intercalate (vs.map display)).toList ++ ']' :: []
        = (", ".intercalate (ws.map display)).toList ++ ']' :: [] := by rw [same]
    exact (intercalate_append_inj plain readable plain' chars).1
  · rintro rfl
    rfl

end Texts

/-! ## Equality -/

theorem agree_iff_eq {a b : Option Value} (exact : ∀ v, a = some v → ∀ w, (v == w) = true ↔ v = w) :
    Agree a b ↔ a = b := by
  cases a with
  | none => rw [agree_none_iff, eq_comm]
  | some v => simp only [agree_some_iff, exact v rfl, exists_eq_right', eq_comm]

/-- Plain data equals nothing but itself. -/
theorem Plain.beq_iff_eq (plain : v.Plain) : (v == w) = true ↔ v = w := by
  induction plain generalizing w with
  | nothing | int | bool | str => rw [beq_iff_of_marked rfl]; cases w <;> simp [mark?, eq_comm]
  | @slice vs plain ih =>
    have place : ∀ (ws : List Value) (i : Nat), Agree vs[i]? ws[i]? ↔ vs[i]? = ws[i]? := fun ws i =>
      agree_iff_eq fun v hv w => ih v (List.mem_of_getElem? hv)
    simp only [slice_beq_iff, place, ← List.ext_getElem?_iff]
    constructor
    · rintro ⟨ws, rfl, rfl⟩
      rfl
    · rintro rfl
      exact ⟨vs, rfl, rfl⟩

/-- The text of plain data is unambiguous: two values have one text if and only if they are equal, and so have two
lists of values with commas between them, whatever characters the texts among them are made of, and whichever of these
are escaped for want of a glyph. -/
theorem display_unambiguous [Text.Glyphs] :
    (∀ v w : Value, v.Plain → w.Plain → (v.display = w.display ↔ (v == w) = true)) ∧
    (∀ vs ws : List Value, (∀ v ∈ vs, v.Plain) → (∀ w ∈ ws, w.Plain) →
      (", ".intercalate (vs.map display) = ", ".intercalate (ws.map display) ↔
        (Value.slice vs == .slice ws) = true)) ∧
    (∀ v w : Value, v.Plain → ((v == w) = true ↔ v = w)) := by
  refine ⟨fun v w plain plain' => ?_, fun vs ws plain plain' => ?_, fun v w plain => plain.beq_iff_eq⟩
  · rw [plain.display_eq_iff plain', plain.beq_iff_eq]
  · rw [intercalate_display_eq_iff plain plain', (Plain.slice plain).beq_iff_eq, Value.slice.injEq]

/-- Two texts with a comma inside, and one text that looks like the two with the comma between them. -/
theorem display_unambiguous_comma :
    let _ := Text.Glyphs.ascii
    let vs : List Value := [.str "a", .str "b"]
    let ws : List Value := [.str "a\", \"b"]
    ", ".intercalate (vs.map display) ≠ ", ".intercalate (ws.map display) ∧
      (Value.slice vs).display ≠ (Value.slice ws).display := by
  intro _ vs ws
  obtain ⟨values, lists, -⟩ := display_unambiguous
  have plain : ∀ ss : List String, ∀ v ∈ ss.map Value.str, v.Plain := by
    simpa using fun ss s _ => Plain.str s
  have plainVs : ∀ v ∈ vs, v.Plain := plain ["a", "b"]
  have plainWs : ∀ w ∈ ws, w.Plain := plain ["a\", \"b"]
  have apart : ¬ (Value.slice vs == .slice ws) = true := by decide
  exact ⟨mt (lists vs ws plainVs plainWs).1 apart, mt (values _ _ (.slice plainVs) (.slice plainWs)).1 apart⟩

end Value

end TaggedUnion
