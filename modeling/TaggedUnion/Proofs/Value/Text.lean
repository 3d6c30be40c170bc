/-
The plain text of a value. Slices, maps and payloads are written from the texts of what they hold. A map is written with
its names in ascending order of their bytes, so that neither the order in which it was filled nor the order of the
entries of maps at any depth is seen in the text.
-/
import TaggedUnion.Proofs.Text.ByteOrder
import TaggedUnion.Proofs.Value.Contents
import TaggedUnion.Value.Text

namespace TaggedUnion.Value

variable {v w : Value} {vs : List Value} {es fs : Entries Value}

/-! ## Texts of what is held -/

section Texts

variable [Text.Glyphs]

theorem displayList_eq_map (vs : List Value) : displayList vs = vs.map display := by
  induction vs with
  | nil => rfl
  | cons v vs ih => rw [displayList, ih, List.map_cons]

theorem displayEntries_eq_map (es : Entries Value) :
    displayEntries es = es.map fun e => (e.1, e.2.display) := by
  induction es with
  | nil => rfl
  | cons e es ih => rw [displayEntries, ih, List.map_cons]

theorem display_slice (vs : List Value) : (Value.slice vs).display = bracketed (vs.map display) := by
  rw [display, displayList_eq_map]

theorem display_tagged (ident : Nat) (t : Tag) (vs : List Value) :
    (Value.tagged ⟨ident, t, vs⟩).display = t.display ++ "(" ++ ", ".intercalate (vs.map display) ++ ")" := by
  rw [display, displayList_eq_map]

/-- A map is written from its entries in the order of their names. -/
theorem display_map (es : Entries Value) :
    (Value.map es).display = braced (es.byName.map fun e => e.1 ++ ": " ++ e.2.display) := by
  have commutes : Entries.byName (displayEntries es) = es.byName.map fun e => (e.1, e.2.display) := by
    rw [displayEntries_eq_map]
    exact (List.map_mergeSort (f := fun e : String × Value => (e.1, e.2.display)) fun _ _ _ _ => rfl).symm
  rw [display, commutes, List.map_map]
  rfl

theorem lookup_displayEntries (es : Entries Value) (name : String) :
    (displayEntries es).lookup name = (es.lookup name).map display := by
  induction es with
  | nil => rfl
  | cons e es ih =>
    rw [displayEntries, List.lookup_cons, List.lookup_cons, ih]
    cases name == e.1 <;> rfl

theorem distinct_displayEntries (distinct : es.Distinct) : Entries.Distinct (displayEntries es) := by
  rw [displayEntries_eq_map, Entries.Distinct, List.map_map]
  exact distinct

/-- Maps that hold values of one text under each name have one text. -/
theorem display_map_congr (distinct : es.Distinct) (distinct' : fs.Distinct)
    (same : ∀ name, (es.lookup name).map display = (fs.lookup name).map display) :
    (Value.map es).display = (Value.map fs).display := by
  have perm : (displayEntries es).Perm (displayEntries fs) := by
    rw [Entries.perm_iff_lookup_eq (distinct_displayEntries distinct) (distinct_displayEntries distinct')]
    intro name
    rw [lookup_displayEntries, lookup_displayEntries, same]
  rw [display, display, Entries.byName_eq_of_perm (distinct_displayEntries distinct) perm]

/-- The order of the entries of a map is not seen in its text. -/
theorem display_map_eq_of_perm (distinct : es.Distinct) (perm : es.Perm fs) :
    (Value.map es).display = (Value.map fs).display := by
  have distinct' := distinct.of_perm perm
  refine display_map_congr distinct distinct' fun name => ?_
  rw [(Entries.perm_iff_lookup_eq distinct distinct').1 perm]

theorem display_ofEntries_of_perm {es fs : List (String × Value)} (distinct : Entries.Distinct es) (perm : es.Perm fs) :
    (ofEntries es).display = (ofEntries fs).display := by
  rw [ofEntries, ofEntries, distinct.ofList_eq, (distinct.of_perm perm).ofList_eq]
  exact display_map_eq_of_perm distinct perm

end Texts

/-! ## The order of entries -/

/-- Whether a value is in another at any depth, be it in a slice, a map or a payload. -/
inductive Contains : Value → Value → Prop where
  | refl (v : Value) : Contains v v
  | slice {vs : List Value} {v w : Value} (mem : v ∈ vs) (rest : Contains v w) : Contains (.slice vs) w
  | map {es : Entries Value} {e : String × Value} {w : Value} (mem : e ∈ es) (rest : Contains e.2 w) :
      Contains (.map es) w
  | payload {x : Tagged Value} {v w : Value} (mem : v ∈ x.payload) (rest : Contains v w) : Contains (.tagged x) w

/-- Whether no map in a value, payloads included, has two entries of one name. -/
def ProperThroughout (v : Value) : Prop := ∀ es, v.Contains (.map es) → Entries.Distinct es

theorem properThroughout_slice_iff : (Value.slice vs).ProperThroughout ↔ ∀ v ∈ vs, v.ProperThroughout := by
  constructor
  · exact fun h v mem es rest => h es (.slice mem rest)
  · intro h es inside
    cases inside with
    | slice mem rest => exact h _ mem es rest

theorem properThroughout_map_iff :
    (Value.map es).ProperThroughout ↔ Entries.Distinct es ∧ ∀ e ∈ es, e.2.ProperThroughout := by
  constructor
  · exact fun h => ⟨h es (.refl _), fun e mem fs rest => h fs (.map mem rest)⟩
  · rintro ⟨distinct, inside⟩ fs within
    cases within with
    | refl => exact distinct
    | map mem rest => exact inside _ mem fs rest

theorem properThroughout_tagged_iff {x : Tagged Value} :
    (Value.tagged x).ProperThroughout ↔ ∀ v ∈ x.payload, v.ProperThroughout := by
  constructor
  · exact fun h v mem es rest => h es (.payload mem rest)
  · intro h es inside
    cases inside with
    | payload mem rest => exact h _ mem es rest

theorem Rearranged.properThroughout (rearranged : Rearranged v w) (proper : v.ProperThroughout) :
    w.ProperThroughout := by
  induction rearranged with
  | refl => exact proper
  | trans _ _ ih ih' => exact ih' (ih proper)
  | entries perm =>
    obtain ⟨distinct, inside⟩ := properThroughout_map_iff.1 proper
    exact properThroughout_map_iff.2 ⟨distinct.of_perm perm, fun e he => inside e (perm.mem_iff.2 he)⟩
  | inSlice before after _ ih =>
    rw [properThroughout_slice_iff, List.forall_mem_append, List.forall_mem_cons] at proper ⊢
    exact ⟨proper.1, ih proper.2.1, proper.2.2⟩
  | inMap before after name _ ih =>
    rw [properThroughout_map_iff, List.forall_mem_append, List.forall_mem_cons, Entries.Distinct, List.map_append,
      List.map_cons] at proper ⊢
    exact ⟨proper.1, proper.2.1, ih proper.2.2.1, proper.2.2.2⟩
  | inPayload ident t before after _ ih =>
    rw [properThroughout_tagged_iff, List.forall_mem_append, List.forall_mem_cons] at proper ⊢
    exact ⟨proper.1, ih proper.2.1, proper.2.2⟩

/-- The order of the entries of maps, at any depth, is not seen in the text. -/
theorem Rearranged.display_eq [Text.Glyphs] (rearranged : Rearranged v w) (proper : v.ProperThroughout) :
    v.display = w.display := by
  induction rearranged with
  | refl => rfl
  | trans first _ ih ih' => exact (ih proper).trans (ih' (first.properThroughout proper))
  | entries perm => exact display_map_eq_of_perm (properThroughout_map_iff.1 proper).1 perm
  | inSlice before after _ ih =>
    have same := ih (properThroughout_slice_iff.1 proper _ List.mem_append_cons_self)
    simp only [display_slice, List.map_append, List.map_cons, same]
  | inMap before after name _ ih =>
    have same := ih ((properThroughout_map_iff.1 proper).2 _ List.mem_append_cons_self)
    simp only [display, displayEntries_eq_map, List.map_append, List.map_cons, same]
  | inPayload ident t before after _ ih =>
    have same := ih (properThroughout_tagged_iff.1 proper _ List.mem_append_cons_self)
    simp only [display_tagged, List.map_append, List.map_cons, same]

/-- A map is written with its names in ascending order of their bytes. -/
theorem display_map_ascending [Text.Glyphs] (distinct : es.Distinct) : ∃ sorted : Entries Value, sorted.Perm es ∧
    sorted.Pairwise (fun d e => Text.bytes d.1 < Text.bytes e.1) ∧
    (Value.map es).display = braced (sorted.map fun e => e.1 ++ ": " ++ e.2.display) := by
  refine ⟨es.byName, es.byName_perm, ?_, display_map es⟩
  exact (Entries.pairwise_lt_byName distinct).imp Text.lt_iff_bytes_lt.1

end TaggedUnion.Value
