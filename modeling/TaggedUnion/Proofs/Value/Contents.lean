/-
What is in a value. Slices and maps hold their elements and entries; tagged values, functions and unions are known by
their identity, so what they are made of is not in them. A value is proper if no map in it has two entries of one name,
and all values that are made one from another are. Two values are rearranged if they differ in the order of the entries
of maps alone, wherever the maps are.
-/
import TaggedUnion.Proofs.Value.Entries
import TaggedUnion.Value.Basic

namespace TaggedUnion

/-! ## Marks -/

/-- What a value is compared by if it is neither a number nor holds others: its content or its identity. -/
inductive Mark where
  | nothing
  | int (i : Int64)
  | bool (b : Bool)
  | str (s : String)
  | function (ident : Nat)
  | tag (ident : Nat)
  | tagged (ident : Nat)
  | union (ident : Nat)

namespace Value

def mark? : Value → Option Mark
  | .nothing => some .nothing
  | .int i => some (.int i)
  | .bool b => some (.bool b)
  | .str s => some (.str s)
  | .function f => some (.function f.ident)
  | .tag t => some (.tag t.ident)
  | .tagged x => some (.tagged x.ident)
  | .union u => some (.union u.ident)
  | .float _ | .slice _ | .map _ => none

/-- What holds of slices and maps if it holds of all that they hold, of numbers, and of the values with a mark, holds
of all values. -/
@[elab_as_elim]
theorem contents_induction {P : Value → Prop} (slice : ∀ vs, (∀ v ∈ vs, P v) → P (.slice vs))
    (map : ∀ es, (∀ e ∈ es, P e.2) → P (.map es)) (float : ∀ x, P (.float x))
    (marked : ∀ v m, v.mark? = some m → P v) (v : Value) : P v := by
  match v with
  | .slice vs => exact slice vs fun v hv => contents_induction slice map float marked v
  | .map es => exact map es fun e he => contents_induction slice map float marked e.2
  | .float x => exact float x
  | .nothing | .int _ | .bool _ | .str _ | .function _ | .tag _ | .tagged _ | .union _ => exact marked _ _ rfl
termination_by sizeOf v
decreasing_by
  · have := List.sizeOf_lt_of_mem hv
    simp only [Value.slice.sizeOf_spec]
    omega
  · have := List.sizeOf_lt_of_mem he
    obtain ⟨name, w⟩ := e
    simp only [Value.map.sizeOf_spec, Prod.mk.sizeOf_spec] at this ⊢
    omega

/-! ## What is reached -/

variable {v w : Value} {vs : List Value} {es : Entries Value}

/-- Whether a value is reached from another through slices and maps alone. -/
inductive Reaches : Value → Value → Prop where
  | refl (v : Value) : Reaches v v
  | slice {vs : List Value} {v w : Value} (mem : v ∈ vs) (rest : Reaches v w) : Reaches (.slice vs) w
  | map {es : Entries Value} {e : String × Value} {w : Value} (mem : e ∈ es) (rest : Reaches e.2 w) :
      Reaches (.map es) w

theorem reaches_slice_iff : (Value.slice vs).Reaches w ↔ w = .slice vs ∨ ∃ v ∈ vs, v.Reaches w := by
  constructor
  · intro h
    cases h with
    | refl => exact .inl rfl
    | slice mem rest => exact .inr ⟨_, mem, rest⟩
  · rintro (rfl | ⟨v, mem, rest⟩)
    exacts [.refl _, .slice mem rest]

theorem reaches_map_iff : (Value.map es).Reaches w ↔ w = .map es ∨ ∃ e ∈ es, e.2.Reaches w := by
  constructor
  · intro h
    cases h with
    | refl => exact .inl rfl
    | map mem rest => exact .inr ⟨_, mem, rest⟩
  · rintro (rfl | ⟨e, mem, rest⟩)
    exacts [.refl _, .map mem rest]

/-- From a value with a mark nothing else is reached, whatever its payload is. -/
theorem reaches_iff_of_marked {m : Mark} (marked : v.mark? = some m) : v.Reaches w ↔ w = v := by
  constructor
  · intro h
    cases h with
    | refl => rfl
    | slice | map => cases marked
  · rintro rfl
    exact .refl w

theorem reaches_float_iff {x : Binary64} : (Value.float x).Reaches w ↔ w = .float x := by
  constructor
  · intro h
    cases h
    rfl
  · rintro rfl
    exact .refl _

/-! ## Proper values -/

/-- Whether no map that is reached has two entries of one name. -/
def Proper (v : Value) : Prop := ∀ es, v.Reaches (.map es) → Entries.Distinct es

theorem proper_slice_iff : (Value.slice vs).Proper ↔ ∀ v ∈ vs, v.Proper := by
  simp only [Proper, reaches_slice_iff, reduceCtorEq, false_or]
  exact ⟨fun h v mem es rest => h es ⟨v, mem, rest⟩, fun h es ⟨v, mem, rest⟩ => h v mem es rest⟩

theorem proper_map_iff : (Value.map es).Proper ↔ Entries.Distinct es ∧ ∀ e ∈ es, e.2.Proper := by
  simp only [Proper, reaches_map_iff, Value.map.injEq]
  constructor
  · exact fun h => ⟨h es (.inl rfl), fun e mem fs rest => h fs (.inr ⟨e, mem, rest⟩)⟩
  · rintro ⟨distinct, inside⟩ fs (rfl | ⟨e, mem, rest⟩)
    exacts [distinct, inside e mem fs rest]

theorem Proper.distinct (proper : (Value.map es).Proper) : Entries.Distinct es := proper es (.refl _)

theorem Proper.of_getElem? (proper : (Value.slice vs).Proper) {i : Nat} (here : vs[i]? = some v) : v.Proper :=
  proper_slice_iff.1 proper v (List.mem_of_getElem? here)

theorem Proper.of_lookup (proper : (Value.map es).Proper) {name : String} (here : es.lookup name = some v) :
    v.Proper :=
  (proper_map_iff.1 proper).2 (name, v) ((Entries.lookup_eq_some_iff_mem proper.distinct).1 here)

theorem proper_of_not_holding (noSlice : v.slice? = none) (noMap : v.map? = none) : v.Proper := by
  intro es reached
  cases reached with
  | refl => cases noMap
  | slice => cases noSlice
  | map => cases noMap

/-- A map is proper whatever is put into it, as long as that is. -/
theorem proper_ofEntries {es : List (String × Value)} (inside : ∀ e ∈ es, e.2.Proper) : (ofEntries es).Proper := by
  obtain ⟨distinct, members⟩ := Entries.distinct_ofList es
  exact proper_map_iff.2 ⟨distinct, fun e he => inside e (members he)⟩

/-! ## Rearranged values -/

/-- Whether a value is another one but for the order of the entries of maps, at any depth. -/
inductive Rearranged : Value → Value → Prop where
  | refl (v : Value) : Rearranged v v
  | trans {u v w : Value} (first : Rearranged u v) (second : Rearranged v w) : Rearranged u w
  | entries {es fs : Entries Value} (perm : es.Perm fs) : Rearranged (.map es) (.map fs)
  | inSlice (before after : List Value) {v w : Value} (inside : Rearranged v w) :
      Rearranged (.slice (before ++ v :: after)) (.slice (before ++ w :: after))
  | inMap (before after : Entries Value) (name : String) {v w : Value} (inside : Rearranged v w) :
      Rearranged (.map (before ++ (name, v) :: after)) (.map (before ++ (name, w) :: after))
  | inPayload (ident : Nat) (t : Tag) (before after : List Value) {v w : Value} (inside : Rearranged v w) :
      Rearranged (.tagged ⟨ident, t, before ++ v :: after⟩) (.tagged ⟨ident, t, before ++ w :: after⟩)

theorem Rearranged.proper (rearranged : Rearranged v w) (proper : v.Proper) : w.Proper := by
  induction rearranged with
  | refl => exact proper
  | trans _ _ ih ih' => exact ih' (ih proper)
  | entries perm =>
    obtain ⟨distinct, inside⟩ := proper_map_iff.1 proper
    exact proper_map_iff.2 ⟨distinct.of_perm perm, fun e he => inside e (perm.mem_iff.2 he)⟩
  | inSlice before after _ ih =>
    rw [proper_slice_iff, List.forall_mem_append, List.forall_mem_cons] at proper ⊢
    exact ⟨proper.1, ih proper.2.1, proper.2.2⟩
  | inMap before after name _ ih =>
    rw [proper_map_iff, List.forall_mem_append, List.forall_mem_cons, Entries.Distinct, List.map_append,
      List.map_cons] at proper ⊢
    exact ⟨proper.1, proper.2.1, ih proper.2.2.1, proper.2.2.2⟩
  | inPayload => exact proper_of_not_holding rfl rfl

/-- Maps that were filled in different orders, with the same put in last under each name, are rearranged. -/
theorem rearranged_ofEntries {es fs : List (String × Value)}
    (same : ∀ name, es.reverse.lookup name = fs.reverse.lookup name) :
    Rearranged (ofEntries es) (ofEntries fs) := by
  refine .entries ((Entries.perm_iff_lookup_eq (Entries.distinct_ofList es).1 (Entries.distinct_ofList fs).1).2 ?_)
  intro name
  rw [Entries.lookup_ofList, Entries.lookup_ofList, same]

/-- The order in which a map is filled with entries of different names does not matter. -/
theorem rearranged_ofEntries_of_perm {es fs : List (String × Value)} (distinct : Entries.Distinct es)
    (perm : es.Perm fs) : Rearranged (ofEntries es) (ofEntries fs) := by
  rw [ofEntries, ofEntries, distinct.ofList_eq, (distinct.of_perm perm).ofList_eq]
  exact .entries perm

end Value

end TaggedUnion
