/-
Making named unions. What is wrong with the names is found in this order: they are no slice, the first of them
that is no text, the first that is reserved. No tag is made for names like these. For all others a tag each is made,
with the next numbers and in order, and only then is the first repeat found, so that its tags have been
made. Without a repeat the names and the new members correspond to each other, one to one, and nothing that
was there before is in the union.
-/
import TaggedUnion.Proofs.NamedUnion.Handlers
import TaggedUnion.Proofs.Union.Dispatch
import TaggedUnion.Proofs.World.Tags
import TaggedUnion.Script.Eval
import Mathlib.Data.Set.List

namespace TaggedUnion

/-! ## Series of tags -/

/-- Tags of given names, numbered from `k` on. -/
def Tag.series (k : Nat) (names : List String) : List Tag :=
  (names.zipIdx k).map fun p => .nth p.2 (some p.1)

namespace Tag

variable {k : Nat} {names : List String}

theorem getElem?_series {i : Nat} : (series k names)[i]? = names[i]?.map fun name => nth (k + i) (some name) := by
  simp only [series, List.getElem?_map, List.getElem?_zipIdx, Option.map_map, Function.comp_def]

theorem length_series : (series k names).length = names.length := by
  rw [series, List.length_map, List.length_zipIdx]

theorem map_ident_series : (series k names).map Tag.ident = List.range' k names.length := by
  rw [series, List.map_map]
  exact List.zipIdx_map_snd k names

theorem map_id_series : (series k names).map Tag.id = (List.range' k names.length).map UInt64.ofNat := by
  rw [← map_ident_series, series, List.map_map, List.map_map, List.map_map]
  rfl

theorem map_name_series : (series k names).map Tag.name = names.map some := by
  rw [series, List.map_map, ← List.zipIdx_map_fst k names, List.map_map, List.zipIdx_map_fst]
  rfl

theorem filterMap_name_series : (series k names).filterMap Tag.name = names := by
  have named : ((series k names).map Tag.name).filterMap (fun name => name) =
      (names.map some).filterMap fun name => name := by rw [map_name_series]
  simpa only [List.filterMap_map, Function.comp_def, List.filterMap_some] using named

theorem filterMap_entry?_series : (series k names).filterMap entry? = names.zip (series k names) := by
  induction names generalizing k with
  | nil => rfl
  | cons name names ih => exact congrArg ((name, nth k (some name)) :: ·) ih

theorem nodup_series : (series k names).Nodup := by
  refine List.Nodup.of_map Tag.ident ?_
  rw [map_ident_series]
  exact List.nodup_range'

theorem le_ident_of_mem_series {t : Tag} (ht : t ∈ series k names) : k ≤ t.ident := by
  have number : t.ident ∈ (series k names).map Tag.ident := List.mem_map_of_mem ht
  rw [map_ident_series, List.mem_range'_1] at number
  exact number.1

end Tag

namespace History

/-- The history with tags made one after another. -/
def withTags (h : History) (ts : List Tag) : History :=
  { h with tags := h.tags + ts.length, events := h.events ++ ts.map fun t => Event.recorded (.tagCreated t) }

@[simp] theorem withTags_nil (h : History) : h.withTags [] = h := by
  simp [withTags]

theorem withTags_withTags (h : History) (ts ts' : List Tag) :
    (h.withTags ts).withTags ts' = h.withTags (ts ++ ts') := by
  simp [withTags, Nat.add_assoc, ← Array.toList_inj]

theorem created_withTags (h : History) (ts : List Tag) : (h.withTags ts).created = h.created ++ ts := by
  have made : (ts.map fun t => Event.recorded (.tagCreated t)).filterMap Event.created? = ts := by
    rw [List.filterMap_map]
    exact List.filterMap_some
  simp only [created, withTags, Array.toList_appendList, List.filterMap_append, made]

end History

theorem Tag.create_apply (name : Option String) (h : History) :
    create name h = .ok ⟨.nth h.tags name, rfl⟩ (h.withTags [.nth h.tags name]) := rfl

/-- Each tag of a series takes the next number. -/
theorem Tag.createAll_apply (names : List String) (h : History) :
    createAll names h = .ok ⟨series h.tags names, map_name_series⟩ (h.withTags (series h.tags names)) := by
  induction names generalizing h with
  | nil =>
    show EStateM.Result.ok _ h = .ok _ (h.withTags [])
    rw [History.withTags_nil]
    rfl
  | cons name names ih =>
    simp only [createAll, Run.bind_apply, create_apply, ih, History.withTags_withTags]
    rfl

/-- Of a series only a name can repeat. -/
theorem Union.clash?_series (k : Nat) (names : List String) :
    clash? (Tag.series k names) = (firstRepeat? names).map .repeatedName := by
  rw [clash?, firstRepeat?_eq_none_iff.2 Tag.nodup_series, Tag.filterMap_name_series]

/-! ## Faults -/

theorem Value.str?_eq_some_iff {v : Value} {s : String} : v.str? = some s ↔ v = .str s := by
  constructor
  · intro h
    cases v <;> cases h
    rfl
  · rintro rfl
    rfl

theorem Value.slice?_eq_some_iff {v : Value} {vs : List Value} : v.slice? = some vs ↔ v = .slice vs := by
  constructor
  · intro h
    cases v <;> cases h
    rfl
  · rintro rfl
    rfl

namespace NamedUnion

/-- What is wrong with the names of a union in the first place, whether they repeat or not. -/
inductive NamesFault (x : Value) : Error → Prop where
  | namesNotSlice (noSlice : x.slice? = none) : NamesFault x (.namesNotSlice x.kind)
  /-- The first that is no text. -/
  | nameNotText {vs : List Value} {v : Value} {i : Nat} (slice : x = .slice vs)
      (first : IsLeast {i | HoldsAt (fun v => v.str? = none) vs i} i) (hi : vs[i]? = some v) :
      NamesFault x (.nameNotText i v.kind)
  /-- The first that is reserved, also if a name repeats in front of it. -/
  | reservedName {names : List String} {name : String} {i : Nat} (texts : x = .slice (names.map .str))
      (first : IsLeast {i | HoldsAt (· ∈ reserved) names i} i) (hi : names[i]? = some name) :
      NamesFault x (.reservedName name)

theorem textsFrom_map_str (index : Nat) (names : List String) : textsFrom index (names.map .str) = .ok names := by
  induction names generalizing index with
  | nil => rfl
  | cons name names ih => rw [List.map_cons, textsFrom, ih]; rfl

theorem textsFrom_cons_of_not_text {v : Value} (noText : v.str? = none) (index : Nat) (vs : List Value) :
    textsFrom index (v :: vs) = .error (.nameNotText index v.kind) := by
  cases v <;> first | rfl | cases noText

theorem textsFrom_of_not_text {vs : List Value} {v : Value} {i : Nat} (index : Nat)
    (first : IsLeast {i | HoldsAt (fun v => v.str? = none) vs i} i) (hi : vs[i]? = some v) :
    textsFrom index vs = .error (.nameNotText (index + i) v.kind) := by
  induction vs generalizing index i with
  | nil => cases hi
  | cons w ws ih =>
    cases text : w.str? with
    | none =>
      obtain rfl : i = 0 := Nat.le_zero.1 (first.2 ⟨w, rfl, text⟩)
      cases hi
      exact textsFrom_cons_of_not_text text index ws
    | some s =>
      obtain rfl := Value.str?_eq_some_iff.1 text
      have skip : ¬ HoldsAt (fun v : Value => v.str? = none) (.str s :: ws) 0 := by
        rintro ⟨v, hv, noText⟩
        cases hv
        cases noText
      cases i with
      | zero => exact absurd first.1 skip
      | succ i =>
        rw [textsFrom, ih (index + 1) ((isLeast_succ_iff skip).1 first) hi, Nat.add_right_comm]
        rfl

/-- In a slice either all elements are texts or one that is none comes first. -/
theorem texts_or_not_text (vs : List Value) :
    (∃ names : List String, vs = names.map .str) ∨
    ∃ i v, IsLeast {i | HoldsAt (fun v : Value => v.str? = none) vs i} i ∧ vs[i]? = some v := by
  cases h : vs.find? fun v => v.str?.isNone with
  | some v =>
    obtain ⟨i, first, hi⟩ := find?_eq_some_iff_isLeast.1 h
    simp only [Option.isNone_iff_eq_none] at first
    exact .inr ⟨i, v, first, hi⟩
  | none =>
    have text : ∀ v ∈ vs, ∃ s, Value.str s = v := by
      intro v hv
      have isText : v.str? ≠ none := by simpa using List.find?_eq_none.1 h v hv
      obtain ⟨s, hs⟩ := Option.ne_none_iff_exists'.1 isText
      exact ⟨s, (Value.str?_eq_some_iff.1 hs).symm⟩
    obtain ⟨names, rfl⟩ : vs ∈ Set.range (List.map Value.str) := by rwa [Set.range_list_map]
    exact .inl ⟨names, rfl⟩

theorem namesOf_map_str (names : List String) : namesOf (.slice (names.map .str)) = .ok names :=
  textsFrom_map_str 0 names

theorem ofValue_of_fault {x : Value} {e : Error} (fault : NamesFault x e) (h : History) :
    ofValue x h = .error e h := by
  rw [ofValue, Run.bind_apply]
  cases fault with
  | namesNotSlice noSlice =>
    rw [namesOf, noSlice]
    rfl
  | nameNotText slice first hi =>
    subst slice
    rw [namesOf, Value.slice?]
    simp only [textsFrom_of_not_text 0 first hi, Nat.zero_add]
    rfl
  | @reservedName names name i texts first hi =>
    have found : (names.find? fun name => decide (name ∈ reserved)) = some name := by
      refine find?_eq_some_iff_isLeast.2 ⟨i, ?_, hi⟩
      simpa only [decide_eq_true_eq] using first
    rw [texts, namesOf_map_str]
    simp only [Run.ofExcept_ok, Run.pure_apply, create, found]
    rfl

theorem fault_or_texts (x : Value) : (∃ e, NamesFault x e) ∨
    ∃ names : List String, x = .slice (names.map .str) ∧ ∀ name ∈ names, name ∉ reserved := by
  cases slice : x.slice? with
  | none => exact .inl ⟨_, .namesNotSlice slice⟩
  | some vs =>
    obtain rfl := Value.slice?_eq_some_iff.1 slice
    rcases texts_or_not_text vs with ⟨names, rfl⟩ | ⟨i, v, first, hi⟩
    · cases h : names.find? fun name => decide (name ∈ reserved) with
      | none => exact .inr ⟨names, rfl, by simpa using h⟩
      | some name =>
        obtain ⟨i, first, hi⟩ := find?_eq_some_iff_isLeast.1 h
        simp only [decide_eq_true_eq] at first
        exact .inl ⟨_, .reservedName rfl first hi⟩
    · exact .inl ⟨_, .nameNotText rfl first hi⟩

/-! ## New named unions -/

/-- The named union of a series of tags. -/
def ofSeries (ident k : Nat) {names : List String} (nodup : names.Nodup) : NamedUnion :=
  .ofUnion ⟨ident, Tag.series k names, Tag.nodup_series, by rwa [Tag.filterMap_name_series]⟩
    (isSome_name_of_map_name_eq Tag.map_name_series)

variable {ident k : Nat} {names : List String} {nodup : names.Nodup}

theorem names_ofSeries : (ofSeries ident k nodup).names = names := Tag.filterMap_name_series

/-- A member is found under the name at its place, and under no other. -/
theorem get?_ofSeries_eq_some_iff {i : Nat} {t : Tag} (ht : (Tag.series k names)[i]? = some t) {name : String} :
    (ofSeries ident k nodup).get? name = some t ↔ names[i]? = some name := by
  rw [Tag.getElem?_series, Option.map_eq_some_iff] at ht
  obtain ⟨own, hi, rfl⟩ := ht
  have member : Tag.nth (k + i) (some own) ∈ Tag.series k names :=
    List.mem_of_getElem? (i := i) (by rw [Tag.getElem?_series, hi]; rfl)
  rw [get?_eq_some_iff, hi]
  exact and_iff_right member

/-- No member is lost in the map. -/
theorem members_ofSeries : (ofSeries ident k nodup).members = names.zip (Tag.series k names) := by
  rw [members_eq_filterMap]
  exact Tag.filterMap_entry?_series

/-- A union of tags that are numbered from `k` on does not have a value whose tags are numbered below. -/
theorem has_ofSeries_eq_false {v : Value} (old : ∀ t, .tag t ∈ v.objects → t.ident < k) :
    (ofSeries ident k nodup).union.has v = false := by
  rw [← Bool.not_eq_true, Union.has_iff]
  rintro ⟨x, hx, member⟩
  have known : .tag x.tag ∈ v.objects := by
    rw [Value.objects_of_tagged?_eq_some hx]
    exact List.mem_cons_of_mem _ List.mem_cons_self
  exact absurd (Tag.le_ident_of_mem_series member) (Nat.not_le_of_lt (old _ known))

/-- If no name is reserved, what becomes of the names is what the union makes of their tags. -/
theorem create_eq_bind {h : History} (free : ∀ name ∈ names, name ∉ reserved) :
    create names h = (do
      let u ← Union.create (Tag.series h.tags names)
      return ofUnion u (isSome_name_of_map_name_eq (by rw [u.2, Tag.map_name_series])) : Run NamedUnion)
        (h.withTags (Tag.series h.tags names)) := by
  have found : (names.find? fun name => decide (name ∈ reserved)) = none := by
    simpa [List.find?_eq_none] using free
  rw [create, found]
  simp only [Run.bind_apply, Tag.createAll_apply]

/-- The first repeat is found when all the tags have been made. -/
theorem create_of_repeat {h : History} {name : String} (free : ∀ name ∈ names, name ∉ reserved)
    (again : firstRepeat? names = some name) :
    create names h = .error (.repeatedName name) (h.withTags (Tag.series h.tags names)) := by
  rw [create_eq_bind free, Union.create_of_clash (by rw [Union.clash?_series, again, Option.map_some])]
  rfl

theorem create_of_nodup {h : History} (free : ∀ name ∈ names, name ∉ reserved) (nodup : names.Nodup) :
    create names h = .ok (ofSeries h.objects h.tags nodup)
      ((h.withTags (Tag.series h.tags names)).withUnion (Tag.series h.tags names).length) := by
  rw [create_eq_bind free, Union.create_of_valid Tag.nodup_series (by rwa [Tag.filterMap_name_series])]
  rfl

/-- Whether a named union has these tags under these names and under no others, however a member is looked up: in the
map, or taken for granted. -/
structure Indexes (n : NamedUnion) (names : List String) (ts : List Tag) : Prop where
  names_eq : n.names = names
  tags_eq : n.union.tags = ts
  members_eq : n.members = names.zip ts
  get : ∀ (i : Nat) t, ts[i]? = some t → ∀ s, n.get? s = some t ↔ names[i]? = some s
  index : ∀ (i : Nat) t, ts[i]? = some t → ∀ s, n.index s = .ok t ↔ names[i]? = some s
  memberOf : ∀ (i : Nat) t, ts[i]? = some t → ∀ s, names[i]? = some s → Script.memberOf n s = pure t
  get_stranger : ∀ s ∉ names, n.get? s = none
  index_stranger : ∀ s ∉ names, n.index s = .error ⟨n.union, s⟩
  memberOf_stranger : ∀ s ∉ names, Script.memberOf n s = throw (.noMember ⟨n.union, s⟩)

theorem indexes_ofSeries : (ofSeries ident k nodup).Indexes names (Tag.series k names) := by
  have get : ∀ (i : Nat) t, (Tag.series k names)[i]? = some t → ∀ s,
      (ofSeries ident k nodup).get? s = some t ↔ names[i]? = some s :=
    fun i t ht s => get?_ofSeries_eq_some_iff ht
  have index : ∀ (i : Nat) t, (Tag.series k names)[i]? = some t → ∀ s,
      (ofSeries ident k nodup).index s = .ok t ↔ names[i]? = some s :=
    fun i t ht s => index_eq_ok_iff.trans (get i t ht s)
  have index_stranger : ∀ s ∉ names,
      (ofSeries ident k nodup).index s = .error ⟨(ofSeries ident k nodup).union, s⟩ :=
    fun s stranger => index_of_not_mem (by rwa [names_ofSeries])
  exact {
    names_eq := names_ofSeries
    tags_eq := rfl
    members_eq := members_ofSeries
    get := get
    index := index
    memberOf := fun i t ht s hs => by rw [Script.memberOf, (index i t ht s).2 hs]
    get_stranger := fun s stranger => get?_eq_none_iff.2 (by rwa [names_ofSeries])
    index_stranger := index_stranger
    memberOf_stranger := fun s stranger => by rw [Script.memberOf, index_stranger s stranger] }

/-- Names make exactly a new union that is indexed by them, or fail with the fault that comes first, in these
words. Where they are no texts or one is reserved, nothing is made. Otherwise they get the next numbers as tags,
one each and in order; if one repeats, the first to do so is to blame, and if not, the members are found under
their own names and under no other, and nothing that was there before is in the union. A member that does not exist
cannot be taken for granted. -/
theorem ofValue_makes_new_members [Text.Glyphs] (x : Value) (h : History) :
    ((∃ e, NamesFault x e) ∨
      ∃ names : List String, x = .slice (names.map .str) ∧ ∀ name ∈ names, name ∉ reserved) ∧
    (∀ e, NamesFault x e → ofValue x h = .error e h) ∧
    (∀ names : List String, x = .slice (names.map .str) → (∀ name ∈ names, name ∉ reserved) →
      ∃ (ts : List Tag) (h' : History), ts.map Tag.ident = List.range' h.tags names.length ∧
        ts.map Tag.id = (List.range' h.tags names.length).map UInt64.ofNat ∧
        ts.map Tag.name = names.map some ∧ h'.created = h.created ++ ts ∧ h'.tags = h.tags + names.length ∧
        ((∃ (i : Nat) (name : String), IsLeast {i | RepeatsAt names i} i ∧ names[i]? = some name ∧
            ofValue x h = .error (.repeatedName name) h') ∨
          (names.Nodup ∧ ∃ n : NamedUnion, ofValue x h = .ok n h' ∧ n.Indexes names ts ∧
            (∀ w : World, w.Reachable → w.history = h → ∀ v, w.Has (.value v) → n.union.has v = false)))) ∧
    (∀ (u : Union) s, (⟨u, s⟩ : NoMember).text = u.display ++ " has no member " ++ Text.quoted s) ∧
    (∀ k, (Error.namesNotSlice k).message =
      "invalid argument: " ++ ("The names of a union must be an array, got " ++ k.name)) ∧
    (∀ i k, (Error.nameNotText i k).message =
      "invalid argument: " ++ ("Name " ++ toString i ++ " must be a string, got " ++ k.name)) ∧
    (∀ name, (Error.reservedName name).message =
      "duplicate definition: " ++ ("The name " ++ Text.quoted name ++ " is reserved by the union")) ∧
    (∀ name, (Error.repeatedName name).message =
      "duplicate definition: " ++ ("Two Tags in the union have the display name " ++ Text.quoted name)) := by
  refine ⟨fault_or_texts x, fun e fault => ofValue_of_fault fault h, fun names texts free => ?_,
    fun u s => rfl, fun k => rfl, fun i k => rfl, fun name => rfl, fun name => rfl⟩
  subst texts
  have made : ofValue (.slice (names.map .str)) h = create names h := by
    rw [ofValue, namesOf_map_str]
    rfl
  have created := h.created_withTags (Tag.series h.tags names)
  have tags : (h.withTags (Tag.series h.tags names)).tags = h.tags + names.length :=
    congrArg (h.tags + ·) Tag.length_series
  cases again : firstRepeat? names with
  | some name =>
    obtain ⟨i, first, hi⟩ := firstRepeat?_eq_some_iff.1 again
    exact ⟨_, _, Tag.map_ident_series, Tag.map_id_series, Tag.map_name_series, created, tags,
      .inl ⟨i, name, first, hi, made.trans (create_of_repeat free again)⟩⟩
  | none =>
    have nodup := firstRepeat?_eq_none_iff.1 again
    refine ⟨_, _, Tag.map_ident_series, Tag.map_id_series, Tag.map_name_series,
      (History.created_withUnion _ _).trans created, tags,
      .inr ⟨nodup, _, made.trans (create_of_nodup free nodup), indexes_ofSeries, ?_⟩⟩
    rintro w run rfl v has
    refine has_ofSeries_eq_false fun t ht => ?_
    exact run.nominal.numbered.ident_lt (run.nominal.made t (has ht))

end NamedUnion

end TaggedUnion
