/-
Finite maps by name. Where no two entries have one name, look-up is membership, the entries in the order
of their names are the same list whatever order they came in, and a search of that list finds the entry
of the least name.
-/
import TaggedUnion.Value.Entries
import Mathlib.Data.List.Nodup

namespace TaggedUnion.Entries

variable {α : Type} {es fs : Entries α}

/-- Whether no two entries have one name. -/
def Distinct (es : Entries α) : Prop := (es.map Prod.fst).Nodup

theorem Distinct.of_perm (distinct : es.Distinct) (perm : es.Perm fs) : fs.Distinct :=
  (perm.map Prod.fst).nodup_iff.1 distinct

theorem Distinct.eq_of_name_eq (distinct : es.Distinct) {a b : String × α} (ha : a ∈ es) (hb : b ∈ es)
    (same : a.1 = b.1) : a = b :=
  List.inj_on_of_nodup_map distinct ha hb same

theorem lookup_eq_some_iff_mem (distinct : es.Distinct) {name : String} {a : α} :
    es.lookup name = some a ↔ (name, a) ∈ es := by
  rw [List.lookup_eq_some_iff]
  constructor
  · rintro ⟨before, after, rfl, -⟩
    simp
  · intro mem
    obtain ⟨before, after, rfl⟩ := List.append_of_mem mem
    refine ⟨before, after, rfl, fun e he => ?_⟩
    rw [Distinct, List.map_append, List.map_cons] at distinct
    have apart := (List.nodup_append.1 distinct).2.2 e.1 (List.mem_map_of_mem he) name List.mem_cons_self
    exact bne_iff_ne.2 (Ne.symm apart)

theorem isSome_lookup_iff {name : String} : (es.lookup name).isSome ↔ name ∈ es.map Prod.fst := by
  constructor
  · intro found
    obtain ⟨a, ha⟩ := Option.isSome_iff_exists.1 found
    obtain ⟨before, after, rfl, -⟩ := List.lookup_eq_some_iff.1 ha
    simp
  · intro mem
    obtain ⟨e, he, rfl⟩ := List.mem_map.1 mem
    rw [Option.isSome_iff_ne_none]
    intro missing
    exact bne_iff_ne.1 (List.lookup_eq_none_iff.1 missing e he) rfl

/-- Two maps with the same under each name are the same but for the order of the entries. -/
theorem perm_iff_lookup_eq (distinct : es.Distinct) (distinct' : fs.Distinct) :
    es.Perm fs ↔ ∀ name, es.lookup name = fs.lookup name := by
  rw [List.perm_ext_iff_of_nodup distinct.of_map distinct'.of_map]
  constructor
  · intro same name
    ext a
    rw [lookup_eq_some_iff_mem distinct, lookup_eq_some_iff_mem distinct', same]
  · rintro same ⟨name, a⟩
    rw [← lookup_eq_some_iff_mem distinct, ← lookup_eq_some_iff_mem distinct', same]

/-! ## Filling a map -/

theorem insert_of_not_mem {name : String} (new : name ∉ es.map Prod.fst) (a : α) :
    es.insert name a = es ++ [(name, a)] := by
  induction es with
  | nil => rfl
  | cons e es ih =>
    obtain ⟨apart, new⟩ := not_or.1 (mt List.mem_cons.2 new)
    rw [insert, if_neg (Ne.symm apart), ih new]
    rfl

theorem map_fst_insert_of_mem {name : String} (known : name ∈ es.map Prod.fst) (a : α) :
    (es.insert name a).map Prod.fst = es.map Prod.fst := by
  induction es with
  | nil => cases known
  | cons e es ih =>
    rw [insert]
    by_cases same : e.1 = name
    · rw [if_pos same, List.map_cons, List.map_cons, same]
    · rw [if_neg same, List.map_cons, List.map_cons, ih ((List.mem_cons.1 known).resolve_left (Ne.symm same))]

theorem Distinct.insert (distinct : es.Distinct) (name : String) (a : α) : (es.insert name a).Distinct := by
  by_cases known : name ∈ es.map Prod.fst
  · rw [Distinct, map_fst_insert_of_mem known]
    exact distinct
  · rw [insert_of_not_mem known, Distinct, List.map_append]
    refine List.nodup_append.2 ⟨distinct, List.nodup_singleton _, fun b hb c hc same => known ?_⟩
    obtain rfl := List.mem_singleton.1 hc
    exact same ▸ hb

theorem eq_or_mem_of_mem_insert {name : String} {a : α} {e : String × α} (mem : e ∈ es.insert name a) :
    e = (name, a) ∨ e ∈ es := by
  induction es with
  | nil => exact .inl (List.mem_singleton.1 mem)
  | cons d es ih =>
    rw [insert] at mem
    split at mem
    · exact (List.mem_cons.1 mem).imp_right (List.mem_cons_of_mem d)
    · rcases List.mem_cons.1 mem with rfl | mem
      · exact .inr List.mem_cons_self
      · exact (ih mem).imp_right (List.mem_cons_of_mem d)

/-- Whatever is put into a map, and in whatever order, no two of its entries have one name, and all of them were put
into it. -/
theorem distinct_ofList (es : List (String × α)) : (ofList es).Distinct ∧ ofList es ⊆ es := by
  have filled : ∀ (es m : List (String × α)), Distinct m → Distinct (es.foldl (fun m e => insert e.1 e.2 m) m) ∧
      es.foldl (fun m e => insert e.1 e.2 m) m ⊆ m ++ es := by
    intro es
    induction es with
    | nil => exact fun m distinct => ⟨distinct, by simp⟩
    | cons e es ih =>
      intro m distinct
      obtain ⟨distinct', members⟩ := ih (insert e.1 e.2 m) (distinct.insert e.1 e.2)
      refine ⟨distinct', fun d hd => ?_⟩
      rcases List.mem_append.1 (members hd) with inMap | later
      · rcases eq_or_mem_of_mem_insert inMap with rfl | before
        · exact List.mem_append_right _ List.mem_cons_self
        · exact List.mem_append_left _ before
      · exact List.mem_append_right _ (List.mem_cons_of_mem _ later)
  exact filled es [] List.nodup_nil

/-- Entries of different names are a map as they are. -/
theorem Distinct.ofList_eq (distinct : es.Distinct) : ofList es = es := by
  have inserted : ∀ (before after : Entries α), (before ++ after).Distinct →
      after.foldl (fun m e => m.insert e.1 e.2) before = before ++ after := by
    intro before after distinct
    induction after generalizing before with
    | nil => rw [List.foldl_nil, List.append_nil]
    | cons e after ih =>
      have new : e.1 ∉ before.map Prod.fst := by
        rw [Distinct, List.map_append, List.map_cons] at distinct
        exact fun mem => (List.nodup_append.1 distinct).2.2 e.1 mem e.1 List.mem_cons_self rfl
      rw [List.append_cons] at distinct ⊢
      rw [List.foldl_cons, insert_of_not_mem new, ih _ distinct]
  exact inserted [] es distinct

theorem lookup_insert (es : Entries α) (name other : String) (a : α) :
    (es.insert name a).lookup other = if other = name then some a else es.lookup other := by
  induction es with
  | nil => grind [insert]
  | cons e es ih => grind [insert]

/-- Of the entries of one name that are put into a map, the last one is found. -/
theorem lookup_ofList (es : List (String × α)) (name : String) : (ofList es).lookup name = es.reverse.lookup name := by
  -- what is put in later is in front of what the map had
  have filled : ∀ m : Entries α, (es.foldl (fun m e => m.insert e.1 e.2) m).lookup name = (es.reverse ++ m).lookup name := by
    induction es with
    | nil => exact fun m => rfl
    | cons e es ih =>
      intro m
      rw [List.foldl_cons, ih, List.reverse_cons, List.append_assoc, List.lookup_append, List.lookup_append, lookup_insert,
        List.singleton_append, List.lookup_cons]
      grind
  rw [ofList, filled, List.append_nil]

/-- A part of a list without repeats of a key is without repeats of another key, if the old key can be
told from the new one. -/
theorem nodup_map_filterMap {β γ κ κ' : Type} {l : List β} {f : β → Option γ} {key : β → κ} {key' : γ → κ'}
    (nodup : (l.map key).Nodup)
    (apart : ∀ a ∈ l, ∀ b ∈ l, ∀ c ∈ f a, ∀ d ∈ f b, key' c = key' d → key a = key b) :
    ((l.filterMap f).map key').Nodup := by
  rw [List.Nodup, List.pairwise_map] at nodup ⊢
  rw [List.pairwise_filterMap]
  exact nodup.imp_of_mem fun ha hb ne c hc d hd same => ne (apart _ ha _ hb c hc d hd same)

/-! ## The order of the names -/

theorem byName_perm (es : Entries α) : es.byName.Perm es := List.mergeSort_perm _ _

theorem mem_byName {a : String × α} : a ∈ es.byName ↔ a ∈ es := es.byName_perm.mem_iff

theorem pairwise_byName (es : Entries α) : es.byName.Pairwise fun a b => a.1 ≤ b.1 := by
  have sorted : es.byName.Pairwise fun a b => decide (a.1 ≤ b.1) = true := by
    refine List.pairwise_mergeSort (fun a b c hab hbc => ?_) (fun a b => ?_) es
    · rw [decide_eq_true_iff] at hab hbc ⊢
      exact String.le_trans hab hbc
    · rw [Bool.or_eq_true, decide_eq_true_iff, decide_eq_true_iff]
      exact String.le_total _ _
  exact sorted.imp of_decide_eq_true

theorem pairwise_lt_byName (distinct : es.Distinct) : es.byName.Pairwise fun a b => a.1 < b.1 := by
  have names : es.byName.Pairwise fun a b => a.1 ≠ b.1 :=
    List.pairwise_map.1 (distinct.of_perm es.byName_perm.symm)
  refine (es.pairwise_byName.and names).imp fun ⟨le, apart⟩ => ?_
  exact String.not_le.1 fun back => apart (String.le_antisymm le back)

/-- The entries in the order of their names do not depend on the order they came in. -/
theorem byName_eq_of_perm (distinct : es.Distinct) (perm : es.Perm fs) : es.byName = fs.byName := by
  -- two sorted lists of the same entries, in which the order of the names is strict
  have perm' : es.byName.Perm fs.byName := es.byName_perm.trans (perm.trans fs.byName_perm.symm)
  refine perm'.eq_of_pairwise (fun a b ha hb hab hba => ?_) es.pairwise_byName fs.pairwise_byName
  exact distinct.eq_of_name_eq (mem_byName.1 ha) (perm.mem_iff.2 (mem_byName.1 hb)) (String.le_antisymm hab hba)

/-- A search in the order of the names finds the entry of the least name that has the property. -/
theorem find?_byName_eq_some_iff (distinct : es.Distinct) {p : String × α → Bool} {a : String × α} :
    es.byName.find? p = some a ↔ a ∈ es ∧ p a ∧ ∀ b ∈ es, p b → a.1 ≤ b.1 := by
  have least : ∀ {c : String × α}, es.byName.find? p = some c → ∀ b ∈ es, p b → c.1 ≤ b.1 := by
    intro c hc b hb hp
    obtain ⟨-, before, after, whole, skipped⟩ := List.find?_eq_some_iff_append.1 hc
    have sorted := es.pairwise_byName
    rw [whole, List.pairwise_append, List.pairwise_cons] at sorted
    -- what is in front of `c` has not the property, and what is behind it has no lesser name
    have mem : b ∈ before ++ c :: after := whole ▸ mem_byName.2 hb
    rcases List.mem_append.1 mem with hb | hb
    · have := skipped b hb
      rw [hp] at this; cases this
    · rcases List.mem_cons.1 hb with rfl | hb
      · exact String.le_refl _
      · exact sorted.2.1.1 b hb
  constructor
  · intro ha
    exact ⟨mem_byName.1 (List.mem_of_find?_eq_some ha), List.find?_some ha, least ha⟩
  · rintro ⟨ha, hp, lowest⟩
    cases hc : es.byName.find? p with
    | none =>
      have := List.find?_eq_none.1 hc a (mem_byName.2 ha)
      exact absurd hp this
    | some c =>
      have hmem := mem_byName.1 (List.mem_of_find?_eq_some hc)
      have same := String.le_antisymm (lowest c hmem (List.find?_some hc)) (least hc a ha hp)
      rw [distinct.eq_of_name_eq ha hmem same]

end TaggedUnion.Entries
