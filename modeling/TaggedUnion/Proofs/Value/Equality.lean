/-
Equality of values is a partial equivalence. A value with a mark equals those of its mark, a slice those that hold
equal values at the same positions, a map those that hold equal values under the same names; symmetry, transitivity
and what differs from itself follow from this in one way for slices and for maps. The order of the entries of a map
is not seen by equality, and a NaN, wherever slices and maps alone lead to it, is all that can make a value differ
from itself.
-/
import TaggedUnion.Proofs.Value.Contents
import TaggedUnion.Value.Equality
import Mathlib.Data.List.Perm.Subperm

namespace TaggedUnion

/-! ## Numbers -/

namespace Binary64

variable {x y z : Binary64}

theorem beq_iff : (x == y) = true ↔ x.isNaN = false ∧ y.isNaN = false ∧ (x = y ∨ x.isZero ∧ y.isZero) := by
  obtain ⟨x⟩ := x
  obtain ⟨y⟩ := y
  show Binary64.beq _ _ = true ↔ _
  simp only [Binary64.beq, Bool.and_eq_true, Bool.or_eq_true, Bool.not_eq_true', beq_iff_eq, mk.injEq, and_assoc]

theorem beq_self_iff : (x == x) = true ↔ x.isNaN = false := by
  simp only [beq_iff, true_or, and_true, and_self]

theorem beq_symm (h : (x == y) = true) : (y == x) = true := by
  obtain ⟨hx, hy, same⟩ := beq_iff.1 h
  exact beq_iff.2 ⟨hy, hx, same.imp Eq.symm And.symm⟩

theorem beq_trans (h : (x == y) = true) (h' : (y == z) = true) : (x == z) = true := by
  obtain ⟨hx, -, same⟩ := beq_iff.1 h
  obtain ⟨-, hz, same'⟩ := beq_iff.1 h'
  refine beq_iff.2 ⟨hx, hz, ?_⟩
  rcases same with rfl | ⟨zero, zero'⟩
  · exact same'
  · rcases same' with rfl | ⟨-, zero''⟩
    exacts [.inr ⟨zero, zero'⟩, .inr ⟨zero, zero''⟩]

end Binary64

/-! ## What is at a place -/

namespace Value

/-- Whether there is nothing at a place of two slices or of two maps, or there are equal values: what is at a place is
what a slice has at a position, or a map under a name. -/
def Agree (a b : Option Value) : Prop := Option.Rel (fun v w => (v == w) = true) a b

variable {a b c : Option Value}

theorem agree_some_iff {v : Value} : Agree (some v) b ↔ ∃ w, b = some w ∧ (v == w) = true := by
  constructor
  · rintro (h | _)
    exact ⟨_, rfl, h⟩
  · rintro ⟨w, rfl, h⟩
    exact .some h

theorem agree_none_iff : Agree none b ↔ b = none := by
  constructor
  · rintro ⟨⟩
    rfl
  · rintro rfl
    exact .none

theorem Agree.isSome_iff (agree : Agree a b) : a.isSome ↔ b.isSome := by
  cases agree with
  | none => exact Iff.rfl
  | some => exact iff_of_true rfl rfl

theorem Agree.symm (agree : Agree a b)
    (symm : ∀ v w, a = some v → b = some w → (v == w) = true → (w == v) = true) : Agree b a := by
  cases agree with
  | none => exact .none
  | some h => exact .some (symm _ _ rfl rfl h)

theorem Agree.trans (agree : Agree a b) (agree' : Agree b c)
    (trans : ∀ u v w, a = some u → b = some v → c = some w → (u == v) = true → (v == w) = true → (u == w) = true) :
    Agree a c := by
  cases agree with
  | none => exact agree'
  | some h =>
    cases agree' with
    | some h' => exact .some (trans _ _ _ rfl rfl rfl h h')

theorem agree_self_iff : Agree a a ↔ ∀ v, a = some v → (v == v) = true := by
  cases a with
  | none => simp only [agree_none_iff, reduceCtorEq, false_implies, implies_true]
  | some v => simp only [agree_some_iff, Option.some.injEq, exists_eq_left', forall_eq']

/-! ## Equality by what is held -/

variable {u v w : Value} {vs : List Value} {es : Entries Value}

theorem beq_iff_of_marked {m : Mark} (marked : v.mark? = some m) : (v == w) = true ↔ w.mark? = some m := by
  rw [← marked]
  show Value.beq v w = true ↔ _
  cases v <;> cases w <;>
    simp [Value.beq, mark?, Tag.same, Function.same, Tagged.same, Union.same] at marked ⊢ <;> exact eq_comm

theorem float_beq_iff {x : Binary64} : (.float x == w) = true ↔ ∃ y, w = .float y ∧ (x == y) = true := by
  show Value.beq _ w = true ↔ _
  cases w <;> simp [Value.beq]

theorem beqList_iff : ∀ {vs ws : List Value}, beqList vs ws = true ↔ ∀ i : Nat, Agree vs[i]? ws[i]?
  | [], [] => by simp [beqList, agree_none_iff]
  | [], w :: ws => by
    simp only [beqList, Bool.false_eq_true, false_iff, List.getElem?_nil, agree_none_iff]
    exact fun nothing => nomatch nothing 0
  | v :: vs, [] => by
    simp only [beqList, Bool.false_eq_true, false_iff]
    exact fun agree => nomatch agree 0
  | v :: vs, w :: ws => by
    rw [← Nat.and_forall_add_one]
    simp only [beqList, Bool.and_eq_true, beqList_iff, List.getElem?_cons_zero, List.getElem?_cons_succ, agree_some_iff,
      Option.some.injEq, exists_eq_left']
    rfl

/-- A slice equals the slices that hold equal values at the same positions. -/
theorem slice_beq_iff : (.slice vs == w) = true ↔ ∃ ws, w = .slice ws ∧ ∀ i : Nat, Agree vs[i]? ws[i]? := by
  show Value.beq _ w = true ↔ _
  cases w with
  | slice ws => simp only [Value.beq, beqList_iff, Value.slice.injEq, exists_eq_left']
  | _ => simp [Value.beq]

theorem beqEntries_iff {fs : Entries Value} :
    ∀ {es : Entries Value}, beqEntries es fs = true ↔ ∀ e ∈ es, Agree (some e.2) (fs.lookup e.1)
  | [] => by simp [beqEntries]
  | (name, v) :: es => by
    rw [beqEntries, Bool.and_eq_true, beqEntries_iff, List.forall_mem_cons, agree_some_iff]
    refine and_congr_left' ?_
    cases fs.lookup name with
    | none => simp
    | some w => simp only [Option.some.injEq, exists_eq_left']; rfl

/-- Where each entry of a map has one of its name in another map of the same size, the other map has no more names. -/
theorem lookup_eq_none_of_length_eq {α : Type} {es fs : Entries α} (distinct : es.Distinct)
    (size : es.length = fs.length) (found : ∀ e ∈ es, (fs.lookup e.1).isSome) {name : String}
    (missing : es.lookup name = none) : fs.lookup name = none := by
  have known : es.map Prod.fst ⊆ fs.map Prod.fst := by
    intro name mem
    obtain ⟨e, he, rfl⟩ := List.mem_map.1 mem
    exact Entries.isSome_lookup_iff.1 (found e he)
  have perm : (es.map Prod.fst).Perm (fs.map Prod.fst) :=
    (List.subperm_of_subset distinct known).perm_of_length_le (by simp [size])
  rw [← Option.not_isSome_iff_eq_none, Entries.isSome_lookup_iff] at missing ⊢
  exact mt perm.mem_iff.2 missing

/-- A map equals the maps that hold equal values under the same names. -/
theorem map_beq_iff (proper : (Value.map es).Proper) (proper' : w.Proper) :
    (.map es == w) = true ↔ ∃ fs, w = .map fs ∧ ∀ name, Agree (es.lookup name) (List.lookup name fs) := by
  have distinct := proper.distinct
  show Value.beq _ w = true ↔ _
  cases w with
  | map fs =>
    simp only [Value.beq, Bool.and_eq_true, beq_iff_eq, beqEntries_iff, Value.map.injEq, exists_eq_left']
    constructor
    · rintro ⟨size, inside⟩ name
      cases held : es.lookup name with
      | some v => exact inside (name, v) ((Entries.lookup_eq_some_iff_mem distinct).1 held)
      | none =>
        refine agree_none_iff.2 (lookup_eq_none_of_length_eq distinct size (fun e he => ?_) held)
        obtain ⟨w, hw, -⟩ := agree_some_iff.1 (inside e he)
        exact Option.isSome_of_eq_some hw
    · intro agree
      constructor
      · have names : (es.map Prod.fst).Perm (fs.map Prod.fst) := by
          refine (List.perm_ext_iff_of_nodup distinct proper'.distinct).2 fun name => ?_
          rw [← Entries.isSome_lookup_iff, ← Entries.isSome_lookup_iff, (agree name).isSome_iff]
        simpa using names.length_eq
      · intro e he
        rw [← (Entries.lookup_eq_some_iff_mem distinct).2 he]
        exact agree e.1
  | _ => simp [Value.beq]

/-! ## Symmetry and transitivity -/

theorem beq_symm (proper : v.Proper) (proper' : w.Proper) (equal : (v == w) = true) : (w == v) = true := by
  induction v using contents_induction generalizing w with
  | slice vs ih =>
    obtain ⟨ws, rfl, agree⟩ := slice_beq_iff.1 equal
    refine slice_beq_iff.2 ⟨vs, rfl, fun i => (agree i).symm fun v w hv hw => ?_⟩
    exact ih v (List.mem_of_getElem? hv) (proper.of_getElem? hv) (proper'.of_getElem? hw)
  | map es ih =>
    obtain ⟨fs, rfl, agree⟩ := (map_beq_iff proper proper').1 equal
    refine (map_beq_iff proper' proper).2 ⟨es, rfl, fun name => (agree name).symm fun v w hv hw => ?_⟩
    have mem := (Entries.lookup_eq_some_iff_mem proper.distinct).1 hv
    exact ih _ mem (proper.of_lookup hv) (proper'.of_lookup hw)
  | float x =>
    obtain ⟨y, rfl, same⟩ := float_beq_iff.1 equal
    exact float_beq_iff.2 ⟨x, rfl, Binary64.beq_symm same⟩
  | marked v m hv => exact (beq_iff_of_marked ((beq_iff_of_marked hv).1 equal)).2 hv

theorem beq_comm (proper : v.Proper) (proper' : w.Proper) : (v == w) = (w == v) :=
  Bool.eq_iff_iff.2 ⟨beq_symm proper proper', beq_symm proper' proper⟩

theorem beq_trans (proper : u.Proper) (proper' : v.Proper) (proper'' : w.Proper) (equal : (u == v) = true)
    (equal' : (v == w) = true) : (u == w) = true := by
  induction u using contents_induction generalizing v w with
  | slice us ih =>
    obtain ⟨vs, rfl, agree⟩ := slice_beq_iff.1 equal
    obtain ⟨ws, rfl, agree'⟩ := slice_beq_iff.1 equal'
    refine slice_beq_iff.2 ⟨ws, rfl, fun i => (agree i).trans (agree' i) fun u v w hu hv hw => ?_⟩
    have mem := List.mem_of_getElem? hu
    exact ih u mem (proper.of_getElem? hu) (proper'.of_getElem? hv) (proper''.of_getElem? hw)
  | map es ih =>
    obtain ⟨fs, rfl, agree⟩ := (map_beq_iff proper proper').1 equal
    obtain ⟨gs, rfl, agree'⟩ := (map_beq_iff proper' proper'').1 equal'
    refine (map_beq_iff proper proper'').2 ⟨gs, rfl, fun name => (agree name).trans (agree' name) ?_⟩
    intro u v w hu hv hw
    have mem := (Entries.lookup_eq_some_iff_mem proper.distinct).1 hu
    exact ih _ mem (proper.of_lookup hu) (proper'.of_lookup hv) (proper''.of_lookup hw)
  | float x =>
    obtain ⟨y, rfl, same⟩ := float_beq_iff.1 equal
    obtain ⟨z, rfl, same'⟩ := float_beq_iff.1 equal'
    exact float_beq_iff.2 ⟨z, rfl, Binary64.beq_trans same same'⟩
  | marked u m hu => exact (beq_iff_of_marked hu).2 ((beq_iff_of_marked ((beq_iff_of_marked hu).1 equal)).1 equal')

/-! ## What differs from itself -/

/-- A value equals itself unless a NaN is reached from it. -/
theorem beq_self_iff (proper : v.Proper) :
    (v == v) = true ↔ ∀ x, v.Reaches (.float x) → x.isNaN = false := by
  induction v using contents_induction with
  | slice vs ih =>
    rw [proper_slice_iff] at proper
    calc (Value.slice vs == .slice vs) = true
      _ ↔ ∀ v ∈ vs, (v == v) = true := by
        simp only [slice_beq_iff, Value.slice.injEq, exists_eq_left', agree_self_iff, List.mem_iff_getElem?]
        exact ⟨fun h v ⟨i, hv⟩ => h i v hv, fun h i v hv => h v ⟨i, hv⟩⟩
      _ ↔ ∀ v ∈ vs, ∀ x, v.Reaches (.float x) → x.isNaN = false :=
        forall₂_congr fun v mem => ih v mem (proper v mem)
      _ ↔ _ := by
        simp only [reaches_slice_iff, reduceCtorEq, false_or]
        exact ⟨fun h x ⟨v, mem, rest⟩ => h v mem x rest, fun h v mem x rest => h x ⟨v, mem, rest⟩⟩
  | map es ih =>
    obtain ⟨distinct, inside⟩ := proper_map_iff.1 proper
    calc (Value.map es == .map es) = true
      _ ↔ ∀ e ∈ es, (e.2 == e.2) = true := by
        simp only [map_beq_iff proper proper, Value.map.injEq, exists_eq_left', agree_self_iff,
          Entries.lookup_eq_some_iff_mem distinct, Prod.forall]
      _ ↔ ∀ e ∈ es, ∀ x, e.2.Reaches (.float x) → x.isNaN = false :=
        forall₂_congr fun e mem => ih e mem (inside e mem)
      _ ↔ _ := by
        simp only [reaches_map_iff, reduceCtorEq, false_or]
        exact ⟨fun h x ⟨e, mem, rest⟩ => h e mem x rest, fun h e mem x rest => h x ⟨e, mem, rest⟩⟩
  | float x =>
    simp only [float_beq_iff, reaches_float_iff, Value.float.injEq, exists_eq_left', forall_eq, Binary64.beq_self_iff]
  | marked v m hv =>
    refine iff_of_true ((beq_iff_of_marked hv).2 hv) fun x reached => ?_
    rw [reaches_iff_of_marked hv] at reached
    subst reached
    cases hv

/-! ## The order of entries -/

/-- A value at a place may be replaced by one that equals the same values. -/
theorem agree_congr_left {v' : Value} (replaced : a = b ∨ a = some v ∧ b = some v')
    (alike : ∀ w, c = some w → (v == w) = (v' == w)) : Agree a c ↔ Agree b c := by
  rcases replaced with rfl | ⟨rfl, rfl⟩
  · exact Iff.rfl
  · simp only [agree_some_iff]
    exact exists_congr fun w => and_congr_right fun hw => by rw [alike w hw]

theorem Rearranged.beq_eq {v' : Value} (rearranged : Rearranged v v') (proper : v.Proper) (proper' : w.Proper) :
    (v == w) = (v' == w) := by
  induction rearranged generalizing w with
  | refl => rfl
  | trans first _ ih ih' => exact (ih proper proper').trans (ih' (first.proper proper) proper')
  | entries perm =>
    rw [Bool.eq_iff_iff, map_beq_iff proper proper', map_beq_iff ((Rearranged.entries perm).proper proper) proper']
    simp only [(Entries.perm_iff_lookup_eq proper.distinct (proper.distinct.of_perm perm)).1 perm]
  | @inSlice before after v v' _ ih =>
    have inside := proper_slice_iff.1 proper v List.mem_append_cons_self
    rw [Bool.eq_iff_iff, slice_beq_iff, slice_beq_iff]
    refine exists_congr fun ws => and_congr_right fun hw => forall_congr' fun i => ?_
    subst hw
    refine agree_congr_left ?_ fun w hw => ih inside (proper'.of_getElem? hw)
    -- one position holds the replaced element, and every other one what it held
    grind
  | @inMap before after name v v' alike ih =>
    have inside := (proper_map_iff.1 proper).2 (name, v) List.mem_append_cons_self
    have replaced := (alike.inMap before after name).proper proper
    rw [Bool.eq_iff_iff, map_beq_iff proper proper', map_beq_iff replaced proper']
    refine exists_congr fun fs => and_congr_right fun hw => forall_congr' fun other => ?_
    subst hw
    refine agree_congr_left ?_ fun w hw => ih inside (proper'.of_lookup hw)
    rw [List.lookup_append, List.lookup_append, List.lookup_cons, List.lookup_cons]
    cases List.lookup other before with
    | some w => exact .inl rfl
    | none =>
      cases other == name with
      | true => exact .inr ⟨rfl, rfl⟩
      | false => exact .inl rfl
  | inPayload ident t before after =>
    rw [Bool.eq_iff_iff, beq_iff_of_marked rfl, beq_iff_of_marked rfl]

/-- Equality is symmetric and transitive. It does not see the order of the entries of maps at any depth, on either
side, and so not the order in which entries were put in, as long as the last one of each name is the same; whatever is
put into a map, no two of its entries have one name. A value equals itself if and only if no NaN is reached from it through slices and maps alone.
What is neither a number nor a slice or map equals exactly what has its mark, so for objects their identity decides,
whatever is in them. -/
theorem beq_partial_equivalence :
    (∀ v w : Value, v.Proper → w.Proper → (v == w) = (w == v)) ∧
    (∀ u v w : Value, u.Proper → v.Proper → w.Proper → (u == v) = true → (v == w) = true → (u == w) = true) ∧
    (∀ v v' w : Value, v.Proper → w.Proper → Rearranged v v' → (v == w) = (v' == w) ∧ (w == v) = (w == v')) ∧
    (∀ es fs : List (String × Value), (∀ name, es.reverse.lookup name = fs.reverse.lookup name) →
      Rearranged (ofEntries es) (ofEntries fs)) ∧
    (∀ es fs : List (String × Value), (es.map Prod.fst).Nodup → es.Perm fs →
      Rearranged (ofEntries es) (ofEntries fs)) ∧
    (∀ es : List (String × Value), (∀ e ∈ es, e.2.Proper) → (ofEntries es).Proper) ∧
    (∀ v : Value, v.Proper → ((v == v) = true ↔ ∀ x, v.Reaches (.float x) → x.isNaN = false)) ∧
    (∀ (v w : Value) (m : Mark), v.mark? = some m → ((v == w) = true ↔ w.mark? = some m)) := by
  refine ⟨fun _ _ => beq_comm, fun _ _ _ => beq_trans, fun v v' w proper proper' alike => ⟨?_, ?_⟩,
    fun _ _ => rearranged_ofEntries, fun _ _ => rearranged_ofEntries_of_perm, fun _ => proper_ofEntries,
    fun _ => beq_self_iff, fun _ _ _ => beq_iff_of_marked⟩
  · exact alike.beq_eq proper proper'
  · rw [beq_comm proper' proper, beq_comm proper' (alike.proper proper), alike.beq_eq proper proper']

/-- Two maps that were filled in opposite orders are equal, also if what they hold has a NaN in its payload. -/
theorem beq_partial_equivalence_filled :
    let x : Value := .tagged ⟨0, .nth 1 none, [.float .nan]⟩
    let v := ofEntries [("held", x), ("size", .int 1)]
    let w := ofEntries [("size", .int 1), ("held", x)]
    v.Proper ∧ Rearranged v w ∧ (v == w) = true := by
  intro x v w
  obtain ⟨-, -, alike, -, filledInAnyOrder, filled, self, -⟩ := beq_partial_equivalence
  have whole : x.Proper ∧ (Value.int 1).Proper :=
    ⟨proper_of_not_holding rfl rfl, proper_of_not_holding rfl rfl⟩
  have proper : v.Proper := filled _ (by simpa using whole)
  have rearranged : Rearranged v w := filledInAnyOrder _ _ (by simp) (.swap _ _ [])
  refine ⟨proper, rearranged, ?_⟩
  rw [← (alike v w v proper proper rearranged).2]
  refine (self v proper).2 fun y reached => ?_
  obtain same | ⟨e, mem, inside⟩ := reaches_map_iff.1 reached
  · cases same
  · obtain rfl | rfl : e = ("held", x) ∨ e = ("size", .int 1) := by
      simpa using (Entries.distinct_ofList _).2 mem
    · cases (reaches_iff_of_marked rfl).1 inside
    · cases (reaches_iff_of_marked rfl).1 inside

example : (slice [.float .nan] == slice [.float .nan]) = false := rfl

end Value

end TaggedUnion
