/-
The earliest of the elements of a list that have some property: the index at which a search stops is
the least one with the property, the first repeat of a list stands at the least index whose element
occurs in front of it, and the newcomers of a list are the elements that do not.
-/
import TaggedUnion.Repeat
import Mathlib.Order.Bounds.Basic

namespace TaggedUnion

variable {α : Type}

/-! ## Least indices -/

theorem isLeast_succ_iff {p : Nat → Prop} {i : Nat} (h : ¬ p 0) :
    IsLeast {i | p i} (i + 1) ↔ IsLeast {i | p (i + 1)} i := by
  constructor
  · rintro ⟨hi, least⟩
    exact ⟨hi, fun j hj => Nat.le_of_succ_le_succ (least hj)⟩
  · rintro ⟨hi, least⟩
    refine ⟨hi, fun j hj => ?_⟩
    cases j with
    | zero => exact absurd hj h
    | succ j => exact Nat.succ_le_succ (least hj)

theorem isLeast_zero_iff {p : Nat → Prop} : IsLeast {i | p i} 0 ↔ p 0 :=
  ⟨fun h => h.1, fun h => ⟨h, fun _ _ => Nat.zero_le _⟩⟩

theorem exists_isLeast_iff_zero {p q : Nat → Prop} (h : p 0) : (∃ i, IsLeast {i | p i} i ∧ q i) ↔ q 0 := by
  constructor
  · rintro ⟨i, first, hi⟩
    obtain rfl : i = 0 := Nat.le_zero.1 (first.2 h)
    exact hi
  · exact fun h0 => ⟨0, isLeast_zero_iff.2 h, h0⟩

theorem exists_isLeast_iff_succ {p q : Nat → Prop} (h : ¬ p 0) :
    (∃ i, IsLeast {i | p i} i ∧ q i) ↔ ∃ i, IsLeast {i | p (i + 1)} i ∧ q (i + 1) := by
  constructor
  · rintro ⟨i, first, hi⟩
    cases i with
    | zero => exact absurd first.1 h
    | succ i => exact ⟨i, (isLeast_succ_iff h).1 first, hi⟩
  · rintro ⟨i, first, hi⟩
    exact ⟨i + 1, (isLeast_succ_iff h).2 first, hi⟩

/-- Whether the element at an index has a property. -/
def HoldsAt (p : α → Prop) (xs : List α) (i : Nat) : Prop :=
  ∃ x ∈ xs[i]?, p x

/-- A search finds the element at the least index whose element has the property. -/
theorem find?_eq_some_iff_isLeast {p : α → Bool} {xs : List α} {x : α} :
    xs.find? p = some x ↔ ∃ i, IsLeast {i | HoldsAt (fun x => p x) xs i} i ∧ xs[i]? = some x := by
  induction xs with
  | nil => simp
  | cons y ys ih =>
    cases h : p y with
    | true =>
      rw [List.find?_cons_of_pos h, exists_isLeast_iff_zero ⟨y, rfl, h⟩]
      rfl
    | false =>
      have skip : ¬ HoldsAt (fun x => p x) (y :: ys) 0 := by simp [HoldsAt, h]
      rw [List.find?_cons_of_neg (by rw [h]; exact Bool.false_ne_true), ih, exists_isLeast_iff_succ skip]
      rfl

/-! ## Repeats -/

section Keys

variable {β : Type} {key : α → Option β} {seen : List β} {xs : List α} {x : α} {i : Nat}

/-- Whether the element at an index has a key that is in `seen` or that an earlier element has as well. -/
def KeyRepeatsIn (key : α → Option β) (seen : List β) (xs : List α) (i : Nat) : Prop :=
  ∃ x ∈ xs[i]?, ∃ k ∈ key x, k ∈ seen ∨ ∃ y ∈ xs.take i, key y = some k

/-- Whether the element at an index has a key that an earlier element has as well. An element without a key repeats
nothing. -/
def KeyRepeatsAt (key : α → Option β) (xs : List α) (i : Nat) : Prop :=
  ∃ x ∈ xs[i]?, ∃ k ∈ key x, ∃ y ∈ xs.take i, key y = some k

theorem keyRepeatsIn_nil_left : KeyRepeatsIn key [] xs i ↔ KeyRepeatsAt key xs i := by
  simp [KeyRepeatsIn, KeyRepeatsAt]

theorem not_keyRepeatsIn_zero (h : key x = none) : ¬ KeyRepeatsIn key seen (x :: xs) 0 := by
  simp [KeyRepeatsIn, h]

theorem keyRepeatsIn_zero {k : β} (h : key x = some k) : KeyRepeatsIn key seen (x :: xs) 0 ↔ k ∈ seen := by
  simp [KeyRepeatsIn, h]

theorem keyRepeatsIn_succ_of_none (h : key x = none) :
    KeyRepeatsIn key seen (x :: xs) (i + 1) ↔ KeyRepeatsIn key seen xs i := by
  simp [KeyRepeatsIn, h]

theorem keyRepeatsIn_succ {k : β} (h : key x = some k) :
    KeyRepeatsIn key seen (x :: xs) (i + 1) ↔ KeyRepeatsIn key (k :: seen) xs i := by
  simp [KeyRepeatsIn, h, or_left_comm, or_assoc, eq_comm]

/-- Of the keys of a list the first repeat is the one at the least index that repeats the key of an earlier element. -/
theorem firstRepeatIn?_filterMap_eq_some_iff [DecidableEq β] [Hashable β] {k : β} :
    firstRepeatIn? seen (xs.filterMap key) = some k ↔
      ∃ i, IsLeast {i | KeyRepeatsIn key seen xs i} i ∧ xs[i]?.bind key = some k := by
  -- `seen` takes up each key that is passed, so that an index one further on means the same there
  induction xs generalizing seen with
  | nil => simp [firstRepeatIn?]
  | cons y ys ih =>
    cases h : key y with
    | none =>
      rw [List.filterMap_cons_none h, ih, exists_isLeast_iff_succ (not_keyRepeatsIn_zero h)]
      simp only [keyRepeatsIn_succ_of_none h, List.getElem?_cons_succ]
    | some k' =>
      rw [List.filterMap_cons_some h, firstRepeatIn?]
      by_cases known : k' ∈ seen
      · rw [if_pos (isKnown_iff.2 known), exists_isLeast_iff_zero ((keyRepeatsIn_zero h).2 known)]
        simp [h]
      · rw [if_neg (mt isKnown_iff.1 known), ih, exists_isLeast_iff_succ (mt (keyRepeatsIn_zero h).1 known)]
        simp only [keyRepeatsIn_succ h, List.getElem?_cons_succ]

theorem firstRepeat?_filterMap_eq_some_iff [DecidableEq β] [Hashable β] {k : β} :
    firstRepeat? (xs.filterMap key) = some k ↔
      ∃ i, IsLeast {i | KeyRepeatsAt key xs i} i ∧ xs[i]?.bind key = some k := by
  simp only [firstRepeat?, firstRepeatIn?_filterMap_eq_some_iff, keyRepeatsIn_nil_left]

end Keys

/-- Whether the element at an index occurs earlier in the list. -/
def RepeatsAt (xs : List α) (i : Nat) : Prop :=
  ∃ x ∈ xs[i]?, x ∈ xs.take i

theorem keyRepeatsAt_some {xs : List α} {i : Nat} : KeyRepeatsAt some xs i ↔ RepeatsAt xs i := by
  simp [KeyRepeatsAt, RepeatsAt]

variable [DecidableEq α] [Hashable α]

/-- The first repeat is the element at the least index whose element occurs earlier. -/
theorem firstRepeat?_eq_some_iff {xs : List α} {x : α} :
    firstRepeat? xs = some x ↔ ∃ i, IsLeast {i | RepeatsAt xs i} i ∧ xs[i]? = some x := by
  -- every element is its own key
  have keyed : firstRepeat? (xs.filterMap some) = some x ↔
      ∃ i, IsLeast {i | KeyRepeatsAt some xs i} i ∧ xs[i]?.bind some = some x :=
    firstRepeat?_filterMap_eq_some_iff
  simpa only [List.filterMap_some, keyRepeatsAt_some, Option.bind_fun_some] using keyed

/-! ## Newcomers -/

theorem getElem?_newcomersIn {seen xs : List α} {i : Nat} :
    (newcomersIn seen xs)[i]? = xs[i]?.map fun x => decide (x ∉ seen ∧ x ∉ xs.take i) := by
  induction xs generalizing seen i with
  | nil => rfl
  | cons y ys ih =>
    cases i with
    | zero => simp [newcomersIn]
    | succ i =>
      rw [newcomersIn, List.getElem?_cons_succ, ih, List.getElem?_cons_succ, List.take_succ_cons]
      simp only [List.mem_cons, not_or, and_left_comm, and_assoc]

/-- An element is new exactly if it does not occur earlier in the list. -/
theorem getElem?_newcomers {xs : List α} {i : Nat} :
    (newcomers xs)[i]? = xs[i]?.map fun x => decide (x ∉ xs.take i) := by
  simp only [newcomers, getElem?_newcomersIn, List.not_mem_nil, not_false_eq_true, true_and]

/-- A set tells the same of elements and of keys of theirs that differ where the elements do. -/
theorem newcomers_map {β : Type} [DecidableEq β] [Hashable β] {f : α → β} {xs : List α}
    (inj : ∀ x ∈ xs, ∀ y ∈ xs, f x = f y → x = y) : newcomers (xs.map f) = newcomers xs := by
  refine List.ext_getElem? fun i => ?_
  rw [getElem?_newcomers, getElem?_newcomers, List.getElem?_map, Option.map_map]
  refine Option.map_congr fun x hx => decide_eq_decide.2 (not_congr ?_)
  rw [← List.map_take]
  constructor
  · intro known
    obtain ⟨y, hy, same⟩ := List.mem_map.1 known
    exact inj y (List.mem_of_mem_take hy) x (List.mem_of_getElem? hx) same ▸ hy
  · exact List.mem_map_of_mem

end TaggedUnion
