/-
Dispatch through a switch that passes the check of a union. It calls one handler once, after a record
of it, and its outcome is the handler's: the handler of the only case for the value's tag, with the
payload, or the catch-all, with no arguments. A value is refused without a call exactly if there is no
catch-all and no member constructed the value.
-/
import TaggedUnion.Proofs.History
import TaggedUnion.Proofs.Union.Coverage

namespace TaggedUnion

/-! ## What a switch picks -/

namespace Switch

variable {s : Switch} {v : Value}

/-- Whether the tag that constructed a value has a case. -/
def Lists (s : Switch) (v : Value) : Prop := ∃ x, v.tagged? = some x ∧ x.tag ∈ s.tags

theorem getElem?_tags {i : Nat} {c : Tag × Callable} (h : s.cases[i]? = some c) :
    s.tags[i]? = some c.1 := by
  rw [tags, List.getElem?_map, h]; rfl

theorem eq_of_getElem?_cases (nodup : s.tags.Nodup) {i j : Nat} {c d : Tag × Callable}
    (hi : s.cases[i]? = some c) (hj : s.cases[j]? = some d) (same : c.1 = d.1) : i = j := by
  have hi' := getElem?_tags hi
  have hj' := getElem?_tags hj
  rw [← same, ← hi'] at hj'
  exact (List.getElem?_inj (List.getElem?_eq_some_iff.1 hi').1 nodup).1 hj'.symm

theorem owns_iff {t : Tag} {x : Tagged Value} : t.owns x = true ↔ t = x.tag := by
  rw [Tag.owns, beq_iff_eq, eq_comm]

theorem caseOf?_of_getElem?_cases (nodup : s.tags.Nodup) {x : Tagged Value} (hx : v.tagged? = some x)
    {i : Nat} {handler : Callable} (hi : s.cases[i]? = some (x.tag, handler)) :
    s.caseOf? v = some (.case x.tag handler x.payload) := by
  have found : (s.cases.find? fun c => c.1.owns x) = some (x.tag, handler) := by
    cases h : s.cases.find? fun c => c.1.owns x with
    | none =>
      have missed := List.find?_eq_none.1 h _ (List.mem_of_getElem? hi)
      exact absurd (owns_iff.2 rfl) missed
    | some c =>
      obtain ⟨j, hj⟩ := List.getElem?_of_mem (List.mem_of_find?_eq_some h)
      have owns := List.find?_some h
      -- the first match is the case at `i`, as there is no other
      obtain rfl := eq_of_getElem?_cases nodup hj hi (owns_iff.1 owns)
      exact hj.symm.trans hi
  simp only [caseOf?, hx, found, Option.map_some]

theorem caseOf?_of_not_lists (h : ¬ s.Lists v) : s.caseOf? v = none := by
  unfold caseOf?
  split
  · next x hx =>
    rw [Option.map_eq_none_iff, List.find?_eq_none]
    intro c hc owns
    exact h ⟨x, hx, owns_iff.1 owns ▸ List.mem_map_of_mem hc⟩
  · rfl

/-- What is picked for a value is a case of the tag that constructed it, or the catch-all. -/
theorem choose?_cases {c : Choice} (picked : s.choose? v = some c) :
    (∃ x handler, v.tagged? = some x ∧ (x.tag, handler) ∈ s.cases ∧ c = .case x.tag handler x.payload) ∨
    ∃ handler, s.otherwise = some handler ∧ c = .otherwise handler := by
  unfold choose? at picked
  split at picked
  · next c' hc =>
    cases picked
    unfold caseOf? at hc
    split at hc
    · next x hx =>
      obtain ⟨p, hp, rfl⟩ := Option.map_eq_some_iff.1 hc
      obtain ⟨t, handler⟩ := p
      have own := List.find?_some hp
      obtain rfl : t = x.tag := owns_iff.1 own
      exact .inl ⟨x, handler, hx, List.mem_of_find?_eq_some hp, rfl⟩
    · cases hc
  · obtain ⟨handler, catchAll, rfl⟩ := Option.map_eq_some_iff.1 picked
    exact .inr ⟨handler, catchAll, rfl⟩

variable {host : Host}

/-- A value whose tag has a case goes to it, with its payload. -/
theorem dispatch_of_getElem?_cases (nodup : s.tags.Nodup) {x : Tagged Value} (hx : v.tagged? = some x)
    {i : Nat} {handler : Callable} (hi : s.cases[i]? = some (x.tag, handler)) :
    s.dispatch host v = (do
      Run.record (.toCase v x.tag)
      handler.call host x.payload) := by
  simp only [dispatch, choose?, caseOf?_of_getElem?_cases nodup hx hi]
  rfl

/-- A value whose tag has no case goes to the catch-all, without its payload. -/
theorem dispatch_of_not_lists (h : ¬ s.Lists v) {handler : Callable} (catchAll : s.otherwise = some handler) :
    s.dispatch host v = (do
      Run.record (.toOtherwise v)
      handler.call host []) := by
  simp only [dispatch, choose?, caseOf?_of_not_lists h, catchAll]
  rfl

theorem dispatch_eq_throw (h : ¬ s.Lists v) (alone : s.otherwise = none) :
    s.dispatch host v = throw (.notMember v) := by
  simp only [dispatch, choose?, caseOf?_of_not_lists h, alone]
  rfl

/-- A dispatch calls one handler, after a record of it, or it refuses the value for want of one. -/
theorem dispatch_cases (nodup : s.tags.Nodup) (host : Host) (v : Value) :
    (∃ r handler args, s.dispatch host v = (do
      Run.record r
      Callable.call host handler args)) ∨
    (¬ s.Lists v ∧ s.otherwise = none) := by
  by_cases listed : s.Lists v
  · obtain ⟨x, hx, ht⟩ := listed
    obtain ⟨c, hc, same⟩ := List.mem_map.1 ht
    obtain ⟨i, hi⟩ := List.getElem?_of_mem hc
    have hi' : s.cases[i]? = some (x.tag, c.2) := by rw [hi, ← same]
    exact .inl ⟨_, _, _, dispatch_of_getElem?_cases nodup hx hi'⟩
  · cases h : s.otherwise with
    | none => exact .inr ⟨listed, rfl⟩
    | some handler => exact .inl ⟨_, _, _, dispatch_of_not_lists listed h⟩

end Switch

/-! ## Dispatch through a union -/

namespace Union

variable {host : Host} {u : Union} {s : Switch}

theorem run_of_check_eq_error {e : Error} (h : u.check s = .error e) (v : Value) :
    u.run host v s = throw e := by
  rw [run, h]; rfl

theorem run_of_check_eq_ok (h : u.check s = .ok ()) (v : Value) : u.run host v s = s.dispatch host v := by
  rw [run, h]; rfl

theorem has_iff {v : Value} : u.has v = true ↔ ∃ x, v.tagged? = some x ∧ x.tag ∈ u.tags := by
  unfold has
  cases h : v.tagged? with
  | none => simp
  | some x => simp [contains_iff]

/-- Where a switch without a catch-all passes, the values without a case are those that the union has
not. -/
theorem lists_iff_has (h : u.check s = .ok ()) (alone : s.otherwise = none) {v : Value} :
    s.Lists v ↔ u.has v = true := by
  obtain ⟨-, members, closed⟩ := check_eq_ok_iff.1 h
  rw [has_iff]
  constructor
  · rintro ⟨x, hx, ht⟩
    exact ⟨x, hx, members ht⟩
  · rintro ⟨x, hx, ht⟩
    exact ⟨x, hx, closed.1 alone ht⟩

/-- A value is refused exactly if there is no catch-all and the union has not got it. -/
theorem refused_iff (h : u.check s = .ok ()) {v : Value} :
    (¬ s.Lists v ∧ s.otherwise = none) ↔ (s.otherwise = none ∧ u.has v = false) := by
  constructor
  · rintro ⟨unlisted, alone⟩
    rw [lists_iff_has h alone, Bool.not_eq_true] at unlisted
    exact ⟨alone, unlisted⟩
  · rintro ⟨alone, absent⟩
    refine ⟨fun listed => ?_, alone⟩
    rw [lists_iff_has h alone, absent] at listed
    cases listed

/-- Where the host keeps to the history, a dispatch that leaves it as it was has called nothing. -/
theorem run_eq_notMember_iff (h : u.check s = .ok ()) (hhost : host.Grows) (v : Value) (past : History) :
    u.run host v s past = .error (.notMember v) past ↔ s.otherwise = none ∧ u.has v = false := by
  rw [← refused_iff h, run_of_check_eq_ok h]
  constructor
  · intro refused
    rcases Switch.dispatch_cases (check_eq_ok_iff.1 h).1 host v with ⟨r, handler, args, called⟩ | outcome
    -- a record is made in front of a call, and no call takes it away
    · have longer := Run.size_events_lt_after_note (Callable.grows_call hhost handler args) (.recorded r) past
      rw [called] at refused
      have same : (Run.note (.recorded r) >>= fun _ => handler.call host args).after past = past :=
        Run.after_of_error refused
      rw [same] at longer
      exact absurd longer (Nat.lt_irrefl _)
    · exact outcome
  · rintro ⟨unlisted, alone⟩
    rw [Switch.dispatch_eq_throw unlisted alone, Run.throw_apply]

/-- Dispatch through a switch that passes the check. If the value's tag has a case, it is the only one,
and its handler is called once with the payload; if not, the catch-all is called once with no
arguments; without one the value is refused and nothing is called. The last happens exactly if there is
no catch-all and the union has not got the value. -/
theorem run_of_covered (h : u.check s = .ok ()) (host : Host) (v : Value) :
    (∀ x, v.tagged? = some x → x.tag ∈ s.tags →
      ∃ (i : Nat) (handler : Callable), s.cases[i]? = some (x.tag, handler) ∧
        (∀ (j : Nat) (c : Tag × Callable), s.cases[j]? = some c → c.1 = x.tag → j = i) ∧
        u.run host v s = (do
          Run.record (.toCase v x.tag)
          handler.call host x.payload)) ∧
    (¬ s.Lists v → ∀ handler, s.otherwise = some handler →
      u.run host v s = (do
        Run.record (.toOtherwise v)
        handler.call host [])) ∧
    (¬ s.Lists v → s.otherwise = none →
      u.run host v s = throw (.notMember v) ∧
        ∀ [Text.Glyphs],
          (Error.notMember v).message = "invalid operation: " ++ (v.display ++ " is not a member of this union")) ∧
    ((¬ s.Lists v ∧ s.otherwise = none) ↔ (s.otherwise = none ∧ u.has v = false)) ∧
    (host.Grows → ∀ past : History,
      u.run host v s past = .error (.notMember v) past ↔ s.otherwise = none ∧ u.has v = false) := by
  have nodup := (check_eq_ok_iff.1 h).1
  rw [run_of_check_eq_ok h]
  refine ⟨fun x hx ht => ?_, fun unlisted handler catchAll => ?_, fun unlisted alone => ?_, refused_iff h,
    fun hhost past => ?_⟩
  · obtain ⟨c, hc, same⟩ := List.mem_map.1 ht
    obtain ⟨i, hi⟩ := List.getElem?_of_mem hc
    have hi' : s.cases[i]? = some (x.tag, c.2) := by rw [hi, ← same]
    refine ⟨i, c.2, hi', fun j d hj hd => ?_, Switch.dispatch_of_getElem?_cases nodup hx hi'⟩
    exact Switch.eq_of_getElem?_cases nodup hj hi' hd
  · exact Switch.dispatch_of_not_lists unlisted catchAll
  · exact ⟨Switch.dispatch_eq_throw unlisted alone, rfl⟩
  · rw [← run_of_check_eq_ok h]
    exact run_eq_notMember_iff h hhost v past

/-- A circle goes to its case, with its payload, and a square to the catch-all, without. -/
theorem run_of_covered_shapes :
    let circle : Tag := .nth 0 (some "Circle")
    let square : Tag := .nth 1 (some "Square")
    let shapes : Union := ⟨0, [circle, square], by decide, by decide⟩
    let s : Switch := { cases := [(circle, .tag square)], otherwise := some (.union shapes) }
    let v : Value := .tagged ⟨1, circle, [.int 3]⟩
    let w : Value := .tagged ⟨2, square, [.int 4]⟩
    shapes.check s = .ok () ∧ ∀ host : Host,
      shapes.run host v s = (do
        Run.record (.toCase v circle)
        (Callable.tag square).call host [.int 3]) ∧
      shapes.run host w s = (do
        Run.record (.toOtherwise w)
        (Callable.union shapes).call host []) := by
  intro circle square shapes s v w
  have covered : shapes.check s = .ok () := rfl
  refine ⟨covered, fun host => ⟨?_, ?_⟩⟩
  · obtain ⟨i, handler, hi, -, called⟩ := (run_of_covered covered host v).1 ⟨1, circle, [.int 3]⟩ rfl (by decide)
    cases i with
    | zero =>
      cases hi
      exact called
    | succ i => cases hi
  · refine (run_of_covered covered host w).2.1 ?_ _ rfl
    rintro ⟨x, hx, ht⟩
    cases hx
    revert ht
    decide

end Union

end TaggedUnion
