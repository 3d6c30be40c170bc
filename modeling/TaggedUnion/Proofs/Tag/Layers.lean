/-
Layers of tagged values: a payload is wrapped with a tag, the result alone with the next tag, and so on, at each layer
in one of the ways to construct a tagged value. Unwrapping with the same tags in the opposite order gives the payload
back, whatever tags they are. At every layer the tag that constructed it is the only one to unwrap it, and nothing
else is unwrapped at all.
-/
import TaggedUnion.Proofs.World.Calls

namespace TaggedUnion.Tag

variable {a : Tag}

/-! ## Owners -/

theorem is_tagged_iff {x : Tagged Value} : a.is (.tagged x) = true ↔ a = x.tag := by
  show (x.tag == a) = true ↔ a = x.tag
  rw [beq_iff_eq, eq_comm]

theorem is_eq_false_of_not_tagged {v : Value} (other : ∀ x, v ≠ .tagged x) : a.is v = false := by
  cases v with
  | tagged x => exact absurd rfl (other x)
  | _ => rfl

theorem unwrap_own {α : Type} (x : Tagged Value) (f : List Value → Run α) :
    x.tag.unwrap (.tagged x) f = f x.payload :=
  unwrap_of_owns rfl (beq_self_eq_true x.tag) f

/-! ## Ways to construct -/

/-- The ways to construct a tagged value with a tag. -/
inductive Way where
  | wrap
  | call
  /-- The tag is called as a value of whatever kind. -/
  | callAsValue
  /-- The tag is made a function, and that is called. -/
  | callAsFunction

def Way.construct (host : Host) (way : Way) (t : Tag) (payload : List Value) : Run Value :=
  match way with
  | .wrap => t.wrap payload
  | .call => (Callable.tag t).call host payload
  | .callAsValue => (Value.tag t).call host payload
  | .callAsFunction => do
    let some f ← (Value.tag t).toFunction? | throw (.notCallable (Value.tag t).kind)
    (Callable.function f).call host payload

/-- Whatever way it is constructed in, a tagged value has the payload that it was given and belongs to its tag. -/
theorem Way.construct_apply (way : Way) (host : Host) (t : Tag) (payload : List Value) (h : History) :
    ∃ ident h', way.construct host t payload h = .ok (.tagged ⟨ident, t, payload⟩) h' := by
  cases way with
  | wrap => exact ⟨_, _, rfl⟩
  | call | callAsValue => exact ⟨_, _, Callable.call_of_tag (c := .tag t) rfl host payload h⟩
  | callAsFunction =>
    exact ⟨_, _, Callable.call_of_tag (c := .function ⟨h.objects, .tag t⟩) rfl host payload
      { h with objects := h.objects + 1 }⟩

/-! ## Layers -/

/-- Wraps a payload with the first tag, the result as the only element of a payload with the next one, and so on. Gives
the payload that comes out in the end, which is the first one if there are no layers. -/
def nest (host : Host) : List (Way × Tag) → List Value → Run (List Value)
  | [], payload => return payload
  | (way, t) :: layers, payload => do
    let v ← way.construct host t payload
    nest host layers [v]

/-- Unwraps the first element of a payload with the first tag, the first element of what is in it with the next one,
and so on. -/
def peel : List Tag → List Value → Run (List Value)
  | [], payload => return payload
  | t :: ts, payload => do
    let inner ← t.unwrap (payload.headD .nothing) pure
    peel ts inner

theorem peel_append (ts ts' : List Tag) (payload : List Value) :
    peel (ts ++ ts') payload = peel ts payload >>= peel ts' := by
  induction ts generalizing payload with
  | nil => rfl
  | cons t ts ih => simp only [List.cons_append, peel, ih, bind_assoc]

theorem peel_own (x : Tagged Value) : peel [x.tag] [.tagged x] = pure x.payload := by
  simp only [peel, List.headD_cons, unwrap_own, bind_pure]

/-- Layers come off in the opposite order, at any later moment. -/
theorem peel_nest (layers : List (Way × Tag)) (host : Host) (payload : List Value) (h : History) :
    ∃ nested h', nest host layers payload h = .ok nested h' ∧
      peel (layers.map Prod.snd).reverse nested = pure payload := by
  -- the innermost layer comes first here, and its value is the payload of the others
  induction layers generalizing payload h with
  | nil => exact ⟨payload, h, rfl, rfl⟩
  | cons layer layers ih =>
    obtain ⟨way, t⟩ := layer
    obtain ⟨ident, h₁, constructed⟩ := way.construct_apply host t payload h
    obtain ⟨nested, h', outer, peeled⟩ := ih [.tagged ⟨ident, t, payload⟩] h₁
    refine ⟨nested, h', ?_, ?_⟩
    · simp only [nest, Run.bind_apply, constructed, outer]
    · rw [List.map_cons, List.reverse_cons, peel_append, peeled, pure_bind]
      exact peel_own ⟨ident, t, payload⟩

theorem nest_append (layers layers' : List (Way × Tag)) (host : Host) (payload : List Value) :
    nest host (layers ++ layers') payload = nest host layers payload >>= nest host layers' := by
  induction layers generalizing payload with
  | nil => rfl
  | cons layer layers ih => simp only [List.cons_append, nest, ih, bind_assoc]

/-- The outermost layer is a tagged value of the last tag, around what came out of the layers before. -/
theorem nest_concat (layers : List (Way × Tag)) (way : Way) (t : Tag) (host : Host) (payload : List Value)
    (h : History) : ∃ x h₁ h', nest host layers payload h = .ok x.payload h₁ ∧
      nest host (layers ++ [(way, t)]) payload h = .ok [.tagged x] h' ∧ x.tag = t := by
  obtain ⟨inner, h₁, nested, -⟩ := peel_nest layers host payload h
  obtain ⟨ident, h', constructed⟩ := way.construct_apply host t inner h₁
  refine ⟨⟨ident, t, inner⟩, h₁, h', nested, ?_, rfl⟩
  simp only [nest_append, Run.bind_apply, nested, nest, constructed]
  rfl

/-- Unwrapping undoes wrapping through any number of layers, of whatever tags and constructed in whatever ways: with
the tags in the opposite order it gives the payload back. Every layer is a tagged value of its own tag around the layer
below, and its tag is the only one that it is a value of. Unwrapping with the owner is what is done with the payload,
once; with any other tag it fails before anything is done, in these words, and so it does with every tag for what is
no tagged value, such as the tag itself. -/
theorem unwrapping_undoes_wrapping [Text.Glyphs] (host : Host) (layers : List (Way × Tag)) (payload : List Value)
    (h : History) :
    (∃ nested h', nest host layers payload h = .ok nested h' ∧
      ∀ past, peel (layers.map Prod.snd).reverse nested past = .ok payload past) ∧
    (∀ inner way t outer, layers = inner ++ (way, t) :: outer → ∃ x h₁ h₂,
      nest host inner payload h = .ok x.payload h₁ ∧
      nest host (inner ++ [(way, t)]) payload h = .ok [.tagged x] h₂ ∧ x.tag = t) ∧
    (∀ (a : Tag) (x : Tagged Value), a.is (.tagged x) = true ↔ a = x.tag) ∧
    (∀ (a : Tag) (x : Tagged Value), a.is (.tagged x) = true → ∀ {α : Type} (f : List Value → Run α),
      a.unwrap (.tagged x) f = f x.payload) ∧
    (∀ (a : Tag) v, a.is v = false → ∀ {α : Type} (f : List Value → Run α),
      a.unwrap v f = throw (.cannotUnwrap v a)) ∧
    (∀ (a : Tag) v, (∀ x, v ≠ .tagged x) → a.is v = false) ∧
    (∀ a : Tag, a.is (.tag a) = false) ∧
    (∀ v (a : Tag), (Error.cannotUnwrap v a).message =
      "invalid operation: " ++ ("Cannot unwrap " ++ v.display ++ " as " ++ a.display)) := by
  refine ⟨?_, fun inner way t outer _ => nest_concat inner way t host payload h, fun a x => is_tagged_iff,
    fun a x own α f => ?_,
    fun a v stranger α f => unwrap_of_not_is stranger f, fun a v other => is_eq_false_of_not_tagged other,
    fun a => rfl, fun v a => rfl⟩
  · obtain ⟨nested, h', outer, peeled⟩ := peel_nest layers host payload h
    exact ⟨nested, h', outer, fun past => by rw [peeled]; rfl⟩
  · rw [is_tagged_iff.1 own]
    exact unwrap_own x f

end TaggedUnion.Tag
