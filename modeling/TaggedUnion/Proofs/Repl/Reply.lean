/-
Replies. The handlers of a loop are one for each member, under its name and with the name as its label, so
they pass every check of a switch by name, and a value of a member meets the handler with its name. What a
line is answered with therefore depends on the words of the line and on the union alone. How colours are shown is left
open, as long as the text that is shown can be read.
-/
import TaggedUnion.Proofs.NamedUnion.Faults
import TaggedUnion.Proofs.Repl.Lines
import TaggedUnion.Proofs.Text.Quoted
import TaggedUnion.Proofs.Text.Words
import TaggedUnion.Proofs.World.Tags

namespace TaggedUnion

/-! ## Colours -/

namespace Paint

/-- Whether a text that is shown in a colour can be read there. -/
def Shows (paint : Paint) : Prop := ∀ colour text, text.toList <:+: (paint colour text).toList

theorem ansi_blue (text : String) : ansi .blue text = "\x1b[34m" ++ text ++ "\x1b[0m" := rfl

theorem ansi_red (text : String) : ansi .red text = "\x1b[31m" ++ text ++ "\x1b[0m" := rfl

theorem shows_ansi : ansi.Shows := by
  intro colour text
  refine ⟨("\x1b[" ++ colour.code ++ "m").toList, "\x1b[0m".toList, ?_⟩
  simp only [ansi, String.toList_append]

/-- Where a text in a colour stands between other texts, the text can be read. -/
theorem Shows.isInfix_append {paint : Paint} (shows : paint.Shows) (colour : Colour) (text before after : String) :
    text.toList <:+: (before ++ (paint colour text ++ after)).toList := by
  rw [String.toList_append, String.toList_append]
  exact (shows colour text).trans ((List.prefix_append _ _).isInfix.trans (List.suffix_append _ _).isInfix)

end Paint

namespace Repl

/-! ## Handlers -/

/-- The handlers for the given names, as objects numbered from `k` on. -/
def handlersFrom (k : Nat) (names : List String) : Entries Value :=
  (names.zipIdx k).map fun p => (p.1, .function ⟨p.2, .host (some p.1)⟩)

variable {k : Nat} {names : List String}

theorem map_fst_handlersFrom : (handlersFrom k names).map Prod.fst = names := by
  rw [handlersFrom, List.map_map]
  exact List.zipIdx_map_fst k names

theorem distinct_handlersFrom {n : NamedUnion} : (handlersFrom k n.names).Distinct := by
  rw [Entries.Distinct, map_fst_handlersFrom]
  exact n.union.nodup_names

/-- A handler has the name that it stands under as its label. -/
theorem eq_of_mem_handlersFrom {name : String} {v : Value} (h : (name, v) ∈ handlersFrom k names) :
    ∃ ident, v = .function ⟨ident, .host (some name)⟩ := by
  obtain ⟨p, -, same⟩ := List.mem_map.1 h
  cases same
  exact ⟨p.2, rfl⟩

theorem describers_apply (names : List String) (h : History) :
    describers names h = .ok (handlersFrom h.objects names) { h with objects := h.objects + names.length } := by
  induction names generalizing h with
  | nil => rfl
  | cons name names ih =>
    have first : Run.freshObject h = .ok h.objects { h with objects := h.objects + 1 } := rfl
    rw [describers, Run.bind_apply, first]
    simp only [Run.bind_apply, ih, List.length_cons, Nat.add_assoc, Nat.add_comm 1]
    rfl

/-- The loop of a union whose handlers are numbered from `k` on. -/
def loopOf (n : NamedUnion) (k : Nat) : Repl := { union := n, handlers := .map (handlersFrom k n.names) }

theorem ofUnion_apply (n : NamedUnion) (h : History) :
    ofUnion n h = .ok (loopOf n h.objects) { h with objects := h.objects + n.names.length } := by
  rw [ofUnion, Run.bind_apply, describers_apply]
  simp only [Value.ofEntries, distinct_handlersFrom.ofList_eq]
  rfl

/-! ## The switch -/

variable {n : NamedUnion}

theorem callables_handlersFrom : NamedUnion.Callables (.map (handlersFrom k n.names)) none (handlersFrom k n.names) where
  map := rfl
  callable := by
    rintro ⟨name, v⟩ he
    obtain ⟨ident, rfl⟩ := eq_of_mem_handlersFrom he
    rfl
  catchAll := fun _ h => nomatch h

theorem check_switchFor_handlersFrom : n.union.check (n.switchFor (handlersFrom k n.names) none) = .ok () := by
  have full : n.names ⊆ (handlersFrom k n.names).map Prod.fst := by
    rw [map_fst_handlersFrom]
    exact List.Subset.refl _
  have covered : n.union.tags ⊆ (n.switchFor (handlersFrom k n.names) none).tags :=
    (NamedUnion.tags_subset_switchFor_iff distinct_handlersFrom callables_handlersFrom.callable).2 full
  exact Union.check_eq_ok_iff.2
    ⟨NamedUnion.nodup_tags_switchFor, NamedUnion.tags_switchFor_subset, fun _ => covered, fun _ => rfl⟩

/-- No check fails, whatever the value. -/
theorem switch_handlersFrom (host : Host) (v : Value) :
    n.switch host v (.map (handlersFrom k n.names)) none = (n.switchFor (handlersFrom k n.names) none).dispatch host v := by
  have members : (handlersFrom k n.names).map Prod.fst ⊆ n.names := by
    rw [map_fst_handlersFrom]
    exact List.Subset.refl _
  exact NamedUnion.switch_of_covered callables_handlersFrom members check_switchFor_handlersFrom host v

section Told

variable [Text.Glyphs]

/-- What is told of a member and its payload. -/
def description (name : String) (payload : List Value) : String :=
  name ++ " with payload " ++ Value.bracketed (payload.map Value.display)

/-- A value of a member is described under the name of the member, and no tag is made for it. -/
theorem switch_describes {t : Tag} {name : String} (member : n.get? name = some t) (ident : Nat)
    (payload : List Value) (h : History) :
    ∃ h', n.switch describe (.tagged ⟨ident, t, payload⟩) (.map (handlersFrom k n.names)) none h =
        .ok (.str (description name payload)) h' ∧
      h'.tags = h.tags ∧ h'.created = h.created := by
  obtain ⟨ht, hname⟩ := NamedUnion.get?_eq_some_iff.1 member
  have listed : name ∈ (handlersFrom k n.names).map Prod.fst := by
    rw [map_fst_handlersFrom]
    exact NamedUnion.mem_names_iff.2 ⟨t, ht, hname⟩
  obtain ⟨⟨name, v⟩, mem, rfl⟩ := List.mem_map.1 listed
  obtain ⟨ident', rfl⟩ := eq_of_mem_handlersFrom mem
  have case : (t, .function ⟨ident', .host (some name)⟩) ∈ (n.switchFor (handlersFrom k n.names) none).cases :=
    (NamedUnion.mem_cases_switchFor distinct_handlersFrom).2 ⟨ht, name, _, hname, mem, rfl⟩
  obtain ⟨i, hi⟩ := List.getElem?_of_mem case
  rw [switch_handlersFrom, Switch.dispatch_of_getElem?_cases NamedUnion.nodup_tags_switchFor rfl hi]
  exact ⟨_, rfl, rfl, h.created_dispatch _ (.case t (.function ⟨ident', .host (some name)⟩) payload)⟩

/-! ## Answers -/

/-- What a line of these words is answered with. -/
def answerTo (paint : Paint) (n : NamedUnion) : List String → String
  | [] => ""
  | name :: args =>
    if name ∈ n.names then paint .blue (description name (args.map valueOf)) ++ "\n"
    else paint .red (Error.unknownMember name).message ++ "\n"

variable {paint : Paint}

/-- The answer to a line is fixed by its words, and no tag is made for it. -/
theorem answer_apply (paint : Paint) (line : String) (h : History) :
    ∃ h', (loopOf n k).answer paint line h = .ok (answerTo paint n (Text.words line)) h' ∧
      h'.tags = h.tags ∧ h'.created = h.created := by
  unfold answer
  cases Text.words line with
  | nil => exact ⟨h, rfl, rfl, rfl⟩
  | cons name args =>
    simp only [Run.tryCatch_apply, Run.bind_apply, evaluate, answerTo, loopOf]
    cases member : n.get? name with
    | none =>
      rw [if_neg (NamedUnion.get?_eq_none_iff.1 member)]
      exact ⟨h, rfl, rfl, rfl⟩
    | some t =>
      have listed : name ∈ n.names := by
        obtain ⟨ht, hname⟩ := NamedUnion.get?_eq_some_iff.1 member
        exact NamedUnion.mem_names_iff.2 ⟨t, ht, hname⟩
      obtain ⟨h', described, tags, created⟩ :=
        switch_describes (k := k) member h.objects (args.map valueOf) { h with objects := h.objects + 1 }
      have wrapped : t.wrap (args.map valueOf) h =
          .ok (.tagged ⟨h.objects, t, args.map valueOf⟩) { h with objects := h.objects + 1 } := rfl
      rw [if_pos listed]
      simp only [Run.bind_apply, wrapped, described]
      exact ⟨h', rfl, tags, created⟩

/-! ## Commands -/

variable {r : Repl} {input line rest : List UInt8}

theorem command_nil (h : History) :
    r.command paint [] h = .ok ⟨{ r with isComplete := true }, [], r.prompt, .ok (), Nat.one_pos⟩ h := rfl

/-- A line that is no text is not answered. -/
theorem command_of_not_text (first : Line line rest) (noText : decode? line = none) (h : History) :
    r.command paint (line ++ rest) h = .ok ⟨r, rest, r.prompt, .error .notUtf8, r.pending_lt first.length_lt⟩ h := by
  have read : ∀ (input : List UInt8) (progress : r.pending rest < input.length + 1), input ≠ [] →
      splitLine input = (line, rest) →
      r.command paint input h = .ok ⟨r, rest, r.prompt, .error .notUtf8, progress⟩ h := by
    rintro (_ | ⟨b, bs⟩) progress nonempty split
    · exact absurd rfl nonempty
    · simp only [command, split, noText]
      rfl
  exact read _ _ first.append_ne_nil first.splitLine_eq

/-- A line is answered, and what follows it is left to the next command. -/
theorem command_of_text {s answer : String} {h h' : History} (first : Line line rest) (text : Text.bytes s = line)
    (answered : r.answer paint s h = .ok answer h') :
    r.command paint (line ++ rest) h = .ok ⟨r, rest, r.prompt ++ answer, .ok (), r.pending_lt first.length_lt⟩ h' := by
  have read : ∀ (input : List UInt8) (progress : r.pending rest < input.length + 1), input ≠ [] →
      splitLine input = (line, rest) →
      r.command paint input h = .ok ⟨r, rest, r.prompt ++ answer, .ok (), progress⟩ h' := by
    rintro (_ | ⟨b, bs⟩) progress nonempty split
    · exact absurd rfl nonempty
    · simp only [command, split, decode?_eq_some_iff.2 text, Run.bind_apply, answered]
      rfl
  exact read _ _ first.append_ne_nil first.splitLine_eq

/-- What is written for a line of these words: the prompt, and the answer. -/
def reply (paint : Paint) (n : NamedUnion) (words : List String) : String :=
  n.union.display ++ "> " ++ answerTo paint n words

/-- The handlers of a loop cover its union. Every line that can be read is replied to, and the reply depends on its
words alone, which are what is left of it between the white space: the prompt for no word; the member and its
arguments, in blue, if the first word is the name of a member; and otherwise, in red, that it is not. In either colour
the text can be read, and the colours of a terminal do so. The switch in between describes every value of a member and so never fails. -/
theorem command_replies (shows : paint.Shows) (n : NamedUnion) (start : History) :
    ∃ r begun, ofUnion n start = .ok r begun ∧ r.union = n ∧
      (∀ s : String, ∃! words : List String, Text.Separated s.toList (words.map String.toList)) ∧
      (∀ line rest s words h, Line line rest → Text.bytes s = line →
        Text.Separated s.toList (words.map String.toList) →
        ∃ turn h', r.command paint (line ++ rest) h = .ok turn h' ∧ turn.output = reply paint n words ∧
          turn.result = .ok () ∧ turn.rest = rest ∧ turn.repl = r) ∧
      reply paint n [] = n.union.display ++ "> " ∧
      (∀ (w : String) (args : List String), w ∈ n.names → ∃ told : String,
        told = w ++ " with payload " ++ ("[" ++ ", ".intercalate (args.map fun arg => (valueOf arg).display) ++ "]") ∧
        reply paint n (w :: args) = n.union.display ++ "> " ++ (paint .blue told ++ "\n") ∧
        told.toList <:+: (reply paint n (w :: args)).toList) ∧
      (∀ (w : String) (args : List String), w ∉ n.names → ∃ told : String,
        told = "invalid argument: " ++ (w ++ " is not in this union") ∧
        reply paint n (w :: args) = n.union.display ++ "> " ++ (paint .red told ++ "\n") ∧
        told.toList <:+: (reply paint n (w :: args)).toList) ∧
      (∀ t ∈ n.union.tags, ∀ (args : List String) h, ∃ v h' text h'', t.wrap (args.map valueOf) h = .ok v h' ∧
        n.switch describe v r.handlers none h' = .ok (.str text) h'') ∧
      Paint.ansi.Shows ∧ (∀ text, Paint.ansi .blue text = "\x1b[34m" ++ text ++ "\x1b[0m") ∧
      ∀ text, Paint.ansi .red text = "\x1b[31m" ++ text ++ "\x1b[0m" := by
  refine ⟨_, _, ofUnion_apply n start, rfl, Text.existsUnique_separated, ?_, String.append_empty, ?_, ?_, ?_,
    Paint.shows_ansi, Paint.ansi_blue, Paint.ansi_red⟩
  · intro line rest s words h first text separated
    obtain ⟨h', answered, -⟩ := answer_apply paint (n := n) (k := start.objects) s h
    refine ⟨_, h', command_of_text first text answered, ?_, rfl, rfl, rfl⟩
    rw [Text.words_eq_iff.2 separated]
    rfl
  · intro w args listed
    have told : reply paint n (w :: args) = n.union.display ++ "> " ++ (paint .blue (w ++ " with payload " ++
        ("[" ++ ", ".intercalate (args.map fun arg => (valueOf arg).display) ++ "]")) ++ "\n") := by
      rw [reply, answerTo, if_pos listed, description, List.map_map]
      rfl
    exact ⟨_, rfl, told, told ▸ shows.isInfix_append .blue _ _ _⟩
  · intro w args stranger
    have told : reply paint n (w :: args) =
        n.union.display ++ "> " ++ (paint .red ("invalid argument: " ++ (w ++ " is not in this union")) ++ "\n") := by
      rw [reply, answerTo, if_neg stranger]
      rfl
    exact ⟨_, rfl, told, told ▸ shows.isInfix_append .red _ _ _⟩
  · intro t ht args h
    obtain ⟨name, named⟩ := Option.isSome_iff_exists.1 (n.named t ht)
    obtain ⟨h', described, -⟩ := switch_describes (k := start.objects) (NamedUnion.get?_eq_some_iff.2 ⟨ht, named⟩)
      h.objects (args.map valueOf) { h with objects := h.objects + 1 }
    exact ⟨_, _, _, h', rfl, described⟩

end Told

/-- A circle with an integer and a text, and a stranger, in the colours of a terminal. -/
theorem command_replies_circle :
    let _ := Text.Glyphs.ascii
    let shapes : NamedUnion := .ofUnion ⟨0, [.nth 0 (some "Circle")], by decide, by decide⟩ (by decide)
    Paint.ansi.Shows ∧ ∃ r begun, ofUnion shapes {} = .ok r begun ∧ ∀ h,
      (∃ turn h', r.command .ansi (Text.bytes "Circle 7 big\n" ++ []) h = .ok turn h' ∧
        turn.output = "Union(Circle)> \x1b[34mCircle with payload [7, \"big\"]\x1b[0m\n") ∧
      ∃ turn h', r.command .ansi (Text.bytes "Oval\n" ++ []) h = .ok turn h' ∧
        turn.output = "Union(Circle)> \x1b[31minvalid argument: Oval is not in this union\x1b[0m\n" := by
  intro _ shapes
  have line : ∀ s : String, splitLine (Text.bytes s) = (Text.bytes s, []) → Text.bytes s ≠ [] →
      Line (Text.bytes s) [] := by
    intro s whole nonempty
    have first := line_splitLine nonempty
    rwa [whole] at first
  obtain ⟨r, begun, made, -, -, replied, -, known, unknown, -⟩ := command_replies Paint.shows_ansi shapes {}
  refine ⟨Paint.shows_ansi, r, begun, made, fun h => ⟨?_, ?_⟩⟩
  · obtain ⟨turn, h', ran, output, -⟩ := replied _ [] "Circle 7 big\n" ["Circle", "7", "big"] h
      (line _ (by decide +kernel) (by decide +kernel)) rfl (Text.words_eq_iff.1 (by decide +kernel))
    obtain ⟨told, rfl, text, -⟩ := known "Circle" ["7", "big"] (by decide)
    exact ⟨turn, h', ran, (output.trans text).trans (by decide +kernel)⟩
  · obtain ⟨turn, h', ran, output, -⟩ := replied _ [] "Oval\n" ["Oval"] h
      (line _ (by decide +kernel) (by decide +kernel)) rfl (Text.words_eq_iff.1 (by decide +kernel))
    obtain ⟨told, rfl, text, -⟩ := unknown "Oval" [] (by decide)
    exact ⟨turn, h', ran, (output.trans text).trans (by decide +kernel)⟩

end Repl

end TaggedUnion
