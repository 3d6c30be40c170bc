/-
The history of a run: how many tags and objects have been made, and what has happened, in order. It
only ever grows. A run reads and extends the history and gives a result or fails; a failure keeps the
history up to it.
-/
import TaggedUnion.Error

namespace TaggedUnion

/-! ## Events -/

inductive Record where
  | tagCreated (t : Tag)
  | unionCreated (size : Nat)
  | toCase (v : Value) (t : Tag)
  | toOtherwise (v : Value)

inductive Level where
  | trace
  | debug
deriving DecidableEq

def Level.name : Level → String
  | .trace => "TRACE"
  | .debug => "DEBUG"

namespace Record

def level : Record → Level
  | .tagCreated _ | .unionCreated _ => .trace
  | .toCase _ _ | .toOtherwise _ => .debug

def text [Text.Glyphs] : Record → String
  | .tagCreated t =>
    "created tag #" ++ toString t.id.toNat ++
      (match t.name with
        | some name => " (Some(" ++ Text.quoted name ++ "))"
        | none => " (None)")
  | .unionCreated size => "created union of " ++ toString size ++ " tags"
  | .toCase v t => "dispatching " ++ v.display ++ " to the case for " ++ t.display
  | .toOtherwise v => "dispatching " ++ v.display ++ " to the catch-all"

def line [Text.Glyphs] (r : Record) : String := r.level.name ++ " " ++ r.text

end Record

/-- Something that happened in a run: a record was made, or something was called. -/
inductive Event where
  | recorded (r : Record)
  | called (callee : Callable) (args : List Value)

def Event.record? : Event → Option Record
  | .recorded r => some r
  | .called _ _ => none

/-! ## Runs -/

/-- What has been made so far and what has happened so far. -/
structure History where
  /-- The number of tags that were made, which is the number of the next one. -/
  tags : Nat := 0
  /-- The number of functions, tagged values and unions that were made, and the next one's number. -/
  objects : Nat := 0
  events : Array Event := #[]

/-- A computation that extends the history and gives a result or fails. -/
abbrev Run := EStateM Error History

/-- The host's own functions: what calling one of them does. -/
abbrev Host := Function → List Value → Run Value

namespace Run

def note (e : Event) : Run Unit :=
  modify fun h => { h with events := h.events.push e }

def record (r : Record) : Run Unit := note (.recorded r)

def freshObject : Run Nat :=
  modifyGet fun h => (h.objects, { h with objects := h.objects + 1 })

def freshTag : Run Nat :=
  modifyGet fun h => (h.tags, { h with tags := h.tags + 1 })

/-- The run that gives what a check gives, and fails if it fails. -/
def ofExcept {α : Type} : Except Error α → Run α
  | .ok a => pure a
  | .error e => throw e

end Run

end TaggedUnion
