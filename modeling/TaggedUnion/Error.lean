/-
Errors: every way in which an operation can fail, with what is to blame in it. The kind of an error
and its text are functions of the cause, so the wording is in this module alone.
-/
import TaggedUnion.Value.Text

namespace TaggedUnion

inductive ErrorKind where
  | invalidArgument
  | duplicateDefinition
  | invalidOperation
  | type
  | handler
deriving DecidableEq

/-- The words in front of an error's text; a handler's own error stands alone. -/
def ErrorKind.lead : ErrorKind → String
  | .invalidArgument => "invalid argument: "
  | .duplicateDefinition => "duplicate definition: "
  | .invalidOperation => "invalid operation: "
  | .type => "type error: "
  | .handler => ""

inductive Error where
  | tagNameNotText (found : Kind)
  | notTags (found : List (Nat × Kind))
  | repeatedTag (t : Tag)
  | repeatedName (name : String)
  /-- A member was to get a name that means something else on a union. -/
  | reservedName (name : String)
  | namesNotSlice (found : Kind)
  | nameNotText (index : Nat) (found : Kind)
  | cannotUnwrap (v : Value) (t : Tag)
  | repeatedCase (t : Tag)
  | strayCase (t : Tag)
  | missingCases (ts : List Tag)
  | unreachableOtherwise
  | notMember (v : Value)
  | unionCalled (u : Union)
  | clauseNotTag (index : Nat) (found : Kind)
  | clauseNotCallable (index : Nat) (t : Tag) (found : Kind)
  | otherwiseNotCallable (found : Kind)
  | handlersNotMap (found : Kind)
  | handlerNotCallable (name : String) (found : Kind)
  | strayHandler (name : String)
  /-- A word does not name a member of the union. -/
  | unknownMember (word : String)
  | notCallable (found : Kind)
  /-- A handler failed on its own account. -/
  | raised (kind : ErrorKind) (text : String)

namespace Error

def kind : Error → ErrorKind
  | .tagNameNotText _ | .notTags _ | .namesNotSlice _ | .nameNotText _ _ | .unknownMember _ =>
    .invalidArgument
  | .repeatedTag _ | .repeatedName _ | .reservedName _ => .duplicateDefinition
  | .cannotUnwrap _ _ | .repeatedCase _ | .strayCase _ | .missingCases _ | .unreachableOtherwise
  | .notMember _ | .unionCalled _ | .strayHandler _ => .invalidOperation
  | .clauseNotTag _ _ | .clauseNotCallable _ _ _ | .otherwiseNotCallable _ | .handlersNotMap _
  | .handlerNotCallable _ _ | .notCallable _ => .type
  | .raised kind _ => kind

/-- The elements that are no tags, by position and sort; more than one are called positions. -/
def notTagsText (found : List (Nat × Kind)) : String :=
  "Invalid Tag at position" ++ (if 1 < found.length then "s" else "") ++ " " ++
    ", ".intercalate (found.map fun p => toString p.1) ++ ": got " ++
    ", ".intercalate (found.map fun p => p.2.name)

def text [Text.Glyphs] : Error → String
  | .tagNameNotText found => "Tag display name must be a string, got " ++ found.name
  | .notTags found => notTagsText found
  | .repeatedTag t => "Duplicate Tag " ++ t.display ++ " in union"
  | .repeatedName name => "Two Tags in the union have the display name " ++ Text.quoted name
  | .reservedName name => "The name " ++ Text.quoted name ++ " is reserved by the union"
  | .namesNotSlice found => "The names of a union must be an array, got " ++ found.name
  | .nameNotText index found =>
    "Name " ++ toString index ++ " must be a string, got " ++ found.name
  | .cannotUnwrap v t => "Cannot unwrap " ++ v.display ++ " as " ++ t.display
  | .repeatedCase t => t.display ++ " type can only be covered by one clause"
  | .strayCase t => t.display ++ " is not in this union"
  | .missingCases ts =>
    "Not all cases are covered: missing " ++ ", ".intercalate (ts.map Tag.display)
  | .unreachableOtherwise => "All cases are covered, so the catch-all is unreachable"
  | .notMember v => v.display ++ " is not a member of this union"
  | .unionCalled u => u.display ++ " cannot be created directly; use one of its Tags"
  | .clauseNotTag index found =>
    "Clause " ++ toString index ++ ": type must be a Tag, got " ++ found.name
  | .clauseNotCallable index t found =>
    "Clause " ++ toString index ++ ": handler for " ++ t.display ++ " must be a function, got " ++
      found.name
  | .otherwiseNotCallable found => "The catch-all must be a function, got " ++ found.name
  | .handlersNotMap found => "The handlers must be a map, got " ++ found.name
  | .handlerNotCallable name found =>
    "The handler for " ++ name ++ " must be a function, got " ++ found.name
  | .strayHandler name => name ++ " is not in this union"
  | .unknownMember word => word ++ " is not in this union"
  | .notCallable found => found.name ++ " is not callable"
  | .raised _ text => text

def message [Text.Glyphs] (e : Error) : String := e.kind.lead ++ e.text

end Error

end TaggedUnion
