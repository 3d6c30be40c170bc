/-
The two texts of a value. The plain text is what messages show: data as it is written down, texts
quoted, maps in the order of their names, a tagged value as its tag applied to its payload. The long
text names the sort of every value in it and numbers the tags.
-/
import TaggedUnion.Binary64.Print
import TaggedUnion.Text.Quoted
import TaggedUnion.Value.Basic

namespace TaggedUnion.Value

def bracketed (elements : List String) : String :=
  "[" ++ ", ".intercalate elements ++ "]"

def braced (entries : List String) : String :=
  "\x7b" ++ ", ".intercalate entries ++ "\x7d"

variable [Text.Glyphs]

/-! ## Plain text -/

mutual

/-- The plain text of a value. -/
def display : Value → String
  | .nothing => "None"
  | .int i => toString i.toInt
  | .float x => x.display
  | .bool b => if b then "true" else "false"
  | .str s => Text.quoted s
  | .slice vs => bracketed (displayList vs)
  | .map es => braced ((Entries.byName (displayEntries es)).map fun e => e.1 ++ ": " ++ e.2)
  | .function _ => "<function>"
  | .tag t => t.display
  | .tagged ⟨_, t, vs⟩ => t.display ++ "(" ++ ", ".intercalate (displayList vs) ++ ")"
  | .union u => u.display

def displayList : List Value → List String
  | [] => []
  | v :: vs => v.display :: displayList vs

def displayEntries : List (String × Value) → List (String × String)
  | [] => []
  | (name, v) :: es => (name, v.display) :: displayEntries es

end

/-! ## Long text -/

mutual

/-- The long text of a value. -/
def debug : Value → String
  | .nothing => "None"
  | .int i => "Int(" ++ toString i.toInt ++ ")"
  | .float x => "Float(" ++ x.debug ++ ")"
  | .bool b => "Bool(" ++ (if b then "true" else "false") ++ ")"
  | .str s => "Str(" ++ Text.quoted s ++ ")"
  | .slice vs => "Slice(" ++ bracketed (debugList vs) ++ ")"
  | .map es =>
    "Map(" ++ braced ((Entries.byName (debugEntries es)).map fun e => Text.quoted e.1 ++ ": " ++ e.2) ++ ")"
  | .function _ => "Function(<function>)"
  | .tag t => "Tag(" ++ t.debug ++ ")"
  | .tagged ⟨_, t, vs⟩ => "Tagged(Tagged(" ++ t.debug ++ ", " ++ bracketed (debugList vs) ++ "))"
  | .union u => "Union(" ++ u.debug ++ ")"

def debugList : List Value → List String
  | [] => []
  | v :: vs => v.debug :: debugList vs

def debugEntries : List (String × Value) → List (String × String)
  | [] => []
  | (name, v) :: es => (name, v.debug) :: debugEntries es

end

end TaggedUnion.Value
