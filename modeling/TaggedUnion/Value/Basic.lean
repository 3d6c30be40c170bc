/-
Dynamically typed values. Scalars, texts, slices and maps are data; functions, tags, tagged values and
unions are objects with an identity. Objects made at run time carry the number they got when they were
made, which is what they are compared by.
-/
import TaggedUnion.Binary64.Basic
import TaggedUnion.Union.Basic
import TaggedUnion.Value.Entries

namespace TaggedUnion

/-! ## Objects -/

/-- What runs when a function is called: code of the host, which may have given it a label, or a tag
or a union that was turned into a function. -/
inductive Code where
  | host (label : Option String)
  | tag (t : Tag)
  | union (u : Union)
deriving DecidableEq

structure Function where
  ident : Nat
  code : Code
deriving DecidableEq

/-- An object that a tag constructed around a payload. -/
structure Tagged (α : Type) where
  ident : Nat
  tag : Tag
  payload : List α

def Function.same (f g : Function) : Bool := f.ident == g.ident

def Tagged.same {α : Type} (x y : Tagged α) : Bool := x.ident == y.ident

/-! ## Values -/

/-- A dynamically typed value. -/
inductive Value where
  | nothing
  | int (i : Int64)
  | float (x : Binary64)
  | bool (b : Bool)
  | str (s : String)
  | slice (elements : List Value)
  | map (entries : List (String × Value))
  | function (f : Function)
  | tag (t : Tag)
  | tagged (x : Tagged Value)
  | union (u : Union)

inductive Kind where
  | nothing
  | int
  | float
  | bool
  | str
  | slice
  | map
  | function
  | tag
  | tagged
  | union
deriving DecidableEq

def Kind.name : Kind → String
  | .nothing => "None"
  | .int => "Int"
  | .float => "Float"
  | .bool => "Bool"
  | .str => "Str"
  | .slice => "Slice"
  | .map => "Map"
  | .function => "Function"
  | .tag => "Tag"
  | .tagged => "Tagged"
  | .union => "Union"

inductive Callable where
  | function (f : Function)
  | tag (t : Tag)
  | union (u : Union)
deriving DecidableEq

def Callable.toValue : Callable → Value
  | .function f => .function f
  | .tag t => .tag t
  | .union u => .union u

namespace Value

def kind : Value → Kind
  | .nothing => .nothing
  | .int _ => .int
  | .float _ => .float
  | .bool _ => .bool
  | .str _ => .str
  | .slice _ => .slice
  | .map _ => .map
  | .function _ => .function
  | .tag _ => .tag
  | .tagged _ => .tagged
  | .union _ => .union

def isNothing : Value → Bool
  | .nothing => true
  | _ => false

def str? : Value → Option String
  | .str s => some s
  | _ => none

def slice? : Value → Option (List Value)
  | .slice elements => some elements
  | _ => none

def map? : Value → Option (Entries Value)
  | .map entries => some entries
  | _ => none

def tag? : Value → Option Tag
  | .tag t => some t
  | _ => none

def tagged? : Value → Option (Tagged Value)
  | .tagged x => some x
  | _ => none

def callable? : Value → Option Callable
  | .function f => some (.function f)
  | .tag t => some (.tag t)
  | .union u => some (.union u)
  | _ => none

/-- The map of a list of entries; of two entries of one name the later one counts. -/
def ofEntries (entries : List (String × Value)) : Value :=
  .map (Entries.ofList entries)

end Value

/-! ## Ownership -/

def Tag.owns (t : Tag) (x : Tagged Value) : Bool := x.tag == t

/-- Whether a value is a tagged value that the tag constructed. The tag itself is none. -/
def Tag.is (t : Tag) (v : Value) : Bool :=
  match v.tagged? with
  | some x => t.owns x
  | none => false

/-- Whether a value was constructed by a member of the union. The members themselves were not. -/
def Union.has (u : Union) (v : Value) : Bool :=
  match v.tagged? with
  | some x => u.contains x.tag
  | none => false

end TaggedUnion
