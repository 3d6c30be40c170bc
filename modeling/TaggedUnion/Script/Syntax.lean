/-
Scripts: sequences of steps that make, combine and inspect values, with variables for the results. A
script can define functions, out of a small stock of bodies. This module holds the written form.
-/
import TaggedUnion.Error

namespace TaggedUnion.Script

/-! ## Expressions -/

inductive Body (α : Type) where
  | const (v : α)
  | arguments
  | count
  /-- Gives the texts of its arguments, with a space between them. -/
  | texts
  | nth (index : Nat)
  | sum
  | raise (kind : ErrorKind) (text : String)
  /-- Calls the function in a variable with each argument, and then `next` with the results. -/
  | each (f : String) (next : α)
  /-- Dispatches its first argument through a switch over a union, both in variables. -/
  | dispatch (u s : String)

inductive Expr where
  | nothing
  | int (i : Int64)
  | float (x : Binary64)
  | bool (b : Bool)
  | str (s : String)
  | slice (elements : List Expr)
  | map (entries : List (String × Expr))
  /-- The value in a variable, or the union of the named union in it. -/
  | ref (x : String)
  | member (n name : String)
  | function (label : Option String) (body : Body Expr)

/-- The subject of a step: a variable, or an expression. -/
inductive Operand where
  | var (x : String)
  | expr (e : Expr)

/-! ## Steps -/

inductive Command where
  | value (v : Expr)
  | display (v : Expr)
  | debug (v : Operand)
  | inspect (v : Expr)
  | equal (a b : Expr)
  | toFunction (v : Expr)
  | call (f : Expr) (args : List Expr)
  /-- Wraps a value so many times into a slice, or into values of a tag. -/
  | nest (v : Expr) (depth : Nat) (tag : Option Operand)
  | tagOf (name : Expr)
  | tag (name : Option String)
  | tagInfo (tag : Operand)
  | wrap (tag : Operand) (args : List Expr)
  | is (tag : Operand) (v : Expr)
  | owns (tag v : Operand)
  | unwrap (tag : Operand) (v : Expr) (f : Option Expr)
  | taggedInfo (v : Operand)
  | owner (v : Operand)
  /-- Tells which tags of a list occur for the first time. -/
  | newcomers (tags : List Operand)
  | unionOf (tags : List Expr)
  | union (tags : List Operand)
  | unionInfo (u : Operand)
  | contains (u tag : Operand)
  | has (u : Operand) (v : Expr)
  | switch (u : Operand) (v : Expr) (clauses : List Expr)
  | emptySwitch
  | clauses (vs : List Expr)
  | addCase (s : String) (tag : Operand) (f : Expr)
  | otherwise (s : String) (f : Expr)
  | check (u : Operand) (s : String)
  | run (u : Operand) (v : Expr) (s : String)
  | namedOf (names : Expr)
  | named (names : List String)
  | get (n name : String)
  /-- Takes a member for granted. -/
  | index (n name : String)
  | namedSwitch (n : String) (v handlers : Expr) (otherwise : Option Expr)
  | reserved

/-- A step, and the variable for its result. -/
structure Step where
  command : Command
  target : Option String := none

end TaggedUnion.Script
