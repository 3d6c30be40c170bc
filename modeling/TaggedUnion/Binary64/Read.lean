/-
Reading binary64 numbers. A decimal text is a sign, digits with at most one point among them, and an
exponent of ten; its value is rounded to the nearest number, and half way to the one with the even
significand. All of it is exact, in `Nat`, and no power is formed that the result cannot need. Infinity
and what is no number have names.
-/
import TaggedUnion.Binary64.Basic

namespace TaggedUnion.Binary64

/-! ## Rounding -/

/-- The quotient rounded to the nearest integer, a half to the even one. -/
def roundDiv (a b : Nat) : Nat :=
  let q := a / b
  let r := a % b
  if 2 * r < b then q else if b < 2 * r then q + 1 else q + q % 2

/-- The exponent of the greatest power of two that is not above `a / b`. -/
def ratioLog2 (a b : Nat) : Int :=
  let k : Int := (a.log2 : Int) - b.log2
  if b * Nat.pow 2 k.toNat ≤ a * Nat.pow 2 (-k).toNat then k else k - 1

/-- The magnitude of the number nearest to `a / b`: the quotient is rounded in the unit in which the
number has 53 bits, or in the least unit `2 ^ -1074`. A carry moves on to the next unit by itself. -/
def magnitudeOfRatio (a b : Nat) : Nat :=
  if a = 0 then 0
  else
    let unit := max (ratioLog2 a b - 52) (-1074)
    let m := roundDiv (a * Nat.pow 2 (-unit).toNat) (b * Nat.pow 2 unit.toNat)
    min ((unit + 1074).toNat * Nat.pow 2 52 + m) infiniteMagnitude

/-- The magnitude of the number nearest to `digits · 10 ^ exponent`. From `10 ^ 309` on it is infinite
and below `10 ^ -324` it is zero. -/
def magnitudeOfDecimal (digits : Nat) (exponent : Int) : Nat :=
  let count := (Nat.repr digits).length
  if digits = 0 then 0
  else if 310 ≤ count + exponent then infiniteMagnitude
  else if count + exponent ≤ -324 then 0
  else magnitudeOfRatio (digits * Nat.pow 10 exponent.toNat) (Nat.pow 10 (-exponent).toNat)

/-! ## Decimal text -/

def natOfDigits (ds : List Char) : Nat :=
  ds.foldl (fun n c => 10 * n + (c.toNat - '0'.toNat)) 0

/-- Splits an optional sign off a text; the flag is set for a minus. -/
def splitSign : List Char → Bool × List Char
  | '-' :: cs => (true, cs)
  | '+' :: cs => (false, cs)
  | cs => (false, cs)

def splitDigits (cs : List Char) : List Char × List Char :=
  (cs.takeWhile Char.isDigit, cs.dropWhile Char.isDigit)

def splitPoint (cs : List Char) : List Char × List Char × List Char :=
  match splitDigits cs with
  | (whole, '.' :: rest) =>
    let (fraction, rest) := splitDigits rest
    (whole, fraction, rest)
  | (whole, rest) => (whole, [], rest)

/-- The exponent that ends a text: nothing is zero, and otherwise a letter, a sign and digits. -/
def readExponent? (cs : List Char) : Option Int :=
  match cs with
  | [] => some 0
  | c :: cs =>
    if c = 'e' ∨ c = 'E' then
      let (negative, ds) := splitSign cs
      if ds.isEmpty || !ds.all Char.isDigit then none
      else some (if negative then -(natOfDigits ds : Int) else natOfDigits ds)
    else none

/-- The number that a decimal text stands for. There has to be a digit on one side of the point. -/
def ofDecimal? (cs : List Char) : Option Binary64 :=
  let (negative, cs) := splitSign cs
  let (whole, fraction, rest) := splitPoint cs
  if whole.isEmpty && fraction.isEmpty then none
  else
    match readExponent? rest with
    | none => none
    | some e =>
      some (ofMagnitude negative
        (magnitudeOfDecimal (natOfDigits (whole ++ fraction)) (e - fraction.length)))

/-! ## Named numbers -/

/-- The magnitude that a name stands for, in letters of either case. -/
def magnitudeOfName? (name : List Char) : Option Nat :=
  let name := name.map Char.toLower
  if name = "inf".toList ∨ name = "infinity".toList then some infiniteMagnitude
  else if name = "nan".toList then some nan.magnitude
  else none

/-- The number of a text: a decimal, or a name after an optional sign. -/
def ofText? (s : String) : Option Binary64 :=
  match ofDecimal? s.toList with
  | some x => some x
  | none =>
    let (negative, name) := splitSign s.toList
    (magnitudeOfName? name).map (ofMagnitude negative)

end TaggedUnion.Binary64
