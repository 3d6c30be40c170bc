/-
The decimal text of a binary64 number. The digits are the fewest that read back to the number and,
of those, the nearest to it: all numbers of the interval that rounds to the number are known exactly,
so the grids of the multiples of `10 ^ k` are tried from the coarsest on, and the first grid with a
point in the interval gives the digits. All comparisons are exact, in `Nat`.
-/
import TaggedUnion.Binary64.Basic

namespace TaggedUnion.Binary64

/-! ## The shortest decimal -/

structure Decimal where
  digits : Nat
  exponent : Int
deriving DecidableEq

/-- The numbers that round to one binary64 number: those from `low` to `high` around `value`, all
three in the unit `2 ^ unit`, the ends themselves only if `closed`. -/
structure Interval where
  low : Nat
  value : Nat
  high : Nat
  unit : Int
  closed : Bool
deriving DecidableEq

/-- The interval of a finite number `m · 2 ^ q`, in quarters of `2 ^ q`. It reaches half way to the
neighbours; the lower neighbour of a power of two is only half as far away as the upper one. The ends
belong to the number with the even significand. -/
def interval (x : Binary64) : Interval :=
  let m := x.significand
  let narrow := m == Nat.pow 2 52 && x.exponent != -1074
  { low := if narrow then 4 * m - 1 else 4 * m - 2
    value := 4 * m
    high := 4 * m + 2
    unit := x.exponent - 2
    closed := m % 2 == 0 }

/-- Brings `a · 2 ^ unit` and the multiples of `10 ^ k` to one denominator: `a` times the first
number and `d` times the second compare as `a · 2 ^ unit` and `d · 10 ^ k`. -/
def commonUnit (unit k : Int) : Nat × Nat :=
  (Nat.pow 2 unit.toNat * Nat.pow 10 (-k).toNat, Nat.pow 2 (-unit).toNat * Nat.pow 10 k.toNat)

def Interval.holds (i : Interval) (k : Int) (d : Nat) : Bool :=
  let (a, b) := commonUnit i.unit k
  if i.closed then i.low * a ≤ d * b && d * b ≤ i.high * a
  else i.low * a < d * b && d * b < i.high * a

def Interval.floor (i : Interval) (k : Int) : Nat :=
  let (a, b) := commonUnit i.unit k
  i.value * a / b

/-- Whether `(d + 1) · 10 ^ k` is at least as near to the value as `d · 10 ^ k`, for the greatest
`d` below it. -/
def Interval.isNearerAbove (i : Interval) (k : Int) : Bool :=
  let (a, b) := commonUnit i.unit k
  b ≤ 2 * (i.value * a % b)

/-- The point of the grid of `10 ^ k` in the interval that is nearest to the value, the upper one if
two are equally near. -/
def Interval.nearest? (i : Interval) (k : Int) : Option Nat :=
  let d := i.floor k
  match i.holds k d, i.holds k (d + 1) with
  | true, true => some (if i.isNearerAbove k then d + 1 else d)
  | true, false => some d
  | false, true => some (d + 1)
  | false, false => none

/-- The exponent below the finest grid that is needed: every interval has a point on the next one. -/
def gridFloor : Int := -326

/-- The number of grids above `gridFloor`: the greatest number is below `10 ^ 309`. -/
def gridCount : Nat := 636

def Interval.firstOf (i : Interval) : Nat → Decimal
  | 0 => ⟨i.floor gridFloor, gridFloor⟩
  | n + 1 =>
    let k := gridFloor + (n + 1 : Nat)
    match i.nearest? k with
    | some d => ⟨d, k⟩
    | none => i.firstOf n

/-- The decimal of the fewest digits that reads back to a finite number, and the nearest of those. -/
def shortest (x : Binary64) : Decimal :=
  if x.isZero then ⟨0, 0⟩ else x.interval.firstOf gridCount

/-! ## Layout -/

def Decimal.order (d : Decimal) : Int :=
  d.exponent + ((Nat.repr d.digits).length - 1 : Nat)

def Decimal.split (d : Decimal) : List Char × List Char :=
  let ds := (Nat.repr d.digits).toList
  if 0 ≤ d.exponent then (ds ++ List.replicate d.exponent.toNat '0', [])
  else
    let places := (-d.exponent).toNat
    (ds.take (ds.length - places), List.replicate (places - ds.length) '0' ++ ds.drop (ds.length - places))

/-- The decimal written out in full, without an exponent: the whole part `0` if there is none, and
`noFraction` in place of a missing fraction. -/
def Decimal.positional (d : Decimal) (noFraction : String) : String :=
  let (whole, fraction) := d.split
  (if whole.isEmpty then "0" else String.ofList whole) ++
    (if fraction.isEmpty then noFraction else "." ++ String.ofList fraction)

/-- The decimal with one digit in front of the point and an exponent, as in `1.5e-7` and `1e16`. -/
def Decimal.scientific (d : Decimal) : String :=
  let ds := (Nat.repr d.digits).toList
  String.ofList (ds.take 1) ++ (if ds.length ≤ 1 then "" else "." ++ String.ofList (ds.drop 1)) ++
    "e" ++ toString d.order

/-- A number with the layout of its magnitude: the sign in front, zeros included, and words for what
is not finite. -/
def textWith (layout : Decimal → String) (x : Binary64) : String :=
  if x.isNaN then "NaN"
  else (if x.isNegative then "-" else "") ++ (if x.isInfinite then "inf" else layout x.shortest)

/-- The plain text of a number: never an exponent, and no point without a fraction. -/
def display (x : Binary64) : String :=
  x.textWith fun d => d.positional ""

/-- The text of a number that shows its type: there is always a fraction or an exponent, the latter
below `10 ^ -4` and from `10 ^ 16` on. -/
def debug (x : Binary64) : String :=
  x.textWith fun d =>
    if d.digits != 0 && (d.order < -4 || 16 ≤ d.order) then d.scientific else d.positional ".0"

end TaggedUnion.Binary64
