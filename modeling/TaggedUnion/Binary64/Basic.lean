/-
Binary floating-point numbers of 64 bits (IEEE 754 binary64) as their bit patterns: a sign, an
exponent field and a fraction field. They are only compared, written and read here, so there is no
arithmetic on them; their values are the exact numbers `± m · 2 ^ q`.
-/
namespace TaggedUnion

structure Binary64 where
  bits : UInt64
deriving DecidableEq

namespace Binary64

/-- The bit pattern without the sign bit: it grows with the magnitude. -/
def magnitude (x : Binary64) : Nat := x.bits.toNat % Nat.pow 2 63

/-- Whether the sign bit is set; zeros and NaNs have signs too. -/
def isNegative (x : Binary64) : Bool := Nat.pow 2 63 ≤ x.bits.toNat

/-- The magnitude of infinity; every larger one is a NaN. -/
def infiniteMagnitude : Nat := 2047 * Nat.pow 2 52

def isNaN (x : Binary64) : Bool := infiniteMagnitude < x.magnitude

def isInfinite (x : Binary64) : Bool := x.magnitude == infiniteMagnitude

def isZero (x : Binary64) : Bool := x.magnitude == 0

def ofMagnitude (negative : Bool) (magnitude : Nat) : Binary64 :=
  ⟨UInt64.ofNat (if negative then Nat.pow 2 63 + magnitude else magnitude)⟩

def nan : Binary64 := ⟨0x7ff8000000000000⟩

def infinity (negative : Bool) : Binary64 := ofMagnitude negative infiniteMagnitude

/-- The integer `m` of the value `m · 2 ^ q` of a finite number. -/
def significand (x : Binary64) : Nat :=
  if x.magnitude < Nat.pow 2 52 then x.magnitude else Nat.pow 2 52 + x.magnitude % Nat.pow 2 52

/-- The exponent `q` of the value `m · 2 ^ q` of a finite number. -/
def exponent (x : Binary64) : Int :=
  if x.magnitude < Nat.pow 2 52 then -1074 else (x.magnitude / Nat.pow 2 52 : Nat) - 1075

/-- Equality of values: a NaN differs from every number, and the two zeros are equal. -/
protected def beq (x y : Binary64) : Bool :=
  !x.isNaN && !y.isNaN && (x.bits == y.bits || (x.isZero && y.isZero))

instance : BEq Binary64 := ⟨Binary64.beq⟩

end Binary64

end TaggedUnion
