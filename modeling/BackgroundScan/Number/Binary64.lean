/-!
# Double precision numbers

A `Binary64` is the 64-bit pattern of a double: one sign bit, eleven exponent bits and fifty-two
fraction bits. Two comparisons are kept apart: `=` compares patterns, and `sameNumber` compares as
the floating-point standard does, so that the two zeros are the same number and a NaN is not the
same as anything.
-/

namespace BackgroundScan

/-- The 64-bit pattern of a double. -/
structure Binary64 where
  /-- Sign, exponent and fraction, from the highest bit down. -/
  bits : UInt64
  deriving DecidableEq, Repr, Inhabited

namespace Binary64

/-- The weight of the sign bit, one past every magnitude. -/
def signBit : Nat := 0x8000000000000000

/-- The weight of the lowest exponent bit, one past every fraction. -/
def exponentBit : Nat := 0x10000000000000

/-- The pattern without its sign bit. -/
def magnitude (x : Binary64) : Nat := x.bits.toNat % signBit

/-- Whether the sign bit is set. -/
def isNegative (x : Binary64) : Bool := decide (signBit ≤ x.bits.toNat)

/-- The magnitude of the infinities, one past every finite magnitude. -/
def infiniteMagnitude : Nat := 2047 * exponentBit

/-- Neither an infinity nor a NaN. -/
def isFinite (x : Binary64) : Bool := decide (x.magnitude < infiniteMagnitude)

/-- A pattern that stands for no number. -/
def isNaN (x : Binary64) : Bool := decide (infiniteMagnitude < x.magnitude)

/-- One of the two zeros. -/
def isZero (x : Binary64) : Bool := x.magnitude == 0

/-- Equality of the floating-point standard. -/
def sameNumber (x y : Binary64) : Bool :=
  !x.isNaN && !y.isNaN && (x == y || (x.isZero && y.isZero))

/-- The pattern with the given sign and magnitude. -/
def ofMagnitude (negative : Bool) (magnitude : Nat) : Binary64 :=
  ⟨UInt64.ofNat ((if negative then signBit else 0) + magnitude)⟩

theorem isNaN_eq_false_of_isFinite {x : Binary64} (h : x.isFinite = true) : x.isNaN = false := by
  simp only [isFinite, isNaN, decide_eq_true_eq, decide_eq_false_iff_not] at *
  omega

end Binary64

end BackgroundScan
