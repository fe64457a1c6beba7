import BackgroundScan.Number.Nearest

/-!
# Significands scaled by powers of ten

`Binary64.scaled` takes a significand to the nearest double, and multiplies or divides this by the
double nearest to a power of ten. Each of these steps rounds, so that what comes out need not be
the double nearest to the decimal. Where no double is near enough to a power, a significand is
divided in several steps, and a product past the largest double is an infinity.
-/

namespace BackgroundScan.Binary64

/-- The number that a magnitude stands for, in units of the smallest positive double. A field of
zero has the exponent of the field one; infinity counts as the number after the largest. -/
def unitsOfMagnitude (magnitude : Nat) : Nat :=
  let field := magnitude / exponentBit
  let fraction := magnitude % exponentBit
  if field = 0 then fraction else (exponentBit + fraction) <<< (field - 1)

/-- The magnitude of the product of two finite magnitudes, rounded once. -/
def product (a b : Nat) : Nat :=
  magnitudeOfRatio (unitsOfMagnitude a * unitsOfMagnitude b) (1 <<< 2148)

/-- The magnitude of the quotient of two finite magnitudes, of which the second is not zero, rounded
once. -/
def quotient (a b : Nat) : Nat := magnitudeOfRatio (unitsOfMagnitude a) (unitsOfMagnitude b)

/-- The largest power of ten that a significand is scaled by in one step. -/
def largestPower : Nat := 308

/-- The magnitude of the double nearest to a power of ten. -/
def powerOfTen (k : Nat) : Nat := magnitudeOfRatio (Nat.pow 10 k) 1

/-- A magnitude that is divided several times by the largest power of ten. -/
def quotients (magnitude : Nat) : (times : Nat) → Nat
  | 0 => magnitude
  | times + 1 =>
    if magnitude = 0 then 0 else quotients (quotient magnitude (powerOfTen largestPower)) times

/-- The magnitude of `significand * 10 ^ exponent`, rounded at each step. -/
def scaledMagnitude (significand : Nat) (exponent : Int) : Nat :=
  let magnitude := magnitudeOfRatio significand 1
  if 0 ≤ exponent then
    if exponent ≤ largestPower then product magnitude (powerOfTen exponent.toNat)
    else if magnitude = 0 then 0
    else infiniteMagnitude
  else
    let places := (-exponent).toNat
    -- as many steps as leave a power that can be divided by
    let times := (places - 1) / largestPower
    quotient (quotients magnitude times) (powerOfTen (places - largestPower * times))

/-- The double that `significand * 10 ^ exponent` is taken for, with the given sign. -/
def scaled (negative : Bool) (significand : Nat) (exponent : Int) : Binary64 :=
  ofMagnitude negative (scaledMagnitude significand exponent)

end BackgroundScan.Binary64
