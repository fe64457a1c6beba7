import BackgroundScan.Number.Binary64

/-!
# The double nearest a decimal

`Binary64.ofDecimal` rounds `digits * 10 ^ exponent` to the nearest double, a tie going to the even
significand. All arithmetic is on naturals, so the result is exact for every length of input; a
value past the largest double becomes an infinity and one below half the smallest becomes a zero.

Main statement: `divEven_mul_self`, an exact quotient is its own rounding.
-/

namespace BackgroundScan.Binary64

/-- The quotient `num / den` rounded to an integer, a half going to the even neighbour. -/
def divEven (num den : Nat) : Nat :=
  let whole := num / den
  let rest := num % den
  if 2 * rest < den || (2 * rest == den && whole % 2 == 0) then whole else whole + 1

theorem divEven_mul_self (q den : Nat) (h : 0 < den) : divEven (q * den) den = q := by
  simp [divEven, Nat.mul_div_cancel _ h, h]

/-- The largest `k` with `2 ^ k ≤ num / den`, for positive `num` and `den`. -/
def floorLog2 (num den : Nat) : Int :=
  let k : Int := (Nat.log2 num : Int) - Nat.log2 den
  let reached := if 0 ≤ k then den <<< k.toNat ≤ num else den ≤ num <<< (-k).toNat
  if reached then k else k - 1

/-- The magnitude of the double nearest `num / den`.

With `2 ^ place` the value of the last bit, the rounded significand is added to the exponent
field, one below the field of a full significand: the hidden bit then completes the field, and a
significand that rounds up to the next power of two carries into it. -/
def magnitudeOfRatio (num den : Nat) : Nat :=
  if num = 0 then 0
  else
    let place : Int := max (-1074) (floorLog2 num den - 52)
    let significand :=
      if 0 ≤ place then divEven num (den <<< place.toNat)
      else divEven (num <<< (-place).toNat) den
    min ((place + 1074).toNat * exponentBit + significand) infiniteMagnitude

/-- The number of decimal digits of `n`. -/
def digitCount (n : Nat) : Nat := (Nat.toDigits 10 n).length

/-- The double nearest `digits * 10 ^ exponent`, with the given sign.

A value of at least `10 ^ 309` is past every double and one below `10 ^ -324` is nearer to zero
than to the smallest, so neither needs its power of ten. -/
def ofDecimal (negative : Bool) (digits : Nat) (exponent : Int) : Binary64 :=
  let leading := exponent + digitCount digits
  ofMagnitude negative <|
    if digits = 0 ∨ leading < -324 then 0
    else if 310 < leading then infiniteMagnitude
    else if 0 ≤ exponent then magnitudeOfRatio (digits * Nat.pow 10 exponent.toNat) 1
    else magnitudeOfRatio digits (Nat.pow 10 (-exponent).toNat)

end BackgroundScan.Binary64
