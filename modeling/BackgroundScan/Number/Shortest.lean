import BackgroundScan.Number.Nearest

/-!
# The shortest decimal of a double

`Binary64.shortest` finds the decimal with the fewest digits among those that round to a given
double, and of those the nearest. A finite double `m * 2 ^ q` is rounded to from an interval of
reals around it, ends included exactly when `m` is even; for one digit, then two, and so on up to
seventeen, the two neighbours of the double on that decimal grid are tried.

`Decimal.text` lays the digits out. Everything that is a choice of the format is in `Layout`.
-/

namespace BackgroundScan

/-- The number `digits * 10 ^ exponent`. -/
structure Decimal where
  /-- The significant digits, read as one integer. -/
  digits : Nat
  /-- The power of ten that scales them. -/
  exponent : Int
  deriving DecidableEq, Repr, Inhabited

namespace Binary64

/-- The reals that round to a positive double, over a common denominator. -/
structure Interval where
  /-- Four times the denominator of the double itself. -/
  den : Nat
  /-- Numerator of the lower end. -/
  low : Nat
  /-- Numerator of the double. -/
  centre : Nat
  /-- Numerator of the upper end. -/
  high : Nat
  /-- Whether the ends round to the double too. -/
  closed : Bool

/-- The interval of the double with the positive magnitude `magnitude`.

The lower neighbour is half as far away when the significand is the smallest of its exponent. -/
def intervalOfMagnitude (magnitude : Nat) : Interval :=
  let field : Nat := magnitude / exponentBit
  let fraction := magnitude % exponentBit
  let m := if field = 0 then fraction else fraction + exponentBit
  let quarter : Int := (if field = 0 then -1074 else (field : Int) - 1075) - 2
  let scale := if 0 ≤ quarter then 1 <<< quarter.toNat else 1
  { den := if 0 ≤ quarter then 1 else 1 <<< (-quarter).toNat
    low := (if fraction = 0 ∧ 1 < field then 4 * m - 1 else 4 * m - 2) * scale
    centre := 4 * m * scale
    high := (4 * m + 2) * scale
    closed := m % 2 == 0 }

/-- The multiples of `10 ^ k` nearest to the centre from below and above, as numerators over the
denominator of the interval scaled by `gridDen`. -/
def Interval.onGrid (i : Interval) (k : Int) : Option Nat :=
  let up := if 0 ≤ k then Nat.pow 10 k.toNat else 1
  let down := if 0 ≤ k then 1 else Nat.pow 10 (-k).toNat
  let unit := i.den * up
  let centre := i.centre * down
  let inside (c : Nat) : Bool :=
    let x := c * unit
    if i.closed then decide (i.low * down ≤ x) && decide (x ≤ i.high * down)
    else decide (i.low * down < x) && decide (x < i.high * down)
  let below := centre / unit
  match inside below, inside (below + 1) with
  | true, true => some (divEven centre unit)
  | true, false => some below
  | false, true => some (below + 1)
  | false, false => none

/-- The largest `k` with `10 ^ k ≤ num / den`, for positive `num` and `den`. -/
def floorLog10 (num den : Nat) : Int :=
  if den ≤ num then (digitCount (num / den) : Int) - 1
  else -(digitCount ((den - 1) / num) : Int)

/-- The decimal with the fewest digits in an interval whose centre has its first digit at
`10 ^ leading`, trying `more` further digits. -/
def Interval.fewestDigits (i : Interval) (leading : Int) : (more : Nat) → (tried : Nat) → Decimal
  | 0, _ => ⟨0, 0⟩
  | more + 1, tried =>
    match i.onGrid (leading - tried) with
    | some digits => ⟨digits, leading - tried⟩
    | none => i.fewestDigits leading more (tried + 1)

/-- The decimal of the fewest digits that rounds to the magnitude of `x`, for a finite `x`. -/
def shortest (x : Binary64) : Decimal :=
  if x.isZero then ⟨0, 0⟩
  else
    let i := intervalOfMagnitude x.magnitude
    i.fewestDigits (floorLog10 i.centre i.den) 17 0

end Binary64

/-- How the digits of a number are laid out. -/
structure Layout where
  /-- Below this power of ten the first digit is followed by an exponent. -/
  leastPositional : Int
  /-- From this power of ten on the first digit is followed by an exponent. -/
  leastScientific : Int
  /-- The fraction of an integral number written positionally. -/
  integralFraction : String
  /-- The sign of an exponent that is not negative. -/
  exponentSign : String

/-- Numbers from `10 ^ -5` up to `10 ^ 16` are positional and always have a fraction; the others
have one digit before the point, and an exponent with its sign. -/
def Layout.plain : Layout := ⟨-5, 16, ".0", "+"⟩

/-- The text of a positive decimal whose digits do not end in a zero. -/
def Decimal.text (l : Layout) (d : Decimal) : String :=
  let digits := Nat.toDigits 10 d.digits
  let count := digits.length
  let leading := d.exponent + count - 1
  let zeros (k : Int) : List Char := List.replicate k.toNat '0'
  if leading < l.leastPositional ∨ l.leastScientific ≤ leading then
    let fraction := if count ≤ 1 then [] else '.' :: digits.drop 1
    let sign := if leading < 0 then "-" else l.exponentSign
    String.ofList (digits.take 1 ++ fraction) ++ "e" ++ sign ++ toString leading.natAbs
  else if 0 ≤ d.exponent then
    String.ofList (digits ++ zeros d.exponent) ++ l.integralFraction
  else if 0 ≤ leading then
    let whole := (leading + 1).toNat
    String.ofList (digits.take whole ++ '.' :: digits.drop whole)
  else
    String.ofList ('0' :: '.' :: zeros (-leading - 1) ++ digits)

/-- The decimal without the zeros its digits end in; `fuel` bounds their number. -/
def Decimal.trim : (fuel : Nat) → Decimal → Decimal
  | 0, d => d
  | fuel + 1, d =>
    if d.digits ≠ 0 ∧ d.digits % 10 = 0 then trim fuel ⟨d.digits / 10, d.exponent + 1⟩ else d

/-- The shortest text that reads back as the finite double `x`. -/
def Binary64.text (x : Binary64) : String :=
  let d := x.shortest
  let body := if d.digits = 0 then "0" ++ Layout.plain.integralFraction
    else (d.trim 17).text Layout.plain
  if x.isNegative then "-" ++ body else body

end BackgroundScan
