import BackgroundScan.Number.Scaled

/-!
# Numbers that are doubles

A number that a double stands for is rounded to this double. A significand that is scaled by no
power of ten is therefore rounded only once, and comes out as the double nearest to it.

1. `floorLog2_shiftLeft`, `divEven_mul_self`: where a significand is rounded, and that a number
   with no more bits than a significand is not changed there.
2. `magnitudeOfRatio_unitsOfMagnitude`: what a magnitude stands for is rounded to this magnitude.
3. `scaled_zero`: without a power of ten, a scaled significand is the nearest double.
-/

namespace BackgroundScan.Binary64

/-! ## 1. The place of a significand -/

theorem shiftLeft_le_shiftLeft {a b : Nat} (h : a ≤ b) (k : Nat) : a <<< k ≤ b <<< k := by
  rw [Nat.shiftLeft_eq, Nat.shiftLeft_eq]
  exact Nat.mul_le_mul_right _ h

theorem mul_one_shiftLeft (a k : Nat) : a * 1 <<< k = a <<< k := by
  rw [Nat.one_shiftLeft, ← Nat.shiftLeft_eq]

theorem log2_shiftLeft {m : Nat} (h : 0 < m) (i : Nat) : (m <<< i).log2 = m.log2 + i := by
  obtain ⟨hle, hlt⟩ := (Nat.log2_eq_iff (Nat.ne_of_gt h)).mp rfl
  have hpos := Nat.two_pow_pos i
  have hne := Nat.ne_of_gt (Nat.mul_pos h hpos)
  rw [Nat.shiftLeft_eq, Nat.log2_eq_iff hne, Nat.add_right_comm, Nat.pow_add, Nat.pow_add]
  exact ⟨Nat.mul_le_mul_right _ hle, Nat.mul_lt_mul_of_pos_right hlt hpos⟩

/-- The logarithm of a ratio with a power of two as its denominator. -/
theorem floorLog2_shiftLeft {m : Nat} (h : 0 < m) (i j : Nat) :
    floorLog2 (m <<< i) (1 <<< j) = (m.log2 : Int) + i - j := by
  have hone : (1 <<< j).log2 = j := (log2_shiftLeft Nat.one_pos j).trans (Nat.zero_add j)
  have hm := Nat.log2_self_le (Nat.ne_of_gt h)
  rw [← Nat.one_shiftLeft] at hm
  unfold floorLog2
  rw [log2_shiftLeft h, hone]
  dsimp only
  split
  · next hplace =>
    have hsum : j + (((m.log2 + i : Nat) : Int) - j).toNat = m.log2 + i := by omega
    rw [← Nat.shiftLeft_add, hsum, Nat.shiftLeft_add, if_pos (shiftLeft_le_shiftLeft hm i)]
    omega
  · next hplace =>
    have hsum : i + (-(((m.log2 + i : Nat) : Int) - j)).toNat = j - m.log2 := by omega
    have hreached := shiftLeft_le_shiftLeft hm (j - m.log2)
    rw [← Nat.shiftLeft_add, show m.log2 + (j - m.log2) = j by omega] at hreached
    rw [← Nat.shiftLeft_add, hsum, if_pos hreached]
    omega

/-! ## 2. Doubles that are rounded -/

/-- A ratio with no more bits than a significand has, on a place that a significand can have. -/
theorem magnitudeOfRatio_shiftLeft {m i j : Nat} (hpos : 0 < m) (hlt : m < 2 * exponentBit)
    (hplace : j ≤ i + 1074) (hfull : m < exponentBit → j = i + 1074) :
    magnitudeOfRatio (m <<< i) (1 <<< j) =
      min ((i + 1074 - j) * exponentBit + m) infiniteMagnitude := by
  have hlog : m.log2 < 53 := (Nat.log2_lt (Nat.ne_of_gt hpos)).mpr hlt
  have hfullLog : ¬ m < exponentBit → 52 ≤ m.log2 := fun h =>
    (Nat.le_log2 (Nat.ne_of_gt hpos)).mpr (Nat.le_of_not_lt h)
  have hat : max (-1074) ((m.log2 : Int) + i - j - 52) = (i : Int) - j := by
    by_cases hsmall : m < exponentBit
    · have hj := hfull hsmall
      omega
    · have hm := hfullLog hsmall
      omega
  have hne : m <<< i ≠ 0 := fun h => Nat.ne_of_gt hpos (Nat.shiftLeft_eq_zero_iff.mp h)
  have hsum : ((i : Int) - j + 1074).toNat = i + 1074 - j := by omega
  unfold magnitudeOfRatio
  rw [if_neg hne, floorLog2_shiftLeft hpos, hat]
  dsimp only
  rw [hsum]
  split
  · next hnonneg =>
    rw [← Nat.shiftLeft_add, show j + ((i : Int) - j).toNat = i by omega, Nat.shiftLeft_eq m,
      Nat.one_shiftLeft, divEven_mul_self _ _ (Nat.two_pow_pos i)]
  · next hneg =>
    rw [← Nat.shiftLeft_add, show i + (-((i : Int) - j)).toNat = j by omega, Nat.shiftLeft_eq m,
      Nat.one_shiftLeft, divEven_mul_self _ _ (Nat.two_pow_pos j)]

/-- The number that a magnitude stands for, in whatever units, is rounded to this magnitude. -/
theorem magnitudeOfRatio_unitsOfMagnitude {a : Nat} (h : a ≤ infiniteMagnitude) (i : Nat) :
    magnitudeOfRatio (unitsOfMagnitude a <<< i) (1 <<< (i + 1074)) = a := by
  have hparts : exponentBit * (a / exponentBit) + a % exponentBit = a :=
    Nat.div_add_mod a exponentBit
  have hfraction : a % exponentBit < exponentBit := Nat.mod_lt a (by decide)
  unfold unitsOfMagnitude
  cases hfield : a / exponentBit with
  | zero =>
    rw [hfield, Nat.mul_zero, Nat.zero_add] at hparts
    dsimp only
    rw [if_pos rfl, hparts]
    rw [hparts] at hfraction
    rcases Nat.eq_zero_or_pos a with rfl | hpos
    · rw [Nat.zero_shiftLeft]
      rfl
    · rw [magnitudeOfRatio_shiftLeft hpos (by omega) (Nat.le_refl _) fun _ => rfl]
      rw [Nat.sub_self, Nat.zero_mul, Nat.zero_add]
      exact Nat.min_eq_left h
  | succ field =>
    have hpos : 0 < exponentBit := by decide
    rw [hfield, Nat.mul_succ, Nat.mul_comm] at hparts
    show magnitudeOfRatio (((exponentBit + a % exponentBit) <<< field) <<< i) _ = a
    rw [← Nat.shiftLeft_add]
    rw [magnitudeOfRatio_shiftLeft (by omega) (by omega) (by omega) (by omega)]
    rw [show field + i + 1074 - (i + 1074) = field by omega, ← Nat.add_assoc, hparts]
    exact Nat.min_eq_left h

theorem magnitudeOfRatio_le (num den : Nat) : magnitudeOfRatio num den ≤ infiniteMagnitude := by
  unfold magnitudeOfRatio
  split
  · exact Nat.zero_le _
  · exact Nat.min_le_right _ _

/-! ## 3. Products with one -/

/-- One is not rounded. -/
theorem unitsOfMagnitude_powerOfTen_zero : unitsOfMagnitude (powerOfTen 0) = 1 <<< 1074 := by
  decide +kernel

theorem product_one {a : Nat} (h : a ≤ infiniteMagnitude) : product a (powerOfTen 0) = a := by
  have hunits : unitsOfMagnitude a * 1 <<< 1074 = unitsOfMagnitude a <<< 1074 :=
    mul_one_shiftLeft _ _
  have hden : (1 : Nat) <<< 2148 = 1 <<< (1074 + 1074) := rfl
  rw [product, unitsOfMagnitude_powerOfTen_zero, hunits, hden]
  exact magnitudeOfRatio_unitsOfMagnitude h 1074

/-- A significand that is scaled by no power of ten is rounded once. -/
theorem scaled_zero (negative : Bool) {significand : Nat} (h : digitCount significand ≤ 310) :
    scaled negative significand 0 = ofDecimal negative significand 0 := by
  have hscaled : scaledMagnitude significand 0 = magnitudeOfRatio significand 1 := by
    unfold scaledMagnitude
    rw [if_pos (Int.le_refl 0), if_pos (by decide), Int.toNat_zero]
    exact product_one (magnitudeOfRatio_le significand 1)
  unfold scaled ofDecimal
  rw [hscaled]
  dsimp only
  by_cases hzero : significand = 0
  · rw [hzero, if_pos (.inl rfl)]
    rfl
  · rw [if_neg (by omega), if_neg (by omega), if_pos (by decide)]
    rw [Int.toNat_zero, show Nat.pow 10 0 = 1 from rfl, Nat.mul_one]

end BackgroundScan.Binary64
