import BackgroundScan.Job.Holding
import BackgroundScan.Proofs.DoubleRounding
import BackgroundScan.Proofs.LedgerCounts
import BackgroundScan.Proofs.Lossless

/-!
# Equality of arguments

Argument lists are compared by their values. That would not be an equality of lists if a NaN could
be in one, but what was converted holds none. What is left to say is which lists are equal: those
of the same shape with the same scalars, where the two zeros are one number.

1. `Binary64.units`: the number that a pattern stands for. `sameNumber_iff_units`: doubles are
   compared by their numbers. `units_eq_iff`: only the zeros have one number in common.
2. `Value.Alike`: values of the same shape with the same scalars. `sameItems_iff_alike`: lists are
   compared so.
3. `Value.NaNFree`: no NaN is in a value. `sameAs_self_iff`: such values, and no others, are equal
   to themselves. `nanFree_of_convertArguments`: what was converted is such a value.
-/

namespace BackgroundScan

/-! ## 1. Doubles as numbers -/

namespace Binary64

/-- The number that a pattern stands for, in units of the smallest positive double. -/
def units (x : Binary64) : Int :=
  if x.isNegative then -(unitsOfMagnitude x.magnitude : Int) else unitsOfMagnitude x.magnitude

/-- Whether a pattern is the positive or the negative zero. -/
def IsZero (x : Binary64) : Prop := x.bits = 0 ∨ x.bits = 0x8000000000000000

end Binary64

namespace EqualityLemmas

open Binary64

theorem shiftLeft_lt {a b : Nat} (h : a < b) (k : Nat) : a <<< k < b <<< k := by
  rw [Nat.shiftLeft_eq, Nat.shiftLeft_eq]
  exact Nat.mul_lt_mul_of_pos_right h (Nat.two_pow_pos k)

theorem shiftLeft_le {j k : Nat} (h : j ≤ k) (a : Nat) : a <<< j ≤ a <<< k := by
  rw [Nat.shiftLeft_eq, Nat.shiftLeft_eq]
  exact Nat.mul_le_mul_left a (Nat.pow_le_pow_right Nat.two_pos h)

/-- A number is less than the first of the next field. -/
theorem unitsOfMagnitude_lt_field (m : Nat) :
    unitsOfMagnitude m < exponentBit <<< (m / exponentBit) := by
  have hfraction : m % exponentBit < exponentBit := Nat.mod_lt m (by decide)
  unfold unitsOfMagnitude
  cases m / exponentBit with
  | zero => exact hfraction
  | succ field =>
    have hdouble : exponentBit <<< (field + 1) = (exponentBit + exponentBit) <<< field := by
      rw [Nat.shiftLeft_eq, Nat.shiftLeft_eq, Nat.pow_succ, ← Nat.two_mul, Nat.mul_comm 2,
        Nat.mul_assoc, Nat.mul_comm 2]
    show (exponentBit + m % exponentBit) <<< field < _
    rw [hdouble]
    exact shiftLeft_lt (Nat.add_lt_add_left hfraction _) field

/-- A number is at least the first of its field. -/
theorem field_le_unitsOfMagnitude {m field : Nat} (h : m / exponentBit = field + 1) :
    exponentBit <<< field ≤ unitsOfMagnitude m := by
  unfold unitsOfMagnitude
  rw [h]
  exact shiftLeft_le_shiftLeft (Nat.le_add_right _ _) field

/-- A larger magnitude stands for a larger number. -/
theorem unitsOfMagnitude_lt {a b : Nat} (h : a < b) : unitsOfMagnitude a < unitsOfMagnitude b := by
  rcases Nat.lt_or_eq_of_le (Nat.div_le_div_right (c := exponentBit) (Nat.le_of_lt h)) with
    hfield | hfield
  · obtain ⟨field, hb⟩ := Nat.exists_eq_succ_of_ne_zero (Nat.ne_zero_of_lt hfield)
    calc unitsOfMagnitude a
      _ < exponentBit <<< (a / exponentBit) := unitsOfMagnitude_lt_field a
      _ ≤ exponentBit <<< field := shiftLeft_le (by omega) _
      _ ≤ unitsOfMagnitude b := field_le_unitsOfMagnitude hb
  · have ha := Nat.div_add_mod a exponentBit
    have hb := Nat.div_add_mod b exponentBit
    rw [hfield] at ha
    have hfraction : a % exponentBit < b % exponentBit := by omega
    unfold unitsOfMagnitude
    rw [hfield]
    dsimp only
    split
    · exact hfraction
    · exact shiftLeft_lt (Nat.add_lt_add_left hfraction _) _

theorem unitsOfMagnitude_inj {a b : Nat} (h : unitsOfMagnitude a = unitsOfMagnitude b) :
    a = b := by
  rcases Nat.lt_trichotomy a b with hlt | heq | hlt
  · exact absurd h (Nat.ne_of_lt (unitsOfMagnitude_lt hlt))
  · exact heq
  · exact absurd h.symm (Nat.ne_of_lt (unitsOfMagnitude_lt hlt))

theorem eq_zero_of_unitsOfMagnitude {m : Nat} (h : unitsOfMagnitude m = 0) : m = 0 :=
  unitsOfMagnitude_inj (h.trans rfl)

/-- A pattern is its magnitude, and the sign bit if it is negative. -/
theorem toNat_bits (x : Binary64) :
    x.bits.toNat = x.magnitude + if x.isNegative then signBit else 0 := by
  have hlt : x.bits.toNat < 0x10000000000000000 := x.bits.toNat_lt
  unfold magnitude isNegative signBit
  by_cases hsign : 0x8000000000000000 ≤ x.bits.toNat
  · rw [decide_eq_true hsign, if_pos rfl]
    omega
  · rw [decide_eq_false hsign, if_neg Bool.false_ne_true]
    omega

theorem eq_of_magnitude {x y : Binary64} (hsign : x.isNegative = y.isNegative)
    (h : x.magnitude = y.magnitude) : x = y := by
  have hbits : x.bits.toNat = y.bits.toNat := by rw [toNat_bits, toNat_bits, hsign, h]
  exact congrArg Binary64.mk (UInt64.toNat_inj.mp hbits)

theorem isZero_iff (x : Binary64) : x.isZero = true ↔ x.IsZero := by
  have hlt : x.bits.toNat < 0x10000000000000000 := x.bits.toNat_lt
  rw [Binary64.IsZero, ← UInt64.toNat_inj, ← UInt64.toNat_inj, Binary64.isZero, beq_iff_eq,
    magnitude]
  show _ ↔ x.bits.toNat = 0 ∨ x.bits.toNat = 0x8000000000000000
  simp only [signBit]
  omega

end EqualityLemmas

open EqualityLemmas

namespace Binary64

/-- Only the two zeros have one number in common. -/
theorem units_eq_iff (x y : Binary64) : x.units = y.units ↔ x = y ∨ (x.IsZero ∧ y.IsZero) := by
  rw [← isZero_iff, ← isZero_iff, isZero, isZero, beq_iff_eq, beq_iff_eq]
  constructor
  · intro h
    unfold units at h
    by_cases hsign : x.isNegative = y.isNegative
    · rw [hsign] at h
      have hunits : unitsOfMagnitude x.magnitude = unitsOfMagnitude y.magnitude := by
        split at h <;> omega
      exact .inl (eq_of_magnitude hsign (unitsOfMagnitude_inj hunits))
    · -- one number is at most zero and the other at least
      have hunits : unitsOfMagnitude x.magnitude = 0 ∧ unitsOfMagnitude y.magnitude = 0 := by
        revert h hsign
        cases x.isNegative <;> cases y.isNegative <;> intro h hsign
        · exact absurd rfl hsign
        · simp only [Bool.false_eq_true, ↓reduceIte] at h
          omega
        · simp only [Bool.false_eq_true, ↓reduceIte] at h
          omega
        · exact absurd rfl hsign
      exact .inr ⟨eq_zero_of_unitsOfMagnitude hunits.1, eq_zero_of_unitsOfMagnitude hunits.2⟩
  · rintro (rfl | ⟨hx, hy⟩)
    · rfl
    · have hzero : unitsOfMagnitude 0 = 0 := rfl
      rw [units, units, hx, hy, hzero]
      cases x.isNegative <;> cases y.isNegative <;> rfl

/-- Doubles are compared by their numbers, and a NaN is none. -/
theorem sameNumber_iff_units (x y : Binary64) :
    x.sameNumber y = true ↔ x.isNaN = false ∧ y.isNaN = false ∧ x.units = y.units := by
  rw [units_eq_iff, ← isZero_iff, ← isZero_iff]
  simp only [sameNumber, Bool.and_eq_true, Bool.not_eq_true', Bool.or_eq_true,
    beq_iff_eq, and_assoc]

end Binary64

/-! ## 2. Values of one shape -/

mutual

/-- Values of the same shape with the same scalars, where doubles are the same as numbers. -/
inductive Value.Alike : Value → Value → Prop
  | nil : Value.Alike .nil .nil
  | bool (b : Bool) : Value.Alike (.bool b) (.bool b)
  | integer (n : Int64) : Value.Alike (.integer n) (.integer n)
  | float {x y : Binary64} (hx : x.isNaN = false) (hy : y.isNaN = false) (h : x.units = y.units) :
    Value.Alike (.float x) (.float y)
  | string (s : String) : Value.Alike (.string s) (.string s)
  | list {as bs : List Value} (h : Value.AlikeItems as bs) : Value.Alike (.list as) (.list bs)
  | map {as bs : List (String × Value)} (h : Value.AlikeEntries as bs) :
    Value.Alike (.map as) (.map bs)

/-- Lists of as many values, each like the one in its place. -/
inductive Value.AlikeItems : List Value → List Value → Prop
  | nil : Value.AlikeItems [] []
  | cons {a b : Value} {as bs : List Value} (h : Value.Alike a b) (hrest : Value.AlikeItems as bs) :
    Value.AlikeItems (a :: as) (b :: bs)

/-- Lists of as many entries, each with the key of the one in its place and a value like its. -/
inductive Value.AlikeEntries : List (String × Value) → List (String × Value) → Prop
  | nil : Value.AlikeEntries [] []
  | cons (key : String) {a b : Value} {as bs : List (String × Value)} (h : Value.Alike a b)
    (hrest : Value.AlikeEntries as bs) : Value.AlikeEntries ((key, a) :: as) ((key, b) :: bs)

end

mutual

theorem alike_of_sameAs {v w : Value} (h : v.sameAs w = true) : v.Alike w := by
  cases v <;> cases w
  case nil.nil => exact .nil
  case bool.bool b b' =>
    obtain rfl : b = b' := eq_of_beq h
    exact .bool b
  case integer.integer n n' =>
    obtain rfl : n = n' := eq_of_beq h
    exact .integer n
  case float.float x y =>
    obtain ⟨hx, hy, hunits⟩ := (x.sameNumber_iff_units y).mp h
    exact .float hx hy hunits
  case string.string s s' =>
    obtain rfl : s = s' := eq_of_beq h
    exact .string s
  case list.list as bs => exact .list (alikeItems_of_sameItems h)
  case map.map as bs => exact .map (alikeEntries_of_sameEntries h)
  all_goals exact absurd h Bool.false_ne_true

theorem alikeItems_of_sameItems {as bs : List Value} (h : Value.sameItems as bs = true) :
    Value.AlikeItems as bs := by
  match as, bs with
  | [], [] => exact .nil
  | [], _ :: _ | _ :: _, [] => exact absurd h Bool.false_ne_true
  | a :: as, b :: bs =>
    rw [Value.sameItems, Bool.and_eq_true] at h
    exact .cons (alike_of_sameAs h.1) (alikeItems_of_sameItems h.2)

theorem alikeEntries_of_sameEntries {as bs : List (String × Value)}
    (h : Value.sameEntries as bs = true) : Value.AlikeEntries as bs := by
  match as, bs with
  | [], [] => exact .nil
  | [], _ :: _ | _ :: _, [] => exact absurd h Bool.false_ne_true
  | (key, a) :: as, (key', b) :: bs =>
    rw [Value.sameEntries, Bool.and_eq_true, Bool.and_eq_true] at h
    obtain rfl : key = key' := eq_of_beq h.1.1
    exact .cons key (alike_of_sameAs h.1.2) (alikeEntries_of_sameEntries h.2)

end

mutual

theorem sameAs_of_alike {v w : Value} (h : v.Alike w) : v.sameAs w = true := by
  cases h with
  | nil => rfl
  | bool b => exact beq_self_eq_true b
  | integer n => exact beq_self_eq_true n
  | float hx hy hunits => exact (Binary64.sameNumber_iff_units _ _).mpr ⟨hx, hy, hunits⟩
  | string s => exact beq_self_eq_true s
  | list hitems => exact sameItems_of_alikeItems hitems
  | map hentries => exact sameEntries_of_alikeEntries hentries

theorem sameItems_of_alikeItems {as bs : List Value} (h : Value.AlikeItems as bs) :
    Value.sameItems as bs = true := by
  cases h with
  | nil => rfl
  | cons hfirst hrest =>
    rw [Value.sameItems, sameAs_of_alike hfirst, sameItems_of_alikeItems hrest]
    rfl

theorem sameEntries_of_alikeEntries {as bs : List (String × Value)}
    (h : Value.AlikeEntries as bs) : Value.sameEntries as bs = true := by
  cases h with
  | nil => rfl
  | cons key hfirst hrest =>
    rw [Value.sameEntries, sameAs_of_alike hfirst, sameEntries_of_alikeEntries hrest,
      beq_self_eq_true]
    rfl

end

/-- Lists are compared by their values. -/
theorem sameItems_iff_alike {as bs : List Value} :
    Value.sameItems as bs = true ↔ Value.AlikeItems as bs :=
  ⟨alikeItems_of_sameItems, sameItems_of_alikeItems⟩

/-! ## 3. An equality of values without a NaN -/

/-- Whether no NaN is in a value. -/
def Value.NaNFree (v : Value) : Prop := ∀ x, .float x ∈ v.parts → x.isNaN = false

mutual

/-- Alike values are alike in both directions. -/
theorem Value.Alike.symm {v w : Value} (h : v.Alike w) : w.Alike v := by
  cases h with
  | nil => exact .nil
  | bool b => exact .bool b
  | integer n => exact .integer n
  | float hx hy hunits => exact .float hy hx hunits.symm
  | string s => exact .string s
  | list hitems => exact .list hitems.symm
  | map hentries => exact .map hentries.symm

theorem Value.AlikeItems.symm {as bs : List Value} (h : Value.AlikeItems as bs) :
    Value.AlikeItems bs as := by
  cases h with
  | nil => exact .nil
  | cons hfirst hrest => exact .cons hfirst.symm hrest.symm

theorem Value.AlikeEntries.symm {as bs : List (String × Value)}
    (h : Value.AlikeEntries as bs) : Value.AlikeEntries bs as := by
  cases h with
  | nil => exact .nil
  | cons key hfirst hrest => exact .cons key hfirst.symm hrest.symm

end

mutual

/-- What is like the same value is alike. -/
theorem Value.Alike.trans {u v w : Value} (h : u.Alike v) (h' : v.Alike w) : u.Alike w := by
  cases h with
  | nil | bool b | integer n | string s => exact h'
  | float hx _ hunits =>
    cases h' with
    | float _ hz hunits' => exact .float hx hz (hunits.trans hunits')
  | list hitems =>
    cases h' with
    | list hitems' => exact .list (hitems.trans hitems')
  | map hentries =>
    cases h' with
    | map hentries' => exact .map (hentries.trans hentries')

theorem Value.AlikeItems.trans {as bs cs : List Value} (h : Value.AlikeItems as bs)
    (h' : Value.AlikeItems bs cs) : Value.AlikeItems as cs := by
  cases h with
  | nil => exact h'
  | cons hfirst hrest =>
    cases h' with
    | cons hfirst' hrest' => exact .cons (hfirst.trans hfirst') (hrest.trans hrest')

theorem Value.AlikeEntries.trans {as bs cs : List (String × Value)}
    (h : Value.AlikeEntries as bs) (h' : Value.AlikeEntries bs cs) :
    Value.AlikeEntries as cs := by
  cases h with
  | nil => exact h'
  | cons key hfirst hrest =>
    cases h' with
    | cons _ hfirst' hrest' => exact .cons key (hfirst.trans hfirst') (hrest.trans hrest')

end

mutual

/-- A value is like itself if no NaN is in it. -/
theorem alike_self_of_nanFree {v : Value} (h : v.NaNFree) : v.Alike v := by
  cases v with
  | nil => exact .nil
  | bool b => exact .bool b
  | integer n => exact .integer n
  | float x =>
    have hx := h x (List.mem_singleton_self _)
    exact .float hx hx rfl
  | string s => exact .string s
  | list items => exact .list (alikeItems_self fun x hx => h x (List.mem_cons_of_mem _ hx))
  | map entries => exact .map (alikeEntries_self fun x hx => h x (List.mem_cons_of_mem _ hx))

theorem alikeItems_self {items : List Value}
    (h : ∀ x, .float x ∈ Value.partsOfItems items → x.isNaN = false) :
    Value.AlikeItems items items := by
  match items with
  | [] => exact .nil
  | v :: rest =>
    exact .cons (alike_self_of_nanFree fun x hx => h x (List.mem_append_left _ hx))
      (alikeItems_self fun x hx => h x (List.mem_append_right _ hx))

theorem alikeEntries_self {entries : List (String × Value)}
    (h : ∀ x, .float x ∈ Value.partsOfEntries entries → x.isNaN = false) :
    Value.AlikeEntries entries entries := by
  match entries with
  | [] => exact .nil
  | (key, v) :: rest =>
    exact .cons key (alike_self_of_nanFree fun x hx => h x (List.mem_append_left _ hx))
      (alikeEntries_self fun x hx => h x (List.mem_append_right _ hx))

end

mutual

/-- A value with a NaN in it is not like any other. -/
theorem nanFree_of_alike {v w : Value} (h : v.Alike w) : v.NaNFree := by
  intro z hz
  cases h with
  | nil | bool b | integer n | string s => exact nomatch List.mem_singleton.mp hz
  | float hx _ _ =>
    obtain rfl := Value.float.inj (List.mem_singleton.mp hz)
    exact hx
  | list hitems =>
    rw [Value.parts, List.mem_cons] at hz
    exact nanFree_of_alikeItems hitems z (hz.resolve_left nofun)
  | map hentries =>
    rw [Value.parts, List.mem_cons] at hz
    exact nanFree_of_alikeEntries hentries z (hz.resolve_left nofun)

theorem nanFree_of_alikeItems {as bs : List Value} (h : Value.AlikeItems as bs) :
    ∀ x, .float x ∈ Value.partsOfItems as → x.isNaN = false := by
  intro z hz
  cases h with
  | nil => exact absurd hz List.not_mem_nil
  | cons hfirst hrest =>
    rw [Value.partsOfItems, List.mem_append] at hz
    exact hz.elim (nanFree_of_alike hfirst z) (nanFree_of_alikeItems hrest z)

theorem nanFree_of_alikeEntries {as bs : List (String × Value)}
    (h : Value.AlikeEntries as bs) :
    ∀ x, .float x ∈ Value.partsOfEntries as → x.isNaN = false := by
  intro z hz
  cases h with
  | nil => exact absurd hz List.not_mem_nil
  | cons key hfirst hrest =>
    rw [Value.partsOfEntries, List.mem_append] at hz
    exact hz.elim (nanFree_of_alike hfirst z) (nanFree_of_alikeEntries hrest z)

end

/-- A value is equal to itself exactly if no NaN is in it. -/
theorem sameAs_self_iff {v : Value} : v.sameAs v = true ↔ v.NaNFree :=
  ⟨fun h => nanFree_of_alike (alike_of_sameAs h), fun h => sameAs_of_alike (alike_self_of_nanFree h)⟩

/-- What was converted holds no NaN. -/
theorem nanFree_of_convertArguments {limits : Limits} {raw : Json} {args : List Value}
    (h : convertArguments limits raw = .ok args) : (Value.list args).NaNFree :=
  fun x hx => Binary64.isNaN_eq_false_of_isFinite ((embeds_of_convertArguments h).2 x hx)

/-- Doubles that are numbers are alike if they are one pattern, or both are zeros. -/
theorem alike_float_iff {x y : Binary64} (hx : x.isNaN = false) (hy : y.isNaN = false) :
    (Value.float x).Alike (.float y) ↔ x = y ∨ (x.IsZero ∧ y.IsZero) := by
  rw [← Binary64.units_eq_iff]
  constructor
  · intro h
    cases h with
    | float _ _ hunits => exact hunits
  · exact .float hx hy

/-- Maps that are alike have their keys in the same order. -/
theorem keys_eq_of_alikeEntries {as bs : List (String × Value)}
    (h : Value.AlikeEntries as bs) : as.map Prod.fst = bs.map Prod.fst := by
  match h with
  | .nil => rfl
  | .cons key _ hrest => exact congrArg (key :: ·) (keys_eq_of_alikeEntries hrest)

end BackgroundScan
