import Mathlib.Data.Nat.Find
import BackgroundScan.Proofs.DoubleRounding
import BackgroundScan.Proofs.Lossless
import BackgroundScan.Proofs.Written

/-!
# Integers of a text as arguments

An integer that is written in the text of the arguments is read by its size. In the two 64-bit
ranges it is an integer, and past the signed range no argument; past both ranges it is a double,
and so is minus zero. A double is always an argument, so that an integer past 64 bits is passed on
inexactly where a smaller one, past the signed range, is refused.

Which double this is depends on how the integer is written. Of its digits those count that 64 bits
hold, and the others only as places; what remains is scaled by a power of ten. A negative integer
whose digits all fit comes to the nearest double, a longer one to a double near it.

1. `IntegerLiteral`: the literals without point and exponent, and what they stand for.
   `literalDouble`: the double that such a literal is taken for. `literalDouble_eq_nearestDouble`:
   if 64 bits hold its digits, this is the nearest.
   `numberOf_integerLiteral`: the number that an integer literal is read as.
2. `child_embed`: a step leads to the same place in arguments and in what they come from.
3. `passes_integers_by_size`: what an integer literal becomes at its place in the arguments.
   `passes_large_integer`: it may be a double.
-/

namespace BackgroundScan

open Json

/-! ## 1. Integer literals -/

/-- A number that is written without point and exponent. -/
structure IntegerLiteral (literal : List Char) : Prop where
  point : '.' ∉ literal
  exponent : 'e' ∉ literal ∧ 'E' ∉ literal

/-- The integer that a literal of digits stands for, with a minus sign the negative one. -/
def literalInteger : List Char → Int
  | '-' :: digits => -(Token.digitsValue digits : Int)
  | digits => Token.digitsValue digits

/-- How many of the leading digits stand for a number that 64 bits hold. -/
def heldDigits (digits : List Char) : Nat :=
  Nat.findGreatest (fun k => Token.digitsValue (digits.take k) < 0x10000000000000000)
    digits.length

/-- The double that digits are taken for: the number that 64 bits hold of them, scaled by ten for
each digit that is left. -/
def digitsDouble (negative : Bool) (digits : List Char) : Binary64 :=
  .scaled negative (Token.digitsValue (digits.take (heldDigits digits)))
    ((digits.length - heldDigits digits : Nat) : Int)

/-- The double that a literal of digits is taken for, with a minus sign the negative one. -/
def literalDouble : List Char → Binary64
  | '-' :: digits => digitsDouble true digits
  | digits => digitsDouble false digits

/-- The double nearest to the integer that a literal stands for, with the sign it is written
with. -/
def nearestDouble (literal : List Char) : Binary64 :=
  .ofDecimal (literal.head? == some '-') (literalInteger literal).natAbs 0

/-- A zero with a minus sign. -/
def MinusZero (literal : List Char) : Prop :=
  literal.head? = some '-' ∧ literalInteger literal = 0

/-- Whether a literal is read as the integer it stands for. -/
def ReadExactly (literal : List Char) : Prop :=
  -0x8000000000000000 ≤ literalInteger literal ∧ literalInteger literal < 0x10000000000000000 ∧
    ¬ MinusZero literal

/-- The number that an integer literal is read as. -/
inductive ReadAs (literal : List Char) : Json.Number → Prop
  | exactly (h : ReadExactly literal) :
      ReadAs literal (.integer (literalInteger literal) ⟨h.1, h.2.1⟩)
  | rounded (h : ¬ ReadExactly literal) (hfinite : (literalDouble literal).isFinite = true) :
      ReadAs literal (.float (literalDouble literal) hfinite)

namespace IntegerLiteralLemmas

open Token

theorem fraction_eq_none {cs rest : List Char} {fraction : Option (List Char)}
    (hpoint : '.' ∉ cs) (h : fractionPart cs = some (fraction, rest)) :
    fraction = none ∧ rest = cs := by
  unfold fractionPart at h
  split at h
  · exact absurd List.mem_cons_self hpoint
  · obtain ⟨rfl, rfl⟩ := Prod.mk.inj (Option.some.inj h)
    exact ⟨rfl, rfl⟩

theorem exponent_eq_none {cs : List Char} {exponent : Option (Bool × List Char)} {width : Nat}
    (hexponent : 'e' ∉ cs ∧ 'E' ∉ cs) (h : exponentPart cs = some (exponent, width)) :
    exponent = none ∧ width = 0 := by
  rw [exponentPart_eq] at h
  split at h
  · exact absurd List.mem_cons_self hexponent.1
  · exact absurd List.mem_cons_self hexponent.2
  · obtain ⟨rfl, rfl⟩ := Prod.mk.inj (Option.some.inj h)
    exact ⟨rfl, rfl⟩

/-- The numeral of an integer literal has only a sign and digits. -/
theorem digits_of_numeralOf {negative : Bool} {unsigned : List Char} {n : Numeral}
    (hliteral : IntegerLiteral unsigned) (h : numeralOf negative unsigned = some n)
    (hwidth : n.width = (if negative then 1 else 0) + unsigned.length) :
    n.negative = negative ∧ n.whole = unsigned ∧ n.fraction = none ∧ n.exponent = none := by
  obtain ⟨afterWhole, afterFraction, exponentWidth, hnegative, hwhole, hfraction, hexponent,
    hparts⟩ := numeralOf_eq_some_iff.mp h
  have hsplit := append_of_spanDigits (spanDigits_of_wholePart hwhole)
  have hafter : afterWhole ⊆ unsigned := by
    rw [hsplit]
    exact List.subset_append_right _ _
  obtain ⟨hnone, hsame⟩ := fraction_eq_none (fun hmem => hliteral.point (hafter hmem)) hfraction
  rw [hsame] at hexponent
  obtain ⟨hnone', rfl⟩ := exponent_eq_none
    ⟨fun hmem => hliteral.exponent.1 (hafter hmem), fun hmem => hliteral.exponent.2 (hafter hmem)⟩
    hexponent
  have hlength : unsigned.length = n.whole.length + afterWhole.length := by
    rw [← List.length_append, ← hsplit]
  have hend : afterWhole = [] := by
    rw [hnone, fractionWidth] at hparts
    exact List.length_eq_zero_iff.mp (by omega)
  rw [hend, List.append_nil] at hsplit
  exact ⟨hnegative, hsplit.symm, hnone, hnone'⟩

/-- The integer a numeral is read as, if it has no fraction and no exponent. -/
def exactly? (negative : Bool) (magnitude : Nat) : Option Number :=
  if negative then (if magnitude = 0 then none else Number.ofInt? (-(magnitude : Int)))
  else Number.ofInt? magnitude

/-- The number that a digit makes of the number before it. -/
def pushDigit (n : Nat) (d : Char) : Nat := 10 * n + (d.toNat - 48)

theorem le_foldl_pushDigit (n : Nat) (digits : List Char) : n ≤ digits.foldl pushDigit n := by
  induction digits generalizing n with
  | nil => exact Nat.le_refl n
  | cons d rest ih => exact Nat.le_trans (by unfold pushDigit; omega) (ih (pushDigit n d))

theorem digitsValue_append (digits more : List Char) :
    digitsValue (digits ++ more) = more.foldl pushDigit (digitsValue digits) :=
  List.foldl_append

/-- More digits stand for a larger number. -/
theorem digitsValue_take_le (digits : List Char) {j k : Nat} (h : j ≤ k) :
    digitsValue (digits.take j) ≤ digitsValue (digits.take k) := by
  obtain ⟨i, rfl⟩ := Nat.exists_eq_add_of_le h
  rw [List.take_add, digitsValue_append]
  exact le_foldl_pushDigit _ _

/-- The digits that are put behind a significand, and those that are left. -/
theorem appendDigits_split (n : Nat) (hn : n < 0x10000000000000000) (digits : List Char) :
    ∃ held left, digits = held ++ left ∧ appendDigits n digits = (held.foldl pushDigit n, left) ∧
      held.foldl pushDigit n < 0x10000000000000000 ∧
      ∀ d rest, left = d :: rest → 0x10000000000000000 ≤ pushDigit (held.foldl pushDigit n) d := by
  induction digits generalizing n with
  | nil => exact ⟨[], [], rfl, rfl, hn, fun _ _ h => by cases h⟩
  | cons d rest ih =>
    by_cases hfits : pushDigit n d ≤ 0xFFFFFFFFFFFFFFFF
    · obtain ⟨held, left, hdigits, happend, hlt, hnext⟩ := ih (pushDigit n d) (by omega)
      refine ⟨d :: held, left, congrArg (d :: ·) hdigits, ?_, hlt, hnext⟩
      exact (if_pos hfits).trans happend
    · refine ⟨[], d :: rest, rfl, if_neg hfits, hn, ?_⟩
      intro _ _ h
      obtain ⟨rfl, -⟩ := List.cons.inj h
      exact Nat.lt_of_not_le hfits

/-- The significand holds as many digits as stand for a number of 64 bits. -/
theorem appendDigits_zero (digits : List Char) :
    appendDigits 0 digits =
      (digitsValue (digits.take (heldDigits digits)), digits.drop (heldDigits digits)) := by
  obtain ⟨held, left, rfl, happend, hlt, hnext⟩ :=
    appendDigits_split 0 (by decide) digits
  have hheld : heldDigits (held ++ left) = held.length := by
    refine Nat.findGreatest_eq_iff.mpr ⟨?_, fun _ => ?_, ?_⟩
    · rw [List.length_append]
      exact Nat.le_add_right _ _
    · rw [List.take_left]
      exact hlt
    · intro k hk hle hfits
      cases left with
      | nil =>
        rw [List.append_nil] at hle
        omega
      | cons d rest =>
        -- one digit more is already too many, and so are all further ones
        have hmore : digitsValue ((held ++ d :: rest).take (held.length + 1)) =
            pushDigit (digitsValue held) d := by
          rw [List.take_length_add_append, List.take_succ_cons, List.take_zero, digitsValue_append]
          rfl
        have hlast := digitsValue_take_le (held ++ d :: rest) (Nat.succ_le_of_lt hk)
        rw [hmore] at hlast
        exact absurd (hnext d rest rfl) (Nat.not_le_of_lt (Nat.lt_of_le_of_lt hlast hfits))
  rw [hheld, List.take_left, List.drop_left]
  exact happend

theorem value_of_digits {n : Numeral} (hfraction : n.fraction = none)
    (hexponent : n.exponent = none) :
    n.value = (exactly? n.negative (digitsValue n.whole)).orElse
      fun _ => Number.ofBinary64? (digitsDouble n.negative n.whole) := by
  obtain ⟨negative, whole, fraction, exponent, width⟩ := n
  obtain rfl : fraction = none := hfraction
  obtain rfl : exponent = none := hexponent
  have hdouble : Numeral.double ⟨negative, whole, none, none, width⟩ =
      digitsDouble negative whole := by
    simp only [Numeral.double, appendDigits_zero, Option.getD_none, appendDigits, List.length_drop,
      List.length_nil, digitsDouble, Int.sub_self, Int.sub_zero]
  unfold Numeral.value
  rw [hdouble]
  rfl

theorem ofInt?_of_range {n : Int} (h : -0x8000000000000000 ≤ n ∧ n < 0x10000000000000000) :
    Number.ofInt? n = some (.integer n h) :=
  dif_pos h

theorem ofInt?_of_not_range {n : Int}
    (h : ¬ (-0x8000000000000000 ≤ n ∧ n < 0x10000000000000000)) : Number.ofInt? n = none :=
  dif_neg h

theorem exactly?_minus (digits : List Char) :
    (∀ h : ReadExactly ('-' :: digits), exactly? true (digitsValue digits) =
        some (.integer (literalInteger ('-' :: digits)) ⟨h.1, h.2.1⟩)) ∧
      (¬ ReadExactly ('-' :: digits) → exactly? true (digitsValue digits) = none) := by
  have hinteger : literalInteger ('-' :: digits) = -(digitsValue digits : Int) := rfl
  rw [exactly?, if_pos rfl]
  by_cases hzero : digitsValue digits = 0
  · have hminus : MinusZero ('-' :: digits) := ⟨rfl, by rw [hinteger, hzero]; rfl⟩
    rw [if_pos hzero]
    exact ⟨fun h => absurd hminus h.2.2, fun _ => rfl⟩
  · have hminus : ¬ MinusZero ('-' :: digits) := by
      intro h
      have hnone := h.2
      rw [hinteger] at hnone
      omega
    rw [if_neg hzero]
    refine ⟨fun h => ofInt?_of_range ⟨h.1, h.2.1⟩, fun h => ofInt?_of_not_range ?_⟩
    intro hrange
    exact h ⟨hrange.1, hrange.2, hminus⟩

theorem minus_or_unsigned (literal : List Char) :
    (∃ digits, literal = '-' :: digits) ∨ ∀ rest, literal ≠ '-' :: rest := by
  by_cases h : ∃ digits, literal = '-' :: digits
  · exact .inl h
  · exact .inr fun rest heq => h ⟨rest, heq⟩

theorem head?_ne_minus {digits : List Char} (hsign : ∀ rest, digits ≠ '-' :: rest) :
    digits.head? ≠ some '-' := by
  intro h
  obtain ⟨rest, hrest⟩ := List.head?_eq_some_iff.mp h
  exact hsign rest hrest

theorem literalInteger_unsigned {digits : List Char} (hsign : ∀ rest, digits ≠ '-' :: rest) :
    literalInteger digits = digitsValue digits := by
  unfold literalInteger
  split
  · exact absurd rfl (hsign _)
  · rfl

theorem exactly?_unsigned {digits : List Char} (hsign : ∀ rest, digits ≠ '-' :: rest) :
    (∀ h : ReadExactly digits, exactly? false (digitsValue digits) =
        some (.integer (literalInteger digits) ⟨h.1, h.2.1⟩)) ∧
      (¬ ReadExactly digits → exactly? false (digitsValue digits) = none) := by
  have hinteger := literalInteger_unsigned hsign
  have hminus : ¬ MinusZero digits := fun h => head?_ne_minus hsign h.1
  rw [exactly?, if_neg Bool.false_ne_true]
  refine ⟨fun h => ?_, fun h => ofInt?_of_not_range fun hrange => h ?_⟩
  · simp only [hinteger]
    exact ofInt?_of_range _
  · rw [← hinteger] at hrange
    exact ⟨hrange.1, hrange.2, hminus⟩

theorem literalDouble_unsigned {digits : List Char} (hsign : ∀ rest, digits ≠ '-' :: rest) :
    literalDouble digits = digitsDouble false digits := by
  unfold literalDouble
  split
  · exact absurd rfl (hsign _)
  · rfl

theorem digitCount_le {n : Nat} (h : n < 0x10000000000000000) : Binary64.digitCount n ≤ 310 := by
  have hlt : n < Nat.pow 10 20 := Nat.lt_trans h (by decide)
  have hlength := (Nat.length_toDigits_le_iff (b := 10) (by decide) (by decide)).mpr hlt
  exact Nat.le_trans hlength (by decide)

/-- Where 64 bits hold all digits there is nothing to scale by, and no rounding but one. -/
theorem digitsDouble_of_lt (negative : Bool) {digits : List Char}
    (h : digitsValue digits < 0x10000000000000000) :
    digitsDouble negative digits = .ofDecimal negative (digitsValue digits) 0 := by
  have hheld : heldDigits digits = digits.length :=
    Nat.findGreatest_eq (by rw [List.take_length]; exact h)
  unfold digitsDouble
  rw [hheld, List.take_length, Nat.sub_self]
  exact Binary64.scaled_zero negative (digitCount_le h)

/-- A number is read exactly, or else as a double. -/
theorem readAs_of_value {literal : List Char} {found? : Option Number} {v : Number}
    (hexact : ∀ h : ReadExactly literal,
      found? = some (.integer (literalInteger literal) ⟨h.1, h.2.1⟩))
    (hnone : ¬ ReadExactly literal → found? = none)
    (h : (found?.orElse fun _ => Number.ofBinary64? (literalDouble literal)) = some v) :
    ReadAs literal v := by
  by_cases hread : ReadExactly literal
  · rw [hexact hread] at h
    obtain rfl := Option.some.inj h
    exact .exactly hread
  · rw [hnone hread] at h
    by_cases hfinite : (literalDouble literal).isFinite = true
    · have hnumber : Number.ofBinary64? (literalDouble literal) = some (.float _ hfinite) :=
        dif_pos hfinite
      obtain rfl := Option.some.inj (hnumber.symm.trans h)
      exact .rounded hread hfinite
    · have hnumber : Number.ofBinary64? (literalDouble literal) = none := dif_neg hfinite
      cases hnumber.symm.trans h

end IntegerLiteralLemmas

open IntegerLiteralLemmas

/-- A literal whose digits 64 bits hold is taken for the double nearest to its integer. -/
theorem literalDouble_eq_nearestDouble {literal : List Char}
    (hlow : -0x10000000000000000 < literalInteger literal)
    (hhigh : literalInteger literal < 0x10000000000000000) :
    literalDouble literal = nearestDouble literal := by
  rcases minus_or_unsigned literal with ⟨digits, rfl⟩ | hsign
  · have hinteger : literalInteger ('-' :: digits) = -(Token.digitsValue digits : Int) := rfl
    rw [hinteger] at hlow
    show digitsDouble true digits = nearestDouble _
    rw [digitsDouble_of_lt true (by omega), nearestDouble, hinteger, Int.natAbs_neg,
      Int.natAbs_natCast]
    rfl
  · have hhead : (literal.head? == some '-') = false :=
      beq_eq_false_iff_ne.mpr (head?_ne_minus hsign)
    rw [literalInteger_unsigned hsign] at hhigh
    rw [literalDouble_unsigned hsign, digitsDouble_of_lt false (by omega), nearestDouble, hhead,
      literalInteger_unsigned hsign, Int.natAbs_natCast]

/-- An integer past 64 bits may come to another double than the nearest. -/
example : literalDouble "18446744073709553665".toList = ⟨0x43F0000000000000⟩ ∧
    nearestDouble "18446744073709553665".toList = ⟨0x43F0000000000001⟩ := by
  decide +kernel

/-- An integer literal is read as the integer it stands for, or else as a double. -/
theorem numberOf_integerLiteral {literal : List Char} {v : Number}
    (hliteral : IntegerLiteral literal) (h : numberOf literal = some v) : ReadAs literal v := by
  unfold numberOf at h
  cases hnumeral : Token.numeral? literal with
  | none =>
    rw [hnumeral] at h
    cases h
  | some n =>
    rw [hnumeral] at h
    dsimp only at h
    split at h
    · next hwidth =>
      rcases minus_or_unsigned literal with ⟨digits, rfl⟩ | hsign
      · have hdigits : IntegerLiteral digits :=
          ⟨fun hmem => hliteral.point (List.mem_cons_of_mem _ hmem),
            fun hmem => hliteral.exponent.1 (List.mem_cons_of_mem _ hmem),
            fun hmem => hliteral.exponent.2 (List.mem_cons_of_mem _ hmem)⟩
        rw [Token.numeral?_minus] at hnumeral
        rw [List.length_cons, Nat.add_comm] at hwidth
        obtain ⟨hnegative, hwhole, hfraction, hexponent⟩ :=
          digits_of_numeralOf hdigits hnumeral hwidth
        rw [value_of_digits hfraction hexponent, hnegative, hwhole] at h
        obtain ⟨hexact, hnone⟩ := exactly?_minus digits
        exact readAs_of_value hexact hnone h
      · rw [Token.numeral?_unsigned hsign] at hnumeral
        rw [← Nat.zero_add literal.length] at hwidth
        obtain ⟨hnegative, hwhole, hfraction, hexponent⟩ :=
          digits_of_numeralOf hliteral hnumeral hwidth
        rw [value_of_digits hfraction hexponent, hnegative, hwhole,
          ← literalDouble_unsigned hsign] at h
        obtain ⟨hexact, hnone⟩ := exactly?_unsigned hsign
        exact readAs_of_value hexact hnone h
    · cases h

/-! ## 2. Paths into arguments -/

/-- A step into a value. -/
def Value.child? : Value → Step → Option Value
  | .list items, .item index => items[index]?
  | .map entries, .key name => entries.lookup name
  | _, _ => none

namespace IntegerLiteralLemmas

theorem embedItems_getElem? (items : List Value) (index : Nat) :
    (Value.embedItems items)[index]? = items[index]?.map Value.embed := by
  induction items generalizing index with
  | nil => rfl
  | cons v rest ih =>
    cases index with
    | zero => rfl
    | succ index => exact ih index

theorem find?_embedEntries (name : String) (entries : List (String × Value)) :
    find? name (Value.embedEntries entries) = (entries.lookup name).map Value.embed := by
  induction entries with
  | nil => rfl
  | cons entry rest ih =>
    obtain ⟨key, v⟩ := entry
    rw [Value.embedEntries, find?, List.lookup_cons, ih]
    by_cases hkey : key = name
    · subst hkey
      rw [if_pos rfl, beq_self_eq_true]
      rfl
    · have hname : (name == key) = false := beq_eq_false_iff_ne.mpr (Ne.symm hkey)
      rw [if_neg hkey, hname]

end IntegerLiteralLemmas

/-- A step leads to the same place in a value and in what it is written as. -/
theorem child_embed (v : Value) (step : Step) :
    v.embed.child? step = (v.child? step).map Value.embed := by
  cases v with
  | nil | bool b | integer n | string s => cases step <;> rfl
  | float x =>
    rw [Value.embed, Value.embedFloat]
    cases Number.ofBinary64? x <;> cases step <;> rfl
  | list items =>
    cases step with
    | item index => exact embedItems_getElem? items index
    | key name => rfl
  | map entries =>
    cases step with
    | item index => rfl
    | key name => exact find?_embedEntries name entries

/-- What is written at the end of a path is written for what lies there in the arguments. -/
theorem follow_embed {w w' : Written} {v : Value} {path : List Step} (h : w.value = some v.embed)
    (hpath : follow Written.child? path w = some w') :
    ∃ v', follow Value.child? path v = some v' ∧ w'.value = some v'.embed := by
  refine follow_related (fun (w : Written) (v : Value) => w.value = some v.embed) ?_ h hpath
  intro w v step w' h hstep
  obtain ⟨raw, hraw, hvalue⟩ := child_of_value h hstep
  rw [child_embed] at hraw
  obtain ⟨v', hv', rfl⟩ := Option.map_eq_some_iff.mp hraw
  exact ⟨v', hv', hvalue⟩

/-! ## 3. Integer literals in the text of arguments -/

/-- What an integer literal becomes as an argument or inside one: the integer it stands for, or
if this is in neither of the 64-bit ranges, and for minus zero, a double. -/
inductive Becomes (literal : List Char) : Value → Prop
  | integer {i : Int64} (exact : i.toInt = literalInteger literal) (h : ¬ MinusZero literal) :
      Becomes literal (.integer i)
  | double (h : ¬ ReadExactly literal) : Becomes literal (.float (literalDouble literal))

namespace IntegerLiteralLemmas

/-- Only a number is written as a number. -/
theorem embed_eq_number {v : Value} {n : Number} (h : v.embed = .number n) :
    (∃ i : Int64, v = .integer i ∧ ∃ hr, n = .integer i.toInt hr) ∨
      ∃ x hf, v = .float x ∧ n = .float x hf := by
  cases v with
  | integer i => exact .inl ⟨i, rfl, _, (Json.number.inj h).symm⟩
  | float x =>
    by_cases hfinite : x.isFinite = true
    · rw [Value.embed, LosslessLemmas.embedFloat_of_finite hfinite] at h
      exact .inr ⟨x, hfinite, rfl, (Json.number.inj h).symm⟩
    · have hnumber : Number.ofBinary64? x = none := dif_neg hfinite
      rw [Value.embed, Value.embedFloat, hnumber] at h
      cases h
  | _ => cases h

/-- What an integer literal is written for. -/
theorem becomes_of_value {literal : List Char} {v : Value} (hliteral : IntegerLiteral literal)
    (h : (Written.number literal).value = some v.embed) : Becomes literal v := by
  obtain ⟨n, hn, hembed⟩ := Option.map_eq_some_iff.mp h
  have hread := numberOf_integerLiteral hliteral hn
  obtain ⟨i, rfl, _, hi⟩ | ⟨x, _, rfl, hx⟩ := embed_eq_number hembed.symm
  · cases hread with
    | exactly hexact => exact .integer (Number.integer.inj hi).symm hexact.2.2
    | rounded _ _ => cases hi
  · cases hread with
    | exactly _ => cases hx
    | rounded hrounded _ =>
      obtain rfl := Number.float.inj hx
      exact .double hrounded

/-- An integer past the signed range becomes nothing if a 64-bit range holds it. -/
theorem not_becomes {literal : List Char} {v : Value}
    (hlow : 0x8000000000000000 ≤ literalInteger literal)
    (hhigh : literalInteger literal < 0x10000000000000000) : ¬ Becomes literal v := by
  intro h
  cases h with
  | @integer i hexact hsign =>
    have hlt : i.toInt < 0x8000000000000000 := i.toInt_lt
    omega
  | double hrounded =>
    refine hrounded ⟨by omega, hhigh, fun hminus => ?_⟩
    rw [hminus.2] at hlow
    exact absurd hlow (by decide)

theorem existsUnique_written {room : Nat} {text : String} {raw : Json}
    (h : parse room text = some raw) :
    ∃ w : Written, w.lexemes = Token.lexemes text ∧ w.value = some raw ∧
      ∀ w' : Written, w'.lexemes = Token.lexemes text → w' = w := by
  obtain ⟨w, hlexemes, hvalue⟩ := written_of_parse h
  exact ⟨w, hlexemes, hvalue, fun w' h' => lexemes_injective (h'.trans hlexemes.symm)⟩

end IntegerLiteralLemmas

/-- A text of arguments is written in one way, and an integer literal anywhere in it, as far as no
later member has its key, comes to the same place in the arguments, unless these are refused. It
is there as the integer it stands for if a 64-bit range holds this; one past the signed range
is never there. Past both ranges it is there as the double that its digits are taken for, and so
is minus zero. This is the nearest double as long as 64 bits hold the digits. -/
theorem passes_integers_by_size {room : Nat} {text : String} {raw : Json} (limits : Limits)
    (hread : parse room text = some raw) :
    ∃ w : Written, w.lexemes = Token.lexemes text ∧
      (∀ w' : Written, w'.lexemes = Token.lexemes text → w' = w) ∧
      ∀ path literal, follow Written.child? path w = some (.number literal) →
        IntegerLiteral literal →
        (-0x8000000000000000 ≤ literalInteger literal →
          literalInteger literal < 0x10000000000000000 → ¬ MinusZero literal →
          (∃ e, convertArguments limits raw = .error e ∧ e.failure.kind = .conversion) ∨
            ∃ args i, convertArguments limits raw = .ok args ∧
              follow Value.child? path (.list args) = some (.integer i) ∧
              i.toInt = literalInteger literal) ∧
        (0x8000000000000000 ≤ literalInteger literal →
          literalInteger literal < 0x10000000000000000 →
          ∃ e, convertArguments limits raw = .error e ∧ e.failure.kind = .conversion) ∧
        (literalInteger literal < -0x8000000000000000 ∨
            0x10000000000000000 ≤ literalInteger literal ∨ MinusZero literal →
          (∃ e, convertArguments limits raw = .error e ∧ e.failure.kind = .conversion) ∨
            ∃ args, convertArguments limits raw = .ok args ∧
              follow Value.child? path (.list args) = some (.float (literalDouble literal))) ∧
        (-0x10000000000000000 < literalInteger literal →
          literalInteger literal < 0x10000000000000000 →
          literalDouble literal = nearestDouble literal) := by
  obtain ⟨w, hlexemes, hvalue, hunique⟩ := existsUnique_written hread
  refine ⟨w, hlexemes, hunique, ?_⟩
  intro path literal hpath hliteral
  cases hconverted : convertArguments limits raw with
  | error e =>
    have hfails : ∃ e', (Except.error e : Except ConversionError (List Value)) = .error e' ∧
        e'.failure.kind = .conversion := ⟨e, rfl, rfl⟩
    exact ⟨fun _ _ _ => .inl hfails, fun _ _ => hfails, fun _ => .inl hfails,
      literalDouble_eq_nearestDouble⟩
  | ok args =>
    have hembed := (embeds_of_convertArguments hconverted).1
    rw [← hembed] at hvalue
    obtain ⟨v, hv, hwritten⟩ := follow_embed hvalue hpath
    have hbecomes := becomes_of_value hliteral hwritten
    refine ⟨?_, ?_, ?_, literalDouble_eq_nearestDouble⟩
    · intro hlow hhigh hsign
      cases hbecomes with
      | @integer i hexact _ => exact .inr ⟨args, i, rfl, hv, hexact⟩
      | double hrounded => exact absurd ⟨hlow, hhigh, hsign⟩ hrounded
    · intro hlow hhigh
      exact absurd hbecomes (not_becomes hlow hhigh)
    · intro hpast
      cases hbecomes with
      | @integer i hexact hsign =>
        have hle : -0x8000000000000000 ≤ i.toInt := i.le_toInt
        have hlt : i.toInt < 0x8000000000000000 := i.toInt_lt
        rcases hpast with hlow | hhigh | hminus
        · omega
        · omega
        · exact absurd hminus hsign
      | double _ => exact .inr ⟨args, rfl, hv⟩

/-- The greatest signed integer comes through a map and a list. -/
theorem passes_integers_by_size_nested :
    let text := "[\x7b\"a\":[9223372036854775807]\x7d]"
    let path := [Step.item 0, .key "a", .item 0]
    ∃ raw args i, parse maxNesting text = some raw ∧
      convertArguments .standard raw = .ok args ∧
      follow Value.child? path (.list args) = some (.integer i) ∧
      i.toInt = 0x7FFFFFFFFFFFFFFF := by
  intro text path
  let literal := "9223372036854775807".toList
  let written : Written := .array [.object [("a", .array [.number literal])]]
  have hscan : Token.scan text = [.openBracket, .openBrace, .string (some "a"), .colon,
      .openBracket, .number (some (.integer 0x7FFFFFFFFFFFFFFF (by decide))), .closeBracket,
      .closeBrace, .closeBracket] := by
    decide +kernel
  have hread : parse maxNesting text = some (.array [.object [("a", .array
      [.number (.integer 0x7FFFFFFFFFFFFFFF (by decide))])]]) := by
    unfold parse
    rw [hscan]
    rfl
  have hwritten : written.lexemes = Token.lexemes text := by decide +kernel
  obtain ⟨w, -, hunique, hliterals⟩ := passes_integers_by_size .standard hread
  rw [← hunique written hwritten] at hliterals
  obtain ⟨hexact, -⟩ := hliterals path literal (by rfl) ⟨by decide, by decide⟩
  have hinteger : literalInteger literal = 0x7FFFFFFFFFFFFFFF := by decide +kernel
  have hsign : ¬ MinusZero literal := fun h => absurd h.1 (by decide)
  rcases hexact (by rw [hinteger]; decide) (by rw [hinteger]; decide) hsign with
    ⟨e, he, -⟩ | ⟨args, i, hargs, hfound, hi⟩
  · cases he
  · exact ⟨_, args, i, hread, hargs, hfound, hi.trans hinteger⟩

/-- The first integer past both ranges is no error: it becomes a double. -/
theorem passes_large_integer :
    let text := "[18446744073709551616]"
    let literal := "18446744073709551616".toList
    let raw : Json := .array [.number (.float ⟨0x43F0000000000000⟩ (by decide))]
    parse maxNesting text = some raw ∧
      (Written.array [.number literal]).lexemes = Token.lexemes text ∧ IntegerLiteral literal ∧
      literalInteger literal = 0x10000000000000000 ∧
      convertArguments .standard raw = .ok [.float ⟨0x43F0000000000000⟩] := by
  intro text literal raw
  have hscan : Token.scan text =
      [.openBracket, .number (some (.float ⟨0x43F0000000000000⟩ (by decide))), .closeBracket] := by
    decide +kernel
  have hread : parse maxNesting text = some raw := by
    unfold parse
    rw [hscan]
    rfl
  have hwritten : (Written.array [.number literal]).lexemes = Token.lexemes text := by
    decide +kernel
  have hliteral : IntegerLiteral literal := ⟨by decide, by decide⟩
  have hinteger : literalInteger literal = 0x10000000000000000 := by decide +kernel
  exact ⟨hread, hwritten, hliteral, hinteger, by rfl⟩

end BackgroundScan
