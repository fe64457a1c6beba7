import BackgroundScan.Json.Reader

/-!
# The lexemes of a JSON text

A token says of a number what it stands for and not how it is written. A lexeme is a token that,
if it is a number, keeps the characters it takes.

1. `Token.lexemes`: the lexemes of a text. `map_token_lexemes`: without the characters they are
   its tokens.
2. `numeral?_take`: a number that stands at the front of a text is the same by itself.
   `spelled_lexemes`: so every lexeme of a number is what its characters stand for.
-/

namespace BackgroundScan.Json

/-! ## 1. Lexemes -/

/-- The number that some characters stand for, all of them together. -/
def numberOf (literal : List Char) : Option Number :=
  match Token.numeral? literal with
  | some n => if n.width = literal.length then n.value else none
  | none => none

/-- A token, and if it is a number the characters it is written with. -/
structure Lexeme where
  token : Token
  literal : List Char
  deriving DecidableEq

namespace Token

/-- The lexeme of a token that takes the given characters. -/
def lexemeOf (token : Token) (taken : List Char) : Lexeme :=
  match token with
  | .number _ => ⟨token, taken⟩
  | _ => ⟨token, []⟩

/-- The lexemes of a text whose first `skip` characters belong to a token already found. -/
def lexemesFrom : (skip : Nat) → List Char → List Lexeme
  | _, [] => []
  | skip + 1, _ :: rest => lexemesFrom skip rest
  | 0, c :: rest =>
    if isBlank c then lexemesFrom 0 rest
    else match lexeme (c :: rest) with
      | some (token, width) =>
        token.lexemeOf ((c :: rest).take width) :: lexemesFrom (width - 1) rest
      | none => [⟨malformed, []⟩]

/-- The lexemes of a text. -/
def lexemes (text : String) : List Lexeme := lexemesFrom 0 text.toList

theorem token_lexemeOf (token : Token) (taken : List Char) :
    (token.lexemeOf taken).token = token := by
  cases token <;> rfl

theorem map_token_lexemesFrom (skip : Nat) (cs : List Char) :
    (lexemesFrom skip cs).map Lexeme.token = scanFrom skip cs := by
  induction cs generalizing skip with
  | nil => cases skip <;> rfl
  | cons c rest ih =>
    cases skip with
    | succ skip => exact ih skip
    | zero =>
      rw [lexemesFrom, scanFrom]
      split
      · exact ih 0
      · cases lexeme (c :: rest) with
        | none => rfl
        | some found =>
          obtain ⟨token, width⟩ := found
          dsimp only
          rw [List.map_cons, token_lexemeOf, ih]

theorem map_token_lexemes (text : String) : (lexemes text).map Lexeme.token = scan text :=
  map_token_lexemesFrom 0 text.toList

end Token

/-- A lexeme whose number is what its characters stand for. -/
inductive Lexeme.Spelled : Lexeme → Prop
  | number (literal : List Char) : Spelled ⟨.number (numberOf literal), literal⟩
  | mark {token : Token} (h : ∀ value, token ≠ .number value) : Spelled ⟨token, []⟩

namespace Token

/-! ## 2. Numbers by themselves

Every part of a number ends where the next one begins, so the characters after the number do not
matter to it. -/

theorem spanDigits_take {cs ds rest : List Char} (h : spanDigits cs = (ds, rest)) (k : Nat) :
    spanDigits (cs.take (ds.length + k)) = (ds, rest.take k) := by
  obtain ⟨rfl, rfl⟩ := Prod.mk.inj h
  clear h
  induction cs with
  | nil => simp [spanDigits]
  | cons c cs ih =>
    cases hc : c.isDigit with
    | true =>
      rw [List.takeWhile_cons_of_pos hc, List.dropWhile_cons_of_pos hc, List.length_cons,
        Nat.add_right_comm, List.take_succ_cons]
      obtain ⟨htake, hdrop⟩ := Prod.mk.inj ih
      rw [spanDigits, List.takeWhile_cons_of_pos hc, List.dropWhile_cons_of_pos hc, htake, hdrop]
    | false =>
      cases k with
      | zero => simp [spanDigits, hc]
      | succ k => simp [spanDigits, hc]

theorem append_of_spanDigits {cs ds rest : List Char} (h : spanDigits cs = (ds, rest)) :
    cs = ds ++ rest := by
  obtain ⟨rfl, rfl⟩ := Prod.mk.inj h
  exact List.takeWhile_append_dropWhile.symm

theorem spanDigits_of_wholePart {cs ds rest : List Char} (h : wholePart cs = some (ds, rest)) :
    spanDigits cs = (ds, rest) := by
  unfold wholePart at h
  split at h
  · cases h
  · next hspan => rw [hspan, ← Option.some.inj h]
  · cases h
  · next hspan => rw [hspan, ← Option.some.inj h]

theorem wholePart_take {cs ds rest : List Char} (h : wholePart cs = some (ds, rest)) (k : Nat) :
    wholePart (cs.take (ds.length + k)) = some (ds, rest.take k) := by
  have hspan := spanDigits_of_wholePart h
  unfold wholePart at h ⊢
  rw [spanDigits_take hspan]
  rw [hspan] at h
  -- which of the cases applies hangs on the digits alone
  split at h
  · cases h
  · next heq =>
    obtain ⟨rfl, -⟩ := Prod.mk.inj heq
    rfl
  · cases h
  · next hnil hzero hmore heq =>
    obtain ⟨rfl, rfl⟩ := Prod.mk.inj heq
    split
    · next heq => exact (hnil (Prod.mk.inj heq).1).elim
    · next heq => exact (hzero (Prod.mk.inj heq).1).elim
    · next heq => exact (hmore _ (Prod.mk.inj heq).1).elim
    · next heq =>
      obtain ⟨rfl, rfl⟩ := Prod.mk.inj heq
      rfl

/-- The width of a fraction. -/
def fractionWidth : Option (List Char) → Nat
  | some ds => 1 + ds.length
  | none => 0

theorem fractionPart_take {cs rest : List Char} {fraction : Option (List Char)}
    (h : fractionPart cs = some (fraction, rest)) (k : Nat) :
    fractionPart (cs.take (fractionWidth fraction + k)) = some (fraction, rest.take k) := by
  unfold fractionPart at h
  split at h
  · next after =>
    cases hspan : spanDigits after with
    | mk ds left =>
      rw [hspan] at h
      cases ds with
      | nil => cases h
      | cons d ds =>
        obtain ⟨rfl, rfl⟩ := Prod.mk.inj (Option.some.inj h)
        have htake := spanDigits_take hspan k
        rw [fractionWidth, Nat.add_assoc, Nat.add_comm 1, List.take_succ_cons, fractionPart, htake]
  · next hpoint =>
    obtain ⟨rfl, rfl⟩ := Prod.mk.inj (Option.some.inj h)
    rw [fractionWidth, Nat.zero_add]
    cases k with
    | zero => rfl
    | succ k =>
      cases cs with
      | nil => rfl
      | cons c cs =>
        rw [List.take_succ_cons, fractionPart]
        intro rest heq
        exact hpoint cs (by rw [(List.cons.inj heq).1])

theorem exponentSign_take {cs rest : List Char} {negative : Bool} {width : Nat}
    (h : exponentSign cs = (negative, width, rest)) (k : Nat) :
    exponentSign (cs.take (width + (k + 1))) = (negative, width, rest.take (k + 1)) := by
  unfold exponentSign at h
  split at h
  · obtain ⟨rfl, hrest⟩ := Prod.mk.inj h
    obtain ⟨rfl, rfl⟩ := Prod.mk.inj hrest
    rw [Nat.add_comm 1, List.take_succ_cons]
    rfl
  · obtain ⟨rfl, hrest⟩ := Prod.mk.inj h
    obtain ⟨rfl, rfl⟩ := Prod.mk.inj hrest
    rw [Nat.add_comm 1, List.take_succ_cons]
    rfl
  · next hminus hplus =>
    obtain ⟨rfl, hrest⟩ := Prod.mk.inj h
    obtain ⟨rfl, rfl⟩ := Prod.mk.inj hrest
    rw [Nat.zero_add]
    cases cs with
    | nil => rfl
    | cons c cs =>
      rw [List.take_succ_cons, exponentSign]
      · intro rest heq
        exact hminus cs (by rw [(List.cons.inj heq).1])
      · intro rest heq
        exact hplus cs (by rw [(List.cons.inj heq).1])

/-- The exponent of which the sign and the digits stand at the front. -/
def exponentDigits (cs : List Char) : Option (Option (Bool × List Char) × Nat) :=
  let (negative, signWidth, rest) := exponentSign cs
  match spanDigits rest with
  | ([], _) => none
  | (ds, _) => some (some (negative, ds), 1 + signWidth + ds.length)

theorem exponentPart_eq (cs : List Char) :
    exponentPart cs =
      match cs with
      | 'e' :: rest => exponentDigits rest
      | 'E' :: rest => exponentDigits rest
      | _ => some (none, 0) := rfl

theorem exponentDigits_eq_some {cs : List Char} {exponent : Option (Bool × List Char)}
    {width : Nat} (h : exponentDigits cs = some (exponent, width)) :
    ∃ negative signWidth rest d ds left, exponentSign cs = (negative, signWidth, rest) ∧
      spanDigits rest = (d :: ds, left) ∧ exponent = some (negative, d :: ds) ∧
      width = 1 + signWidth + (d :: ds).length := by
  unfold exponentDigits at h
  cases hsign : exponentSign cs with
  | mk negative more =>
    obtain ⟨signWidth, rest⟩ := more
    rw [hsign] at h
    cases hspan : spanDigits rest with
    | mk ds left =>
      cases ds with
      | nil =>
        simp only [hspan] at h
        cases h
      | cons d ds =>
        simp only [hspan] at h
        obtain ⟨rfl, rfl⟩ := Prod.mk.inj (Option.some.inj h)
        exact ⟨negative, signWidth, rest, d, ds, left, rfl, hspan, rfl, rfl⟩

theorem exponentDigits_take {cs : List Char} {exponent : Option (Bool × List Char)} {width : Nat}
    (h : exponentDigits cs = some (exponent, width + 1)) :
    exponentDigits (cs.take width) = some (exponent, width + 1) := by
  obtain ⟨negative, signWidth, rest, d, ds, left, hsign, hspan, rfl, hwidth⟩ :=
    exponentDigits_eq_some h
  obtain rfl : width = signWidth + (ds.length + 1) := by
    rw [List.length_cons] at hwidth
    omega
  have hspanTake := spanDigits_take hspan 0
  rw [exponentDigits, exponentSign_take hsign]
  rw [List.length_cons, Nat.add_zero] at hspanTake
  simp only [hspanTake, List.length_cons]
  congr 2
  omega

theorem exponentPart_take {cs : List Char} {exponent : Option (Bool × List Char)} {width : Nat}
    (h : exponentPart cs = some (exponent, width)) :
    exponentPart (cs.take width) = some (exponent, width) := by
  rw [exponentPart_eq] at h
  split at h
  · obtain ⟨_, _, _, _, _, _, -, -, -, rfl⟩ := exponentDigits_eq_some h
    rw [Nat.add_assoc, Nat.add_comm 1] at h ⊢
    rw [List.take_succ_cons]
    exact exponentDigits_take h
  · obtain ⟨_, _, _, _, _, _, -, -, -, rfl⟩ := exponentDigits_eq_some h
    rw [Nat.add_assoc, Nat.add_comm 1] at h ⊢
    rw [List.take_succ_cons]
    exact exponentDigits_take h
  · obtain ⟨rfl, rfl⟩ := Prod.mk.inj (Option.some.inj h)
    rfl

theorem length_of_fractionPart {cs rest : List Char} {fraction : Option (List Char)}
    (h : fractionPart cs = some (fraction, rest)) :
    cs.length = fractionWidth fraction + rest.length := by
  unfold fractionPart at h
  split at h
  · next after =>
    cases hspan : spanDigits after with
    | mk ds left =>
      rw [hspan] at h
      cases ds with
      | nil => cases h
      | cons d ds =>
        obtain ⟨rfl, rfl⟩ := Prod.mk.inj (Option.some.inj h)
        rw [append_of_spanDigits hspan, List.length_cons, List.length_append, fractionWidth]
        omega
  · obtain ⟨rfl, rfl⟩ := Prod.mk.inj (Option.some.inj h)
    rw [fractionWidth, Nat.zero_add]

theorem length_of_exponentSign {cs rest : List Char} {negative : Bool} {width : Nat}
    (h : exponentSign cs = (negative, width, rest)) : cs.length = width + rest.length := by
  unfold exponentSign at h
  split at h
  all_goals
    obtain ⟨rfl, hrest⟩ := Prod.mk.inj h
    obtain ⟨rfl, rfl⟩ := Prod.mk.inj hrest
  · exact Nat.add_comm _ _
  · exact Nat.add_comm _ _
  · exact (Nat.zero_add _).symm

theorem width_le_of_exponentPart {cs : List Char} {exponent : Option (Bool × List Char)}
    {width : Nat} (h : exponentPart cs = some (exponent, width)) : width ≤ cs.length := by
  have hdigits {after : List Char} (h : exponentDigits after = some (exponent, width)) :
      width ≤ after.length + 1 := by
    obtain ⟨_, _, _, _, _, _, hsign, hspan, -, rfl⟩ := exponentDigits_eq_some h
    rw [length_of_exponentSign hsign, append_of_spanDigits hspan, List.length_append]
    omega
  rw [exponentPart_eq] at h
  split at h
  · exact hdigits h
  · exact hdigits h
  · obtain ⟨-, rfl⟩ := Prod.mk.inj (Option.some.inj h)
    exact Nat.zero_le _

/-- The numeral of which the digits and what follows them stand at the front. -/
def numeralOf (negative : Bool) (unsigned : List Char) : Option Numeral := do
  let (whole, rest) ← wholePart unsigned
  let (fraction, rest) ← fractionPart rest
  let (exponent, exponentWidth) ← exponentPart rest
  return ⟨negative, whole, fraction, exponent,
    (if negative then 1 else 0) + whole.length + fractionWidth fraction + exponentWidth⟩

theorem numeral?_minus (cs : List Char) : numeral? ('-' :: cs) = numeralOf true cs := rfl

theorem numeral?_unsigned {cs : List Char} (h : ∀ rest, cs ≠ '-' :: rest) :
    numeral? cs = numeralOf false cs := by
  cases cs with
  | nil => rfl
  | cons c cs =>
    unfold numeral?
    split
    next hsign =>
      split at hsign
      · next heq => exact absurd heq (h _)
      · obtain ⟨rfl, rfl⟩ := Prod.mk.inj hsign
        rfl

/-- What the parts of a numeral are. -/
structure Parts (negative : Bool) (unsigned : List Char) (n : Numeral) (afterWhole : List Char)
    (afterFraction : List Char) (exponentWidth : Nat) : Prop where
  sign : n.negative = negative
  whole : wholePart unsigned = some (n.whole, afterWhole)
  fraction : fractionPart afterWhole = some (n.fraction, afterFraction)
  exponent : exponentPart afterFraction = some (n.exponent, exponentWidth)
  width : n.width =
    (if negative then 1 else 0) + n.whole.length + fractionWidth n.fraction + exponentWidth

theorem numeralOf_eq_some_iff {negative : Bool} {unsigned : List Char} {n : Numeral} :
    numeralOf negative unsigned = some n ↔
      ∃ afterWhole afterFraction exponentWidth,
        Parts negative unsigned n afterWhole afterFraction exponentWidth := by
  constructor
  · intro h
    simp only [numeralOf, Option.bind_eq_bind, Option.bind_eq_some_iff] at h
    obtain ⟨⟨whole, afterWhole⟩, hwhole, ⟨fraction, afterFraction⟩, hfraction,
      ⟨exponent, exponentWidth⟩, hexponent, hn⟩ := h
    obtain rfl := Option.some.inj hn
    exact ⟨afterWhole, afterFraction, exponentWidth, rfl, hwhole, hfraction, hexponent, rfl⟩
  · rintro ⟨afterWhole, afterFraction, exponentWidth, hnegative, hwhole, hfraction, hexponent,
      hwidth⟩
    simp only [numeralOf, hwhole, hfraction, hexponent, Option.bind_eq_bind, Option.bind_some]
    rw [← hnegative] at hwidth ⊢
    rw [← hwidth]
    rfl

theorem numeralOf_take {negative : Bool} {unsigned : List Char} {n : Numeral}
    (h : numeralOf negative unsigned = some n) :
    ∃ width, n.width = (if negative then 1 else 0) + width ∧ width ≤ unsigned.length ∧
      numeralOf negative (unsigned.take width) = some n := by
  obtain ⟨afterWhole, afterFraction, exponentWidth, hnegative, hwhole, hfraction, hexponent,
    hwidth⟩ := numeralOf_eq_some_iff.mp h
  have hspan := spanDigits_of_wholePart hwhole
  refine ⟨n.whole.length + (fractionWidth n.fraction + exponentWidth), by omega, ?_, ?_⟩
  · rw [append_of_spanDigits hspan, List.length_append, length_of_fractionPart hfraction]
    have := width_le_of_exponentPart hexponent
    omega
  · exact numeralOf_eq_some_iff.mpr ⟨_, _, exponentWidth, hnegative, wholePart_take hwhole _,
      fractionPart_take hfraction _, exponentPart_take hexponent, hwidth⟩

theorem numeral?_take {cs : List Char} {n : Numeral} (h : numeral? cs = some n) :
    n.width ≤ cs.length ∧ numeral? (cs.take n.width) = some n := by
  by_cases hminus : ∃ rest, cs = '-' :: rest
  · obtain ⟨rest, rfl⟩ := hminus
    rw [numeral?_minus] at h
    obtain ⟨width, hwidth, hle, htake⟩ := numeralOf_take h
    rw [if_pos rfl, Nat.add_comm] at hwidth
    rw [hwidth, List.take_succ_cons, numeral?_minus, List.length_cons]
    exact ⟨Nat.succ_le_succ hle, htake⟩
  · have hunsigned : ∀ rest, cs ≠ '-' :: rest := fun rest heq => hminus ⟨rest, heq⟩
    rw [numeral?_unsigned hunsigned] at h
    obtain ⟨width, hwidth, hle, htake⟩ := numeralOf_take h
    rw [if_neg Bool.false_ne_true, Nat.zero_add] at hwidth
    rw [hwidth, numeral?_unsigned]
    · exact ⟨hle, htake⟩
    · intro rest heq
      cases width with
      | zero => cases heq
      | succ width =>
        cases cs with
        | nil => cases heq
        | cons c cs => exact hunsigned cs (by rw [(List.cons.inj heq).1])

theorem numberOf_take {cs : List Char} {n : Numeral} (h : numeral? cs = some n) :
    numberOf (cs.take n.width) = n.value := by
  obtain ⟨hle, htake⟩ := numeral?_take h
  rw [numberOf, htake]
  exact if_pos (List.length_take_of_le hle).symm

theorem lexeme_eq_number {cs : List Char} {value : Option Number} {width : Nat}
    (h : lexeme cs = some (.number value, width)) :
    ∃ n, numeral? cs = some n ∧ n.value = value ∧ n.width = width := by
  unfold lexeme at h
  split at h
  case h_11 =>
    obtain ⟨n, hn, heq⟩ := Option.map_eq_some_iff.mp h
    obtain ⟨hvalue, rfl⟩ := Prod.mk.inj heq
    exact ⟨n, hn, Token.number.inj hvalue, rfl⟩
  case h_10 =>
    obtain ⟨_, -, heq⟩ := Option.map_eq_some_iff.mp h
    cases heq
  all_goals cases h

theorem spelled_lexemeOf {cs : List Char} {token : Token} {width : Nat}
    (h : lexeme cs = some (token, width)) : (token.lexemeOf (cs.take width)).Spelled := by
  cases token with
  | number value =>
    obtain ⟨n, hn, rfl, rfl⟩ := lexeme_eq_number h
    rw [lexemeOf, ← numberOf_take hn]
    exact .number _
  | _ => exact .mark fun _ h => by cases h

/-- Every number of a text is what its characters by themselves stand for. -/
theorem spelled_lexemesFrom (skip : Nat) (cs : List Char) :
    ∀ l ∈ lexemesFrom skip cs, l.Spelled := by
  induction cs generalizing skip with
  | nil => cases skip <;> exact fun l hl => nomatch hl
  | cons c rest ih =>
    cases skip with
    | succ skip => exact ih skip
    | zero =>
      rw [lexemesFrom]
      split
      · exact ih 0
      · cases hlexeme : lexeme (c :: rest) with
        | none => exact List.forall_mem_singleton.mpr (.mark fun _ h => by cases h)
        | some found =>
          obtain ⟨token, width⟩ := found
          exact List.forall_mem_cons.mpr ⟨spelled_lexemeOf hlexeme, ih (width - 1)⟩

theorem spelled_lexemes (text : String) : ∀ l ∈ lexemes text, l.Spelled :=
  spelled_lexemesFrom 0 text.toList

end Token
end BackgroundScan.Json
