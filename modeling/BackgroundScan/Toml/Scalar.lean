import BackgroundScan.Toml.Value
import BackgroundScan.Toml.Strings
import BackgroundScan.Number.Nearest

/-!
# TOML numbers, truth values, dates and times

A scalar without quotes is taken up to the first character that can be in none, over blanks with
more of it behind them, and the whole of it must be a truth value, a number, or a date or time,
which need not have seconds. Underscores may stand between two digits of a number.

The form of a number decides what it is before its value is known: with a point or an exponent it
is a float, and otherwise an integer. A float has to be written as one. An integer in base ten is
held to less: once an underscore has come, other characters than a space may follow, and such a
number is `Value.unreadable`, like one that is out of range.
-/

namespace BackgroundScan.Toml

/-! ## Digits -/

/-- Digits of a base up to sixteen. -/
def isDigitOf (base : Nat) (c : Char) : Bool := (hexValue? [c]).any fun d => decide (d < base)

/-- The value of digits of a base up to sixteen. -/
def baseValue (base : Nat) (ds : List Char) : Nat :=
  ds.foldl (fun n d => base * n + (hexValue? [d]).getD 0) 0

/-- The value of decimal digits. -/
def decimalValue (ds : List Char) : Nat := baseValue 10 ds

/-- Whether every underscore stands between two digits; `afterDigit` is whether a digit stands
before the text. -/
def isGrouped (isDigit : Char → Bool) : (afterDigit : Bool) → List Char → Bool
  | _, [] => true
  | afterDigit, c :: rest =>
    if c = '_' then afterDigit && rest.head?.any isDigit && isGrouped isDigit false rest
    else isGrouped isDigit (isDigit c) rest

/-- The digits of a group with underscores, if there is nothing else in it. -/
def ungroup? (isDigit : Char → Bool) (cs : List Char) : Option (List Char) :=
  let ds := cs.filter (· != '_')
  if ds ≠ [] ∧ ds.all isDigit ∧ isGrouped isDigit false cs then some ds else none

/-- Whether a number has a minus, and the rest of it after its sign. -/
def sign (cs : List Char) : Bool × List Char :=
  match cs with
  | '-' :: rest => (true, rest)
  | '+' :: rest => (false, rest)
  | _ => (false, cs)

/-- The integer of a magnitude. -/
def withSign (negative : Bool) (n : Nat) : Int := if negative then -(n : Int) else n

/-! ## Integers -/

/-- The value of an integer, which has to be within 128 bits. -/
def integerValue (n : Int) : Value :=
  if -0x80000000000000000000000000000000 ≤ n ∧ n < 0x100000000000000000000000000000000 then
    .integer n
  else .unreadable

/-- An integer in a base other than ten, from after the mark of its base. Digits may be missing. -/
def based? (base : Nat) (cs : List Char) : Option Value :=
  if cs = [] then some .unreadable
  else (ungroup? (isDigitOf base) cs).map fun ds => integerValue (baseValue base ds)

/-- An integer in base ten. It starts with digits, the first of them a zero only if there is nothing
else, and what comes after them starts with an underscore. Whatever follows then is no space, and
underscores have to be between digits, for which those of base sixteen count. -/
def decimal? (negative : Bool) (unsigned : List Char) : Option Value :=
  let rest := unsigned.dropWhile Char.isDigit
  if unsigned.head? = some '0' ∧ unsigned ≠ ['0'] then none
  else if unsigned = [] ∨ (rest ≠ [] ∧ rest.head? ≠ some '_') ∨ rest.contains ' ' then none
  else if !isGrouped (isDigitOf 16) false unsigned then none
  else
    match ungroup? Char.isDigit unsigned with
    | none => some .unreadable
    | some ds => some (integerValue (withSign negative (decimalValue ds)))

/-! ## Floats -/

/-- The parts of a number before and after the first of some characters. -/
def splitAt? (isMark : Char → Bool) (cs : List Char) : List Char × Option (List Char) :=
  match cs.span (!isMark ·) with
  | (before, _ :: after) => (before, some after)
  | (before, []) => (before, none)

/-- The marks of an exponent. -/
def isExponentMark (c : Char) : Bool := c == 'e' || c == 'E'

/-- The digits of a float before its point. They start with a zero only if there is nothing else. -/
def wholeDigits? (cs : List Char) : Option (List Char) :=
  if cs.head? = some '0' ∧ cs ≠ ['0'] then none else ungroup? Char.isDigit cs

/-- The exponent of a float. -/
def exponent? (cs : List Char) : Option Int :=
  let (negative, unsigned) := sign cs
  (ungroup? Char.isDigit unsigned).map fun ds => withSign negative (decimalValue ds)

/-- The value of a float, which has to be finite. -/
def floatValue (x : Binary64) : Value := if x.isFinite then .float x else .unreadable

/-- A float with a fraction or an exponent. -/
def float? (negative : Bool) (unsigned : List Char) : Option Value := do
  let (mantissa, scale) := splitAt? isExponentMark unsigned
  let (whole, fraction) := splitAt? (· == '.') mantissa
  let whole ← wholeDigits? whole
  let fraction ← match fraction with
    | some ds => ungroup? Char.isDigit ds
    | none => some []
  let scale ← match scale with
    | some cs => exponent? cs
    | none => some 0
  let digits := decimalValue (whole ++ fraction)
  return floatValue (.ofDecimal negative digits (scale - fraction.length))

/-! ## Numbers -/

/-- A number in base ten, or a float written by name. -/
def signed? (negative : Bool) (unsigned : List Char) : Option Value :=
  if unsigned = ['i', 'n', 'f'] then
    some (.float (.ofMagnitude negative Binary64.infiniteMagnitude))
  else if unsigned = ['n', 'a', 'n'] then
    some (.float (.ofMagnitude negative (Binary64.infiniteMagnitude + 0x8000000000000)))
  else if unsigned.any fun c => c == '.' || isExponentMark c then float? negative unsigned
  else decimal? negative unsigned

/-- A number. -/
def number? (cs : List Char) : Option Value :=
  match cs with
  | '0' :: 'x' :: rest => based? 16 rest
  | '0' :: 'o' :: rest => based? 8 rest
  | '0' :: 'b' :: rest => based? 2 rest
  | _ =>
    let (negative, unsigned) := sign cs
    signed? negative unsigned

/-! ## Dates and times -/

/-- Reads `count` digits. -/
def digits? (count : Nat) (cs : List Char) : Read Nat :=
  let ds := cs.take count
  if ds.length = count ∧ ds.all Char.isDigit then some (decimalValue ds, cs.drop count) else none

/-- Reads one of some characters. -/
def mark? (accepts : Char → Bool) : List Char → Option (List Char)
  | c :: rest => if accepts c then some rest else none
  | [] => none

/-- The number of days in a month. -/
def daysIn (year month : Nat) : Nat :=
  if month = 2 then
    if (year % 4 = 0 ∧ year % 100 ≠ 0) ∨ year % 400 = 0 then 29 else 28
  else if month = 4 ∨ month = 6 ∨ month = 9 ∨ month = 11 then 30
  else 31

/-- The text after a date. -/
def date? (cs : List Char) : Option (List Char) := do
  let (year, cs) ← digits? 4 cs
  let cs ← mark? (· == '-') cs
  let (month, cs) ← digits? 2 cs
  let cs ← mark? (· == '-') cs
  let (day, cs) ← digits? 2 cs
  if 1 ≤ month ∧ month ≤ 12 ∧ 1 ≤ day ∧ day ≤ daysIn year month then some cs else none

/-- The text after the seconds of a time of day and a fraction of a second, if one is next. -/
def seconds? (cs : List Char) : Option (List Char) := do
  let (second, cs) ← digits? 2 cs
  if 60 < second then none
  match cs with
  | '.' :: rest =>
    match rest.span Char.isDigit with
    | ([], _) => none
    | (_, rest) => some rest
  | _ => some cs

/-- The text after a time of day, which may end with its minutes. -/
def time? (cs : List Char) : Option (List Char) := do
  let (hour, cs) ← digits? 2 cs
  let cs ← mark? (· == ':') cs
  let (minute, cs) ← digits? 2 cs
  if 23 < hour ∨ 59 < minute then none
  match cs with
  | ':' :: rest => seconds? rest
  | _ => some cs

/-- The text after an offset from universal time. -/
def offset? (cs : List Char) : Option (List Char) :=
  match mark? (fun c => c == 'Z' || c == 'z') cs with
  | some rest => some rest
  | none => do
    let cs ← mark? (fun c => c == '+' || c == '-') cs
    let (hour, cs) ← digits? 2 cs
    let cs ← mark? (· == ':') cs
    let (minute, cs) ← digits? 2 cs
    if 23 < hour ∨ 59 < minute then none else some cs

/-- Whether a text is a date, a time of day, or both with or without an offset. -/
def isMoment (cs : List Char) : Bool :=
  match date? cs with
  | none => time? cs == some []
  | some [] => true
  | some rest =>
    match mark? (fun c => c == 'T' || c == 't' || c == ' ') rest >>= time? with
    | none => false
    | some rest => rest.isEmpty || offset? rest == some []

/-! ## Scalars -/

/-- The signs that open a string. -/
def isQuote (c : Char) : Bool := c == '"' || c == '\''

/-- Characters of a scalar without quotes: not blanks, line ends and the signs of the grammar. -/
def isScalarChar (c : Char) : Bool :=
  !(isBlank c || ['\n', '\r', '#', '=', ',', '[', ']', '{', '}'].contains c)

/-- The characters of a scalar without quotes, and the text after it. Blanks belong to the scalar if
more of it follows, as the time does after a date; a quote starts something else. -/
def spanScalar : List Char → List Char × List Char
  | [] => ([], [])
  | c :: rest =>
    if isScalarChar c then
      let (word, after) := spanScalar rest
      (c :: word, after)
    else if isBlank c && !rest.head?.any isQuote then
      match spanScalar rest with
      | ([], _) => ([], c :: rest)
      | (word, after) => (c :: word, after)
    else ([], c :: rest)

/-- The value of a scalar without quotes. -/
def scalarValue? (word : List Char) : Option Value :=
  if word = ['t', 'r', 'u', 'e'] then some (.boolean true)
  else if word = ['f', 'a', 'l', 's', 'e'] then some (.boolean false)
  else if isMoment word then some (.moment (String.ofList word))
  else number? word

/-- Reads a scalar without quotes. -/
def bareScalar? (cs : List Char) : Read Value :=
  let (word, rest) := spanScalar cs
  (scalarValue? word).map fun v => (v, rest)

end BackgroundScan.Toml
