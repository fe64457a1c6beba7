import BackgroundScan.Json.Basic
import BackgroundScan.Number.Scaled

/-!
# The tokens of a JSON text

`Token.scan` splits a text into its tokens and leaves out the blanks between them. Where no token
begins, the list ends with `malformed`; whoever reads the tokens in order meets that only after all
that stands before it.

Two kinds of token are well formed and still stand for no value: a number past every double, and a
string with half of a surrogate pair. They carry `none`, so that a reader that skips a value can
accept what a reader that wants it must refuse.
-/

namespace BackgroundScan.Json

/-- One token of a JSON text. -/
inductive Token
  | openBrace
  | closeBrace
  | openBracket
  | closeBracket
  | colon
  | comma
  | null
  | bool (b : Bool)
  | number (value : Option Number)
  | string (value : Option String)
  | malformed
  deriving DecidableEq

namespace Token

/-- The characters that may stand between tokens. -/
def isBlank (c : Char) : Bool := c == ' ' || c == '\t' || c == '\n' || c == '\r'

/-- The digits a text starts with, and the rest of it. -/
def spanDigits (cs : List Char) : List Char × List Char :=
  (cs.takeWhile Char.isDigit, cs.dropWhile Char.isDigit)

/-- The number that decimal digits stand for. -/
def digitsValue (ds : List Char) : Nat := ds.foldl (fun n d => 10 * n + (d.toNat - 48)) 0

/-! ## Numbers -/

/-- The parts of a number as it is written. -/
structure Numeral where
  /-- Whether it starts with a minus sign. -/
  negative : Bool
  /-- The digits before the point. -/
  whole : List Char
  /-- The digits after the point, if there is one. -/
  fraction : Option (List Char)
  /-- The sign and the digits of the exponent, if there is one. -/
  exponent : Option (Bool × List Char)
  /-- How many characters it takes. -/
  width : Nat

/-- The digits before the point: a zero that no digit follows, or digits that start with none. -/
def wholePart (cs : List Char) : Option (List Char × List Char) :=
  match spanDigits cs with
  | ([], _) => none
  | (['0'], rest) => some (['0'], rest)
  | ('0' :: _, _) => none
  | (ds, rest) => some (ds, rest)

/-- The point and the digits after it, of which there is at least one. -/
def fractionPart (cs : List Char) : Option (Option (List Char) × List Char) :=
  match cs with
  | '.' :: rest =>
    match spanDigits rest with
    | ([], _) => none
    | (ds, rest) => some (some ds, rest)
  | _ => some (none, cs)

/-- The sign of an exponent, and its width. -/
def exponentSign (cs : List Char) : Bool × Nat × List Char :=
  match cs with
  | '-' :: rest => (true, 1, rest)
  | '+' :: rest => (false, 1, rest)
  | _ => (false, 0, cs)

/-- The exponent with its width; it has at least one digit. -/
def exponentPart (cs : List Char) : Option (Option (Bool × List Char) × Nat) :=
  let digitsAfter (rest : List Char) :=
    let (negative, signWidth, rest) := exponentSign rest
    match spanDigits rest with
    | ([], _) => none
    | (ds, _) => some (some (negative, ds), 1 + signWidth + ds.length)
  match cs with
  | 'e' :: rest => digitsAfter rest
  | 'E' :: rest => digitsAfter rest
  | _ => some (none, 0)

/-- The number a text starts with. -/
def numeral? (cs : List Char) : Option Numeral := do
  let (negative, unsigned) := match cs with
    | '-' :: rest => (true, rest)
    | _ => (false, cs)
  let (whole, rest) ← wholePart unsigned
  let (fraction, rest) ← fractionPart rest
  let (exponent, exponentWidth) ← exponentPart rest
  let fractionWidth := match fraction with
    | some ds => 1 + ds.length
    | none => 0
  return ⟨negative, whole, fraction, exponent,
    (if negative then 1 else 0) + whole.length + fractionWidth + exponentWidth⟩

/-- Puts digits behind a significand as long as 64 bits hold it. The first that does not fit is
left, with all that come after it. -/
def appendDigits (significand : Nat) : List Char → Nat × List Char
  | [] => (significand, [])
  | d :: rest =>
    let longer := 10 * significand + (d.toNat - 48)
    if longer ≤ 0xFFFFFFFFFFFFFFFF then appendDigits longer rest else (significand, d :: rest)

/-- The double a numeral is read as, an infinity included.

Of its digits only those count that the significand holds, and digits before the point for which
there is no room still count as places. An exponent past 32 bits is taken to be without end. -/
def Numeral.double (n : Numeral) : Binary64 :=
  let fraction := n.fraction.getD []
  let (whole, skipped) := appendDigits 0 n.whole
  let (significand, ignored) := appendDigits whole fraction
  let places : Int := (skipped.length : Int) - (fraction.length - ignored.length : Int)
  match n.exponent with
  | none => .scaled n.negative significand places
  | some (negative, ds) =>
    let exponent := digitsValue ds
    if 0x7FFFFFFF < exponent then
      .ofMagnitude n.negative
        (if significand = 0 ∨ negative then 0 else Binary64.infiniteMagnitude)
    else if negative then .scaled n.negative significand (places - exponent)
    else .scaled n.negative significand (places + exponent)

/-- The number a numeral stands for.

Without point and exponent it is an integer if one of the ranges holds it, with the exception of
minus zero, which keeps its sign as a double. Every other numeral is a double. -/
def Numeral.value (n : Numeral) : Option Number :=
  let integer : Option Number := match n.fraction, n.exponent with
    | none, none =>
      let magnitude := digitsValue n.whole
      if n.negative then (if magnitude = 0 then none else Number.ofInt? (-(magnitude : Int)))
      else Number.ofInt? magnitude
    | _, _ => none
  integer.orElse fun _ => Number.ofBinary64? n.double

/-! ## Strings -/

/-- The value of a hexadecimal digit. -/
def hexDigit? (c : Char) : Option Nat :=
  if '0' ≤ c ∧ c ≤ '9' then some (c.toNat - 48)
  else if 'a' ≤ c ∧ c ≤ 'f' then some (c.toNat - 87)
  else if 'A' ≤ c ∧ c ≤ 'F' then some (c.toNat - 55)
  else none

/-- The value of four hexadecimal digits. -/
def hexUnit? (a b c d : Char) : Option Nat := do
  return (((← hexDigit? a) * 16 + (← hexDigit? b)) * 16 + (← hexDigit? c)) * 16 + (← hexDigit? d)

/-- The character a backslash and a letter stand for. -/
def shortEscape? (c : Char) : Option Char :=
  match c with
  | '"' => some '"'
  | '\\' => some '\\'
  | '/' => some '/'
  | 'b' => some '\x08'
  | 'f' => some '\x0c'
  | 'n' => some '\n'
  | 'r' => some '\r'
  | 't' => some '\t'
  | _ => none

/-- A string half read. -/
structure Partial where
  /-- The characters so far, the last one first. -/
  reversed : List Char
  /-- The first half of a surrogate pair that still waits for its second. -/
  lead : Option Nat
  /-- Whether all surrogates so far came in pairs. -/
  paired : Bool
  /-- How many characters of the text were read. -/
  width : Nat

/-- Adds a character that took `width` characters of the text. -/
def Partial.push (p : Partial) (c : Char) (width : Nat) : Partial :=
  ⟨c :: p.reversed, none, p.paired && p.lead.isNone, p.width + width⟩

/-- Adds a unit of sixteen bits, which may be half of a surrogate pair. -/
def Partial.pushUnit (p : Partial) (unit : Nat) : Partial :=
  if 0xD800 ≤ unit ∧ unit < 0xDC00 then
    ⟨p.reversed, some unit, p.paired && p.lead.isNone, p.width + 6⟩
  else if 0xDC00 ≤ unit ∧ unit < 0xE000 then
    match p.lead with
    | some lead =>
      ⟨Char.ofNat (0x10000 + (lead - 0xD800) * 0x400 + (unit - 0xDC00)) :: p.reversed, none,
        p.paired, p.width + 6⟩
    | none => ⟨p.reversed, none, false, p.width + 6⟩
  else p.push (Char.ofNat unit) 6

/-- The text of a finished string, if its surrogates came in pairs. -/
def Partial.text (p : Partial) : Option String :=
  if p.paired && p.lead.isNone then some (String.ofList p.reversed.reverse) else none

/-- Reads a string from after its opening quote to its closing quote; `none` where an escape is
unknown, a control character stands bare or the text ends. -/
def stringBody (p : Partial) : List Char → Option (Option String × Nat)
  | [] => none
  | c :: rest =>
    if c = '"' then some (p.text, p.width + 1)
    else if c = '\\' then
      match rest with
      | 'u' :: h₁ :: h₂ :: h₃ :: h₄ :: rest =>
        match hexUnit? h₁ h₂ h₃ h₄ with
        | some unit => stringBody (p.pushUnit unit) rest
        | none => none
      | e :: rest =>
        match shortEscape? e with
        | some escaped => stringBody (p.push escaped 2) rest
        | none => none
      | [] => none
    else if c.toNat < 0x20 then none
    else stringBody (p.push c 1) rest

/-! ## Lexemes -/

/-- The token a text starts with, and how many characters it takes. -/
def lexeme (cs : List Char) : Option (Token × Nat) :=
  match cs with
  | '{' :: _ => some (openBrace, 1)
  | '}' :: _ => some (closeBrace, 1)
  | '[' :: _ => some (openBracket, 1)
  | ']' :: _ => some (closeBracket, 1)
  | ':' :: _ => some (colon, 1)
  | ',' :: _ => some (comma, 1)
  | 'n' :: 'u' :: 'l' :: 'l' :: _ => some (null, 4)
  | 't' :: 'r' :: 'u' :: 'e' :: _ => some (bool true, 4)
  | 'f' :: 'a' :: 'l' :: 's' :: 'e' :: _ => some (bool false, 5)
  | '"' :: rest =>
    (stringBody ⟨[], none, true, 1⟩ rest).map fun (text, width) => (string text, width)
  | _ => (numeral? cs).map fun n => (number n.value, n.width)

/-- The tokens of a text whose first `skip` characters belong to a token already found. -/
def scanFrom : (skip : Nat) → List Char → List Token
  | _, [] => []
  | skip + 1, _ :: rest => scanFrom skip rest
  | 0, c :: rest =>
    if isBlank c then scanFrom 0 rest
    else match lexeme (c :: rest) with
      | some (token, width) => token :: scanFrom (width - 1) rest
      | none => [malformed]

/-- The tokens of a text. -/
def scan (text : String) : List Token := scanFrom 0 text.toList

end Token

end BackgroundScan.Json
