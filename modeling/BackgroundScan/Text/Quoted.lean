import BackgroundScan.Text.Unprintable

/-!
# Text in quotes

A text is quoted for a message between double quotes. Quote and backslash get a backslash; newline,
carriage return, tab and the null character have a letter each; every other character that has no
shape of its own is written by its code point. All the others stand for themselves.
-/

namespace BackgroundScan.Text

/-- A code point in hexadecimal between braces. -/
def codePoint (c : Char) : String :=
  "\\u\x7b" ++ String.ofList (Nat.toDigits 16 c.toNat) ++ "\x7d"

/-- How one character is written between quotes. -/
def escape (c : Char) : String :=
  match c with
  | '"' => "\\\""
  | '\\' => "\\\\"
  | '\n' => "\\n"
  | '\r' => "\\r"
  | '\t' => "\\t"
  | '\x00' => "\\0"
  | c => if isUnprintable c then codePoint c else String.singleton c

/-- The text between double quotes. -/
def quoted (s : String) : String :=
  "\"" ++ String.join (s.toList.map escape) ++ "\""

end BackgroundScan.Text
