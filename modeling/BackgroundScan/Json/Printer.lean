import BackgroundScan.Json.Basic
import BackgroundScan.Number.Shortest

/-!
# JSON text of a tree

The compact form: no blanks, entries in order, every double in its shortest text. Inside a string
only quote, backslash and the control characters are escaped.
-/

namespace BackgroundScan.Json

/-- How one character is written inside a JSON string. -/
def escape (c : Char) : String :=
  if c = '"' then "\\\""
  else if c = '\\' then "\\\\"
  else if c.toNat < 0x20 then
    let digits := Nat.toDigits 16 c.toNat
    "\\u" ++ String.ofList (List.replicate (4 - digits.length) '0' ++ digits)
  else String.singleton c

/-- A string as JSON text. -/
def renderString (s : String) : String :=
  "\"" ++ String.join (s.toList.map escape) ++ "\""

/-- A number as JSON text. -/
def Number.render : Number → String
  | .integer n _ => toString n
  | .float x _ => x.text

mutual

/-- The value as JSON text. -/
def render : Json → String
  | .null => "null"
  | .bool b => if b then "true" else "false"
  | .number n => n.render
  | .string s => renderString s
  | .array items => "[" ++ String.intercalate "," (renderItems items) ++ "]"
  | .object entries => "\x7b" ++ String.intercalate "," (renderEntries entries) ++ "\x7d"

/-- The texts of the elements of an array. -/
def renderItems : List Json → List String
  | [] => []
  | item :: rest => item.render :: renderItems rest

/-- The texts of the entries of an object. -/
def renderEntries : List (String × Json) → List String
  | [] => []
  | (key, value) :: rest => (renderString key ++ ":" ++ value.render) :: renderEntries rest

end

end BackgroundScan.Json
