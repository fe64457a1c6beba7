import BackgroundScan.Number.Binary64

/-!
# TOML values

The values of a TOML document. The entries of a table keep the order in which they were written;
dates and times are kept as their text. A number can be written in a way that the grammar of a
document lets pass though it has no value here. That is a fault only where the number is looked at;
`Value.isReadable` says that there is none inside a value.
-/

namespace BackgroundScan.Toml

/-- A TOML value. -/
inductive Value
  | string (s : String)
  | integer (n : Int)
  | float (x : Binary64)
  | boolean (b : Bool)
  /-- A number without a value: out of range, without digits, or with characters that are none. -/
  | unreadable
  | moment (text : String)
  | array (items : List Value)
  | table (entries : List (String × Value))
  deriving Inhabited

mutual

/-- Whether every number in a value can be read. -/
def Value.isReadable : Value → Bool
  | .unreadable => false
  | .array items => allReadable items
  | .table entries => entriesReadable entries
  | _ => true

/-- Whether every number in a list of values can be read. -/
def allReadable : List Value → Bool
  | [] => true
  | v :: rest => v.isReadable && allReadable rest

/-- Whether every number in the entries of a table can be read. -/
def entriesReadable : List (String × Value) → Bool
  | [] => true
  | (_, v) :: rest => v.isReadable && entriesReadable rest

end

end BackgroundScan.Toml
