import BackgroundScan.Json.Basic

/-!
# Argument values

The values that a function gets as its arguments. A map keeps the order in which its keys were
given. Two values are `sameAs` each other when they have the same shape with equal scalars; doubles
compare as the floating-point standard does, and maps with their keys in the same order.

`Value.embed` writes a value back as JSON.
-/

namespace BackgroundScan

/-- A value passed to a function. -/
inductive Value
  | nil
  | bool (b : Bool)
  | integer (n : Int64)
  | float (x : Binary64)
  | string (s : String)
  | list (items : List Value)
  | map (entries : List (String × Value))
  deriving Inhabited

namespace Value

mutual

/-- Equality of values. -/
def sameAs : Value → Value → Bool
  | .nil, .nil => true
  | .bool a, .bool b => a == b
  | .integer a, .integer b => a == b
  | .float a, .float b => a.sameNumber b
  | .string a, .string b => a == b
  | .list as, .list bs => sameItems as bs
  | .map as, .map bs => sameEntries as bs
  | _, _ => false

/-- Equality of lists of values. -/
def sameItems : List Value → List Value → Bool
  | [], [] => true
  | a :: as, b :: bs => a.sameAs b && sameItems as bs
  | _, _ => false

/-- Equality of lists of entries. -/
def sameEntries : List (String × Value) → List (String × Value) → Bool
  | [], [] => true
  | (k, a) :: as, (l, b) :: bs => k == l && a.sameAs b && sameEntries as bs
  | _, _ => false

end

/-- A 64-bit integer as a JSON number. -/
def embedInteger (n : Int64) : Json :=
  .number (.integer n.toInt (by have := n.le_toInt; have := n.toInt_lt; omega))

/-- A double as a JSON number; one that is not finite has none and becomes null. -/
def embedFloat (x : Binary64) : Json :=
  match Json.Number.ofBinary64? x with
  | some n => .number n
  | none => .null

mutual

/-- The JSON of a value. -/
def embed : Value → Json
  | .nil => .null
  | .bool b => .bool b
  | .integer n => embedInteger n
  | .float x => embedFloat x
  | .string s => .string s
  | .list items => .array (embedItems items)
  | .map entries => .object (embedEntries entries)

/-- The JSON of the items of a list. -/
def embedItems : List Value → List Json
  | [] => []
  | v :: rest => v.embed :: embedItems rest

/-- The JSON of the entries of a map. -/
def embedEntries : List (String × Value) → List (String × Json)
  | [] => []
  | (k, v) :: rest => (k, v.embed) :: embedEntries rest

end

end Value

end BackgroundScan
