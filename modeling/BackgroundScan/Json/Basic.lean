import BackgroundScan.Number.Binary64

/-!
# JSON trees

A number is either an integer that fits one of the two 64-bit ranges, signed or unsigned, or a
finite double; `1` and `1.0` are different trees. An object is a list of entries in the order in
which their keys first appeared. `Json.put` is how a reader builds one: a repeated key keeps its
first place and takes the last value, so that no key is ever listed twice (`nodup_keys_put`).

`Json.head` is all that a scalar field or an error message looks at, and `Json.nesting` counts
containers inside one another.
-/

namespace BackgroundScan

/-- A JSON number: an integer of 64 bits or a finite double. -/
inductive Json.Number
  | integer (n : Int) (inRange : -0x8000000000000000 ≤ n ∧ n < 0x10000000000000000)
  | float (x : Binary64) (finite : x.isFinite = true)
  deriving DecidableEq

/-- A JSON value. -/
inductive Json
  | null
  | bool (b : Bool)
  | number (n : Json.Number)
  | string (s : String)
  | array (items : List Json)
  | object (entries : List (String × Json))
  deriving Inhabited

namespace Json

/-- The integer `n` as a number, if one of the 64-bit ranges holds it. -/
def Number.ofInt? (n : Int) : Option Number :=
  if h : -0x8000000000000000 ≤ n ∧ n < 0x10000000000000000 then some (.integer n h) else none

/-- The double `x` as a number, if it is finite. -/
def Number.ofBinary64? (x : Binary64) : Option Number :=
  if h : x.isFinite = true then some (.float x h) else none

/-- A value without what its containers hold. -/
inductive Head
  | null
  | bool (b : Bool)
  | number (n : Number)
  | string (s : String)
  | sequence
  | map
  deriving DecidableEq

/-- What kind of value this is, with the value itself if it is a scalar. -/
def head : Json → Head
  | .null => .null
  | .bool b => .bool b
  | .number n => .number n
  | .string s => .string s
  | .array _ => .sequence
  | .object _ => .map

/-- The elements of an array. -/
def items? : Json → Option (List Json)
  | .array items => some items
  | _ => none

/-- The entries of an object. -/
def entries? : Json → Option (List (String × Json))
  | .object entries => some entries
  | _ => none

/-- The keys of an object, in order. -/
def keys (entries : List (String × Json)) : List String := entries.map Prod.fst

/-- The value of a key. -/
def find? (key : String) : List (String × Json) → Option Json
  | [] => none
  | (k, v) :: rest => if k = key then some v else find? key rest

/-- Gives `key` the value `value`: in the place it has, or at the end. -/
def put (key : String) (value : Json) : List (String × Json) → List (String × Json)
  | [] => [(key, value)]
  | (k, v) :: rest => if k = key then (k, value) :: rest else (k, v) :: put key value rest

mutual

/-- How many containers lie inside one another: none for a scalar, one for an empty container. -/
def nesting : Json → Nat
  | .array items => nestingItems items + 1
  | .object entries => nestingEntries entries + 1
  | _ => 0

/-- The largest nesting among the elements of an array. -/
def nestingItems : List Json → Nat
  | [] => 0
  | item :: rest => max item.nesting (nestingItems rest)

/-- The largest nesting among the values of an object. -/
def nestingEntries : List (String × Json) → Nat
  | [] => 0
  | (_, value) :: rest => max value.nesting (nestingEntries rest)

end

theorem mem_keys_put {key k : String} {value : Json} {entries : List (String × Json)} :
    k ∈ keys (put key value entries) ↔ k = key ∨ k ∈ keys entries := by
  induction entries with
  | nil => simp [put, keys]
  | cons entry rest ih =>
    obtain ⟨first, v⟩ := entry
    simp only [keys] at ih
    by_cases h : first = key
    · subst h
      simp [put, keys]
    · simp only [put, keys, h, ↓reduceIte, List.map_cons, List.mem_cons, ih]
      exact or_left_comm

theorem nodup_keys_put {key : String} {value : Json} {entries : List (String × Json)}
    (h : (keys entries).Nodup) : (keys (put key value entries)).Nodup := by
  induction entries with
  | nil => simp [put, keys]
  | cons entry rest ih =>
    obtain ⟨first, v⟩ := entry
    simp only [keys, List.map_cons, List.nodup_cons] at h
    by_cases hk : first = key
    · subst hk
      simpa [put, keys] using h
    · have hmem : first ∉ keys (put key value rest) := by
        rw [mem_keys_put]
        rintro (he | he)
        · exact hk he
        · exact h.1 he
      simp only [put, hk, ↓reduceIte]
      exact List.nodup_cons.mpr ⟨hmem, ih h.2⟩

theorem find?_put_self {key : String} {value : Json} {entries : List (String × Json)} :
    find? key (put key value entries) = some value := by
  induction entries with
  | nil => simp [put, find?]
  | cons entry rest ih =>
    obtain ⟨first, v⟩ := entry
    by_cases h : first = key
    · simp [put, find?, h]
    · simp [put, find?, h, ih]

theorem find?_put_of_ne {key other : String} (hne : other ≠ key) {value : Json}
    {entries : List (String × Json)} : find? key (put other value entries) = find? key entries := by
  induction entries with
  | nil => simp [put, find?, hne]
  | cons entry rest ih =>
    obtain ⟨first, v⟩ := entry
    by_cases h : first = other
    · subst h
      simp [put, find?, hne]
    · simp [put, find?, h, ih]

end Json

end BackgroundScan
