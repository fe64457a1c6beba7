import BackgroundScan.Record.Shape

/-!
# Reading records from trees

A record is read from an object by the names of its fields or from an array by their order. The
entries of an object are visited in their order, and the first that cannot be read decides the
error; absent fields are looked for last.

An enumeration is read from the name of a variant, or from an object that maps the one name to
null.
-/

namespace BackgroundScan

namespace Shape

/-- Reads the entries of an object into a draft and finishes it. -/
def decodeEntries (s : Shape) (draft : Draft s.fields) :
    List (String × Json) → Except DecodeError (Values s.fields)
  | [] => draft.finish
  | (key, value) :: rest =>
    match draft.fill id key fun f => (f.decode value).map fun v => (v, ()) with
    | .error e => .error e
    | .ok (some (draft, ())) => s.decodeEntries draft rest
    | .ok none =>
      if s.closed then .error (.unknownField key s.names) else s.decodeEntries draft rest

/-- Reads the elements of an array into the fields in their order. Where the array is too short the
rest of the fields are absent; its total `length` is for the errors. -/
def decodeItems (s : Shape) (length : Nat) :
    (fields : List Field) → List Json → Except DecodeError (Values fields)
  | [], [] => .ok ()
  | [], _ :: _ => .error (.tooLong length)
  | f :: fields, item :: items =>
    match f.decode item with
    | .error e => .error e
    | .ok value => (s.decodeItems length fields items).map fun values => (value, values)
  | f :: fields, [] =>
    match Values.absent? (f :: fields) with
    | some values => .ok values
    | none => .error (s.tooShort length)

/-- Reads a record from a tree. -/
def decode (s : Shape) : Json → Except DecodeError (Values s.fields)
  | .object entries => s.decodeEntries (.empty s.fields) entries
  | .array items => s.decodeItems items.length s.fields items
  | value => .error (.invalidType value.head (.record s.name))

end Shape

/-- Reads a variant by its name. -/
def variantNamed {α : Type} (variants : List (String × α)) (name : String) :
    Except DecodeError α :=
  match variants.lookup name with
  | some a => .ok a
  | none => .error (.unknownVariant name (variants.map Prod.fst))

/-- Reads one of the named variants of an enumeration. -/
def decodeVariant {α : Type} (variants : List (String × α)) : Json → Except DecodeError α
  | .string name => variantNamed variants name
  | .object [(name, value)] =>
    match variantNamed variants name with
    | .error e => .error e
    | .ok a =>
      match value.head with
      | .null => .ok a
      | found => .error (.invalidType found .unit)
  | .object _ => .error .notOneKey
  | value => .error (.invalidType value.head .variant)

end BackgroundScan
