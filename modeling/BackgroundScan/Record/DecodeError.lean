import BackgroundScan.Json.Basic
import BackgroundScan.Number.Shortest
import BackgroundScan.Text.Quoted

/-!
# Why a value could not be decoded

A `DecodeError` is the cause of a failed decoding, and `DecodeError.message` words it. What was
found is shown by its head: a scalar with its value, a container by its kind alone.
-/

namespace BackgroundScan

/-- The integer types a field may have. -/
inductive IntegerKind
  | byte
  | word
  | long
  | size
  | signed
  deriving DecidableEq, Repr

/-- The name of an integer type in messages. -/
def IntegerKind.name : IntegerKind → String
  | .byte => "u8"
  | .word => "u32"
  | .long => "u64"
  | .size => "usize"
  | .signed => "i64"

/-- The least integer of a type. -/
def IntegerKind.low : IntegerKind → Int
  | .signed => -0x8000000000000000
  | _ => 0

/-- The least integer past a type. -/
def IntegerKind.bound : IntegerKind → Int
  | .byte => 0x100
  | .word => 0x100000000
  | .long => 0x10000000000000000
  | .size => 0x10000000000000000
  | .signed => 0x8000000000000000

/-- What a decoder wanted to find. -/
inductive Expectation
  | integer (kind : IntegerKind)
  | boolean
  | string
  | unit
  | variant
  | record (name : String)
  deriving DecidableEq

/-- What a decoder wanted, in words. -/
def Expectation.text : Expectation → String
  | .integer kind => kind.name
  | .boolean => "a boolean"
  | .string => "a string"
  | .unit => "unit"
  | .variant => "string or map"
  | .record name => "struct " ++ name

/-- The cause of a failed decoding. -/
inductive DecodeError
  /-- A value of the wrong kind. -/
  | invalidType (found : Json.Head) (wanted : Expectation)
  /-- An integer that its type does not hold. -/
  | outOfRange (found : Int) (wanted : IntegerKind)
  /-- An array with too few elements for the fields of a record. -/
  | tooShort (length : Nat) (record : String) (fields : Nat)
  /-- An array with more elements than a record has fields. -/
  | tooLong (length : Nat)
  /-- A key that a closed record does not have. -/
  | unknownField (key : String) (known : List String)
  /-- A field that is there twice. -/
  | duplicateField (name : String)
  /-- A field that must be given and is not. -/
  | missingField (name : String)
  /-- A name that is none of an enumeration. -/
  | unknownVariant (name : String) (known : List String)
  /-- An object that does not name a variant, because it has no key or several. -/
  | notOneKey
  deriving DecidableEq

/-- A name between backticks. -/
def tick (s : String) : String := "`" ++ s ++ "`"

/-- What was found, in words. -/
def Json.Head.text : Json.Head → String
  | .null => "null"
  | .bool b => "boolean " ++ tick (if b then "true" else "false")
  | .number (.integer n _) => "integer " ++ tick (toString n)
  | .number (.float x _) => "floating point " ++ tick x.text
  | .string s => "string " ++ Text.quoted s
  | .sequence => "sequence"
  | .map => "map"

/-- The names that would have been accepted: one or two by themselves, more of them as a list. -/
def alternatives : List String → String
  | [a] => tick a
  | [a, b] => tick a ++ " or " ++ tick b
  | names => "one of " ++ String.intercalate ", " (names.map tick)

/-- The wording of a decode error. -/
def DecodeError.message : DecodeError → String
  | .invalidType found wanted => "invalid type: " ++ found.text ++ ", expected " ++ wanted.text
  | .outOfRange found wanted =>
    "invalid value: integer " ++ tick (toString found) ++ ", expected " ++ wanted.name
  | .tooShort length record fields =>
    "invalid length " ++ toString length ++ ", expected struct " ++ record ++ " with "
      ++ toString fields ++ " elements"
  | .tooLong length =>
    "invalid length " ++ toString length ++ ", expected fewer elements in array"
  | .unknownField key known =>
    "unknown field " ++ tick key ++ ", expected " ++ alternatives known
  | .duplicateField name => "duplicate field " ++ tick name
  | .missingField name => "missing field " ++ tick name
  | .unknownVariant name known =>
    "unknown variant " ++ tick name ++ ", expected " ++ alternatives known
  | .notOneKey => "invalid value: map, expected map with a single key"

end BackgroundScan
