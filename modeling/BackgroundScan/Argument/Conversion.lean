import BackgroundScan.Argument.Value
import BackgroundScan.Failure

/-!
# Converting arguments

`convertArguments` turns a JSON array into the argument list of a function. It refuses what is not
an array, then an array of too many elements, and then the first element, in order, that holds an
integer past the signed range or nests too deep. Inside an element the first problem in reading
order counts, and a container that is too deep is refused before anything in it is looked at.
-/

namespace BackgroundScan

/-- Limits on arguments. -/
structure Limits where
  /-- How deep containers may nest inside an argument. -/
  maxDepth : UInt64
  /-- How many arguments there may be. -/
  maxArgs : UInt64
  deriving DecidableEq, Repr

/-- The limits where none are configured. -/
def Limits.standard : Limits := ⟨10, 1024⟩

/-- What is wrong with one argument. -/
inductive ArgumentError
  /-- An integer past the signed range. -/
  | outOfRange (n : Int)
  /-- A container nested deeper than the limit. -/
  | tooDeep (limit : UInt64)
  deriving DecidableEq

/-- Why arguments cannot be converted. -/
inductive ConversionError
  | notAList
  | tooMany (count : Nat) (limit : UInt64)
  | argument (index : Nat) (cause : ArgumentError)
  deriving DecidableEq

/-- The wording of what is wrong with an argument. -/
def ArgumentError.message : ArgumentError → String
  | .outOfRange n => "integer " ++ toString n ++ " out of range"
  | .tooDeep limit => "nesting depth exceeds limit of " ++ toString limit.toNat

/-- The wording of a conversion error. -/
def ConversionError.message : ConversionError → String
  | .notAList => "arguments should be a list"
  | .tooMany count limit =>
    "too many arguments: " ++ toString count ++ " exceeds limit of " ++ toString limit.toNat
  | .argument index cause => "argument " ++ toString index ++ ": " ++ cause.message

/-- The failure of a call whose arguments cannot be converted. -/
def ConversionError.failure (e : ConversionError) : Failure := ⟨.conversion, e.message⟩

mutual

/-- Converts a value that, if it is a container, is number `depth` of the containers around what it
holds. -/
def convertValue (limits : Limits) (depth : Nat) : Json → Except ArgumentError Value
  | .null => .ok .nil
  | .bool b => .ok (.bool b)
  | .number (.integer n _) =>
    if n < 0x8000000000000000 then .ok (.integer (Int64.ofInt n)) else .error (.outOfRange n)
  | .number (.float x _) => .ok (.float x)
  | .string s => .ok (.string s)
  | .array items =>
    if limits.maxDepth.toNat < depth then .error (.tooDeep limits.maxDepth)
    else (convertItems limits (depth + 1) items).map .list
  | .object entries =>
    if limits.maxDepth.toNat < depth then .error (.tooDeep limits.maxDepth)
    else (convertEntries limits (depth + 1) entries).map .map

/-- Converts the elements of an array. -/
def convertItems (limits : Limits) (depth : Nat) : List Json → Except ArgumentError (List Value)
  | [] => .ok []
  | item :: rest =>
    match convertValue limits depth item with
    | .error e => .error e
    | .ok v => (convertItems limits depth rest).map (v :: ·)

/-- Converts the entries of an object. -/
def convertEntries (limits : Limits) (depth : Nat) :
    List (String × Json) → Except ArgumentError (List (String × Value))
  | [] => .ok []
  | (key, value) :: rest =>
    match convertValue limits depth value with
    | .error e => .error e
    | .ok v => (convertEntries limits depth rest).map ((key, v) :: ·)

end

/-- Converts arguments of which the first has the given index. -/
def convertFrom (limits : Limits) (index : Nat) : List Json → Except ConversionError (List Value)
  | [] => .ok []
  | item :: rest =>
    match convertValue limits 1 item with
    | .error e => .error (.argument index e)
    | .ok v => (convertFrom limits (index + 1) rest).map (v :: ·)

/-- Converts an array into an argument list. -/
def convertArguments (limits : Limits) (raw : Json) : Except ConversionError (List Value) :=
  match raw.items? with
  | none => .error .notAList
  | some items =>
    if limits.maxArgs.toNat < items.length then .error (.tooMany items.length limits.maxArgs)
    else convertFrom limits 0 items

end BackgroundScan
