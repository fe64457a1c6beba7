import BackgroundScan.Record.Scalar

/-!
# The shape of a record

A `Shape` lists the fields of a record in the order of their declaration. Each field has a name,
perhaps a second one, the type of what it holds, how that is read, and what it holds when it is
absent, if it may be.

`Values` are the contents of a record, one for each field; a `Draft` is a record under way, in
which a field may still be empty. `Draft.fill` finds the field a key belongs to and fills it once,
and `Draft.finish` closes the draft. The readers for trees and for text share both.
-/

namespace BackgroundScan

/-- How a field reads its value: from the head alone, or from the whole tree. -/
inductive Reading (α : Type)
  | scalar (read : Scalar α)
  | tree (read : Json → Except DecodeError α)

/-- One field of a record. -/
structure Field where
  /-- Its name. -/
  name : String
  /-- A second name it answers to. -/
  secondName : Option String
  /-- What it holds. -/
  Carrier : Type
  /-- How its value is read. -/
  reading : Reading Carrier
  /-- What it holds when it is absent; `none` if it must be given. -/
  absent : Option Carrier

namespace Field

/-- A scalar that must be given. -/
def required {α : Type} (name : String) (read : Scalar α) : Field :=
  ⟨name, none, α, .scalar read, none⟩

/-- A scalar with a default. -/
def defaulted {α : Type} (name : String) (read : Scalar α) (value : α) : Field :=
  ⟨name, none, α, .scalar read, some value⟩

/-- A scalar that may be absent or null. -/
def optional {α : Type} (name : String) (read : Scalar α) : Field :=
  ⟨name, none, Option α, .scalar read.optional, some none⟩

/-- Whether a key names this field. -/
def accepts (f : Field) (key : String) : Bool := f.name == key || f.secondName == some key

/-- Reads the field from a tree. -/
def decode (f : Field) (value : Json) : Except DecodeError f.Carrier :=
  match f.reading with
  | .scalar read => read value.head
  | .tree read => read value

end Field

/-- The shape of a record. -/
structure Shape where
  /-- The name of the record in messages. -/
  name : String
  /-- Its fields in the order of their declaration. -/
  fields : List Field
  /-- Whether a key of no field is an error. -/
  closed : Bool

/-- The contents of a record. -/
def Values : List Field → Type
  | [] => Unit
  | f :: rest => f.Carrier × Values rest

/-- A record in which fields may still be empty. -/
def Draft : List Field → Type
  | [] => Unit
  | f :: rest => Option f.Carrier × Draft rest

namespace Draft

/-- The draft with every field empty. -/
def empty : (fields : List Field) → Draft fields
  | [] => ()
  | _ :: rest => (none, empty rest)

/-- Reads a value into the field that `key` names. A field that was filled before is an error, met
before the value is read; a key of no field gives `none`.

`read` reads the value for a field and returns what comes after it, and `fail` embeds the errors
of this function among those of `read`. -/
def fill {ε γ : Type} (fail : DecodeError → ε) (key : String)
    (read : (f : Field) → Except ε (f.Carrier × γ)) :
    {fields : List Field} → Draft fields → Except ε (Option (Draft fields × γ))
  | [], _ => .ok none
  | f :: _, (slot, rest) =>
    if f.accepts key then
      match slot with
      | some _ => .error (fail (.duplicateField f.name))
      | none => (read f).map fun (value, after) => some ((some value, rest), after)
    else
      (rest.fill fail key read).map fun found =>
        found.map fun (rest, after) => ((slot, rest), after)

/-- The contents of the record: an empty field takes what it holds when absent, and the first that
may not be absent is an error. -/
def finish : {fields : List Field} → Draft fields → Except DecodeError (Values fields)
  | [], _ => .ok ()
  | f :: _, (slot, rest) =>
    match slot.or f.absent with
    | some value => rest.finish.map fun values => (value, values)
    | none => .error (.missingField f.name)

end Draft

/-- The contents when every field from here on is absent; `none` if one may not be. -/
def Values.absent? : (fields : List Field) → Option (Values fields)
  | [] => some ()
  | f :: rest => do
    let value ← f.absent
    let values ← absent? rest
    return (value, values)

namespace Shape

/-- The names of the fields. -/
def names (s : Shape) : List String := s.fields.map Field.name

/-- The error for an array of `length` elements that end before a field that must be given. -/
def tooShort (s : Shape) (length : Nat) : DecodeError :=
  .tooShort length s.name s.fields.length

end Shape

end BackgroundScan
