import BackgroundScan.Record.Shape
import BackgroundScan.Json.Reader

/-!
# Reading records from text

`Shape.decodeText` reads a record from JSON text without building its tree first. The text is read
in its order and the first problem decides: a repeated or mistyped field is found before malformed
text further on, an absent field only at the closing brace, and text after the record last of all.

The value of a key that names no field is passed over, and only its shape is looked at.
-/

namespace BackgroundScan

/-- Why no record could be read from a text. -/
inductive TextError
  /-- The text is not JSON. -/
  | malformed
  /-- The text is JSON as far as it was read, but not of this record. -/
  | decode (cause : DecodeError)
  deriving DecidableEq

/-- The head of the value the tokens begin with, and the tokens after it; for a container, those
after its opening. -/
def Json.readHead : List Json.Token → Option (Json.Head × List Json.Token)
  | .null :: rest => some (.null, rest)
  | .bool b :: rest => some (.bool b, rest)
  | .number (some n) :: rest => some (.number n, rest)
  | .string (some s) :: rest => some (.string s, rest)
  | .openBracket :: rest => some (.sequence, rest)
  | .openBrace :: rest => some (.map, rest)
  | _ => none

/-- Reads the value of a field. -/
def Field.read (f : Field) (fuel room : Nat) (tokens : List Json.Token) :
    Except TextError (f.Carrier × List Json.Token) :=
  match f.reading with
  | .scalar read =>
    match Json.readHead tokens with
    | none => .error .malformed
    | some (found, rest) =>
      match read found with
      | .error e => .error (.decode e)
      | .ok value => .ok (value, rest)
  | .tree read =>
    match Json.readValue fuel room tokens with
    | none => .error .malformed
    | some (value, rest) =>
      match read value with
      | .error e => .error (.decode e)
      | .ok value => .ok (value, rest)

namespace Shape

/-- Reads a key with its colon and its value into the draft. -/
def readMember (s : Shape) (fuel room : Nat) (draft : Draft s.fields) (key : String)
    (tokens : List Json.Token) : Except TextError (Draft s.fields × List Json.Token) :=
  let afterColon {α : Type} (read : List Json.Token → Except TextError α) : Except TextError α :=
    match tokens with
    | .colon :: rest => read rest
    | _ => .error .malformed
  match draft.fill .decode key fun f => afterColon (f.read fuel room) with
  | .error e => .error e
  | .ok (some filled) => .ok filled
  | .ok none =>
    if s.closed then .error (.decode (.unknownField key s.names))
    else afterColon fun rest =>
      match Json.skipValue fuel rest with
      | some rest => .ok (draft, rest)
      | none => .error .malformed

/-- Finishes a draft at the closing brace. -/
def readFinish (s : Shape) (draft : Draft s.fields) (rest : List Json.Token) :
    Except TextError (Values s.fields × List Json.Token) :=
  match draft.finish with
  | .error e => .error (.decode e)
  | .ok values => .ok (values, rest)

/-- Reads members up to the closing brace. -/
def readMembers (s : Shape) : (fuel room : Nat) → Draft s.fields → List Json.Token →
    Except TextError (Values s.fields × List Json.Token)
  | 0, _, _, _ => .error .malformed
  | fuel + 1, room, draft, tokens =>
    match tokens with
    | .string (some key) :: rest =>
      match s.readMember fuel room draft key rest with
      | .error e => .error e
      | .ok (draft, .comma :: rest) => s.readMembers fuel room draft rest
      | .ok (draft, .closeBrace :: rest) => s.readFinish draft rest
      | .ok _ => .error .malformed
    | _ => .error .malformed

/-- The tokens of the next element of an array, of which `count` were read; `none` if the array
ends here. -/
def nextElement (count : Nat) (tokens : List Json.Token) :
    Except TextError (Option (List Json.Token)) :=
  match count, tokens with
  | _, .closeBracket :: _ => .ok none
  | 0, tokens => .ok (some tokens)
  | _ + 1, .comma :: .closeBracket :: _ => .error .malformed
  | _ + 1, .comma :: rest => .ok (some rest)
  | _ + 1, _ => .error .malformed

/-- Reads elements into the fields in their order, `count` of them before; the tokens returned
begin with the closing bracket, unless there are more elements than fields. -/
def readElements (s : Shape) (room : Nat) :
    (fuel count : Nat) → (fields : List Field) → List Json.Token →
    Except TextError (Values fields × List Json.Token)
  | _, _, [], tokens => .ok ((), tokens)
  | 0, _, _ :: _, _ => .error .malformed
  | fuel + 1, count, f :: fields, tokens =>
    match nextElement count tokens with
    | .error e => .error e
    | .ok none =>
      match Values.absent? (f :: fields) with
      | some values => .ok (values, tokens)
      | none => .error (.decode (s.tooShort count))
    | .ok (some tokens) =>
      match f.read fuel room tokens with
      | .error e => .error e
      | .ok (value, rest) =>
        match s.readElements room fuel (count + 1) fields rest with
        | .error e => .error e
        | .ok (values, rest) => .ok ((value, values), rest)

/-- Reads a record from tokens. -/
def read (s : Shape) (fuel room : Nat) (tokens : List Json.Token) :
    Except TextError (Values s.fields × List Json.Token) :=
  match tokens with
  | .openBrace :: .closeBrace :: rest => s.readFinish (.empty s.fields) rest
  | .openBrace :: rest => s.readMembers fuel room (.empty s.fields) rest
  | .openBracket :: rest =>
    match s.readElements room fuel 0 s.fields rest with
    | .error e => .error e
    | .ok (values, .closeBracket :: rest) => .ok (values, rest)
    | .ok _ => .error .malformed
  | tokens =>
    match Json.readHead tokens with
    | none => .error .malformed
    | some (found, _) => .error (.decode (.invalidType found (.record s.name)))

/-- The record a text holds, if the text is one record and nothing else. -/
def decodeText (s : Shape) (text : String) : Except TextError (Values s.fields) :=
  let tokens := Json.Token.scan text
  match s.read (Json.fuelFor tokens) (Json.maxNesting - 1) tokens with
  | .error e => .error e
  | .ok (values, []) => .ok values
  | .ok _ => .error .malformed

end Shape

end BackgroundScan
