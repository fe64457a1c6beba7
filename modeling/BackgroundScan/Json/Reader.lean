import BackgroundScan.Json.Token

/-!
# Reading JSON

`Json.parse` reads a whole text as one value. Containers nest at most `room` deep, the outermost
one included; `Json.maxNesting` is the room that texts from outside get.

The readers take tokens from the front of a list and return the rest. Each call takes one unit of
fuel, and two units per token are enough, because a call that takes no token itself is followed by
one that does.

`skip` passes over a value without building it. It accepts what has the shape of a value: neither
nesting nor a number past every double nor half a surrogate pair stops it.
-/

namespace BackgroundScan.Json

/-- How deep containers may nest in a text from outside. -/
def maxNesting : Nat := 127

/-- Fuel that suffices inside the outermost container of a text. -/
def fuelFor (tokens : List Token) : Nat := 2 * tokens.length + 1

mutual

/-- Reads one value. -/
def readValue : (fuel room : Nat) → List Token → Option (Json × List Token)
  | 0, _, _ => none
  | fuel + 1, room, tokens =>
    match tokens with
    | .null :: rest => some (.null, rest)
    | .bool b :: rest => some (.bool b, rest)
    | .number (some n) :: rest => some (.number n, rest)
    | .string (some s) :: rest => some (.string s, rest)
    | .openBracket :: rest =>
      match room with
      | 0 => none
      | room + 1 =>
        match rest with
        | .closeBracket :: rest => some (.array [], rest)
        | _ => (readItems fuel room rest).map fun (items, rest) => (.array items, rest)
    | .openBrace :: rest =>
      match room with
      | 0 => none
      | room + 1 =>
        match rest with
        | .closeBrace :: rest => some (.object [], rest)
        | _ => (readMembers fuel room [] rest).map fun (entries, rest) => (.object entries, rest)
    | _ => none

/-- Reads the elements of an array up to its closing bracket. -/
def readItems : (fuel room : Nat) → List Token → Option (List Json × List Token)
  | 0, _, _ => none
  | fuel + 1, room, tokens =>
    match readValue fuel room tokens with
    | some (item, .comma :: rest) =>
      (readItems fuel room rest).map fun (items, rest) => (item :: items, rest)
    | some (item, .closeBracket :: rest) => some ([item], rest)
    | _ => none

/-- Reads the members of an object up to its closing brace, on top of the entries so far. -/
def readMembers : (fuel room : Nat) → List (String × Json) → List Token →
    Option (List (String × Json) × List Token)
  | 0, _, _, _ => none
  | fuel + 1, room, entries, tokens =>
    match tokens with
    | .string (some key) :: .colon :: rest =>
      match readValue fuel room rest with
      | some (value, .comma :: rest) => readMembers fuel room (put key value entries) rest
      | some (value, .closeBrace :: rest) => some (put key value entries, rest)
      | _ => none
    | _ => none

end

mutual

/-- Passes over one value. -/
def skipValue : (fuel : Nat) → List Token → Option (List Token)
  | 0, _ => none
  | fuel + 1, tokens =>
    match tokens with
    | .null :: rest => some rest
    | .bool _ :: rest => some rest
    | .number _ :: rest => some rest
    | .string _ :: rest => some rest
    | .openBracket :: .closeBracket :: rest => some rest
    | .openBracket :: rest => skipItems fuel rest
    | .openBrace :: .closeBrace :: rest => some rest
    | .openBrace :: rest => skipMembers fuel rest
    | _ => none

/-- Passes over the elements of an array and its closing bracket. -/
def skipItems : (fuel : Nat) → List Token → Option (List Token)
  | 0, _ => none
  | fuel + 1, tokens =>
    match skipValue fuel tokens with
    | some (.comma :: rest) => skipItems fuel rest
    | some (.closeBracket :: rest) => some rest
    | _ => none

/-- Passes over the members of an object and its closing brace. -/
def skipMembers : (fuel : Nat) → List Token → Option (List Token)
  | 0, _ => none
  | fuel + 1, tokens =>
    match tokens with
    | .string _ :: .colon :: rest =>
      match skipValue fuel rest with
      | some (.comma :: rest) => skipMembers fuel rest
      | some (.closeBrace :: rest) => some rest
      | _ => none
    | _ => none

end

/-- The value a text holds, if the text is one value and nothing else. -/
def parse (room : Nat) (text : String) : Option Json :=
  let tokens := Token.scan text
  match readValue (fuelFor tokens + 1) room tokens with
  | some (value, []) => some value
  | _ => none

end BackgroundScan.Json
