import BackgroundScan.Toml.Scalar

/-!
# The lines of a TOML document

`Toml.scan` reads the text of a document as its lines: headers, and keys with their values as they
are written. Whether the lines agree with one another is not looked at here. A byte order mark may
stand at the very front. Arrays and inline tables nest at most `maxNesting` deep; within them lines
may end and comments may stand between keys, values and signs.

The readers of values call one another; each call takes one unit of fuel, and two units per
character are enough, because a call that takes no character itself is followed by one that does.
-/

namespace BackgroundScan.Toml

/-- A value as it is written. -/
inductive Written
  | scalar (v : Value)
  | array (items : List Written)
  /-- An inline table, by its keys in the order in which they are written. -/
  | inline (pairs : List (List String × Written))
  deriving Inhabited

/-- A line of a document. -/
inductive Line
  /-- The header of a table. -/
  | table (path : List String)
  /-- The header of one more element of an array of tables. -/
  | element (path : List String)
  | pair (path : List String) (w : Written)

/-- How deep arrays and inline tables may nest. -/
def maxNesting : Nat := 80

mutual

/-- Reads a value. -/
def written? : (fuel room : Nat) → List Char → Read Written
  | 0, _, _ => none
  | fuel + 1, room, cs =>
    match cs with
    | '[' :: rest =>
      match room with
      | 0 => none
      | room + 1 =>
        (items? fuel room (skipLines fuel rest)).map fun (ws, rest) => (.array ws, rest)
    | '{' :: rest =>
      match room with
      | 0 => none
      | room + 1 =>
        (pairs? fuel room (skipLines fuel rest)).map fun (pairs, rest) => (.inline pairs, rest)
    | '"' :: _ => (string? cs).map fun (s, rest) => (.scalar (.string s), rest)
    | '\'' :: _ => (string? cs).map fun (s, rest) => (.scalar (.string s), rest)
    | _ => (bareScalar? cs).map fun (v, rest) => (.scalar v, rest)
termination_by structural fuel => fuel

/-- Reads the elements of an array up to its closing bracket; a comma may stand after the last. -/
def items? : (fuel room : Nat) → List Char → Read (List Written)
  | 0, _, _ => none
  | fuel + 1, room, cs =>
    match cs with
    | ']' :: rest => some ([], rest)
    | _ =>
      match written? fuel room cs with
      | none => none
      | some (w, rest) =>
        match skipLines fuel rest with
        | ',' :: rest =>
          (items? fuel room (skipLines fuel rest)).map fun (ws, rest) => (w :: ws, rest)
        | ']' :: rest => some ([w], rest)
        | _ => none
termination_by structural fuel => fuel

/-- Reads the keys and values of an inline table up to its closing brace; a comma may stand after
the last. -/
def pairs? : (fuel room : Nat) → List Char → Read (List (List String × Written))
  | 0, _, _ => none
  | fuel + 1, room, cs =>
    match cs with
    | '}' :: rest => some ([], rest)
    | _ =>
      match pair? fuel room cs with
      | none => none
      | some (pair, rest) =>
        match skipLines fuel rest with
        | ',' :: rest =>
          (pairs? fuel room (skipLines fuel rest)).map fun (pairs, rest) => (pair :: pairs, rest)
        | '}' :: rest => some ([pair], rest)
        | _ => none
termination_by structural fuel => fuel

/-- Reads a key and its value in an inline table, where a line may end on either side of the
equals sign. -/
def pair? : (fuel room : Nat) → List Char → Read (List String × Written)
  | 0, _, _ => none
  | fuel + 1, room, cs =>
    match key? cs with
    | none => none
    | some (path, rest) =>
      match skipLines fuel rest with
      | '=' :: rest =>
        (written? fuel room (skipLines fuel rest)).map fun (w, rest) => ((path, w), rest)
      | _ => none
termination_by structural fuel => fuel

end

/-- Reads one header or one key with its value. -/
def line? (fuel : Nat) (cs : List Char) : Read Line :=
  match cs with
  | '[' :: '[' :: rest =>
    match key? rest with
    | some (path, ']' :: ']' :: rest) => some (.element path, rest)
    | _ => none
  | '[' :: rest =>
    match key? rest with
    | some (path, ']' :: rest) => some (.table path, rest)
    | _ => none
  | _ =>
    match key? cs with
    | some (path, '=' :: rest) =>
      (written? fuel maxNesting (skipBlanks rest)).map fun (w, rest) => (.pair path w, rest)
    | _ => none

/-- Reads the lines of a document. -/
def lines? : (fuel : Nat) → List Char → Option (List Line)
  | 0, _ => none
  | fuel + 1, cs =>
    match skipLines fuel cs with
    | [] => some []
    | cs =>
      match line? fuel cs with
      | none => none
      | some (line, rest) =>
        match endOfLine? rest with
        | none => none
        | some rest => (lines? fuel rest).map (line :: ·)

/-- The lines of a document. -/
def scan (text : String) : Option (List Line) :=
  let cs := match text.toList with
    | '\uFEFF' :: rest => rest
    | cs => cs
  lines? (2 * cs.length + 2) cs

end BackgroundScan.Toml
