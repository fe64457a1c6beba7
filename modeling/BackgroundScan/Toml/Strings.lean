/-!
# TOML blanks, comments, strings and keys

Every reader here takes the front of a text and returns what it found with the rest, or `none`
where the grammar does not allow the text. Control characters other than the tab stand nowhere, and
a carriage return only before a newline. A key has at most `maxKeyParts` parts.
-/

namespace BackgroundScan.Toml

/-- What a reader found, and the text after it. -/
abbrev Read (α : Type) := Option (α × List Char)

/-! ## Between tokens -/

/-- Spaces and tabs. -/
def isBlank (c : Char) : Bool := c == ' ' || c == '\t'

/-- The text after its leading spaces and tabs. -/
def skipBlanks (cs : List Char) : List Char := cs.dropWhile isBlank

/-- Characters that may stand in a line of text. -/
def isLineChar (c : Char) : Bool := c == '\t' || (0x20 ≤ c.toNat && c.toNat != 0x7F)

/-- The text after a comment, if one is next. -/
def skipComment (cs : List Char) : List Char :=
  match cs with
  | '#' :: rest => rest.dropWhile isLineChar
  | _ => cs

/-- The text after a newline. -/
def newline? : List Char → Option (List Char)
  | '\n' :: rest => some rest
  | '\r' :: '\n' :: rest => some rest
  | _ => none

/-- The text after blanks, comments and newlines, which `fuel` bounds. -/
def skipLines : (fuel : Nat) → List Char → List Char
  | 0, cs => cs
  | fuel + 1, cs =>
    let cs := skipComment (skipBlanks cs)
    match newline? cs with
    | some rest => skipLines fuel rest
    | none => cs

/-- The text after the end of a line: blanks, perhaps a comment, and a newline or the end. -/
def endOfLine? (cs : List Char) : Option (List Char) :=
  match skipComment (skipBlanks cs) with
  | [] => some []
  | cs => newline? cs

/-! ## Strings -/

/-- The value of hexadecimal digits. -/
def hexValue? (ds : List Char) : Option Nat :=
  ds.foldlM (fun n c =>
    if '0' ≤ c ∧ c ≤ '9' then some (16 * n + (c.toNat - 48))
    else if 'a' ≤ c ∧ c ≤ 'f' then some (16 * n + (c.toNat - 87))
    else if 'A' ≤ c ∧ c ≤ 'F' then some (16 * n + (c.toNat - 55))
    else none) 0

/-- The character of a code point, if it is not half of a surrogate pair. -/
def scalar? (n : Nat) : Option Char := if n.isValidChar then some (Char.ofNat n) else none

/-- The character an escape stands for, and how many characters follow the backslash. -/
def escaped? (cs : List Char) : Option (Char × Nat) :=
  match cs with
  | 'b' :: _ => some ('\x08', 1)
  | 't' :: _ => some ('\t', 1)
  | 'n' :: _ => some ('\n', 1)
  | 'f' :: _ => some ('\x0c', 1)
  | 'r' :: _ => some ('\r', 1)
  | 'e' :: _ => some ('\x1b', 1)
  | '"' :: _ => some ('"', 1)
  | '\\' :: _ => some ('\\', 1)
  | 'x' :: rest =>
    if 2 ≤ rest.length then (hexValue? (rest.take 2) >>= scalar?).map (·, 3) else none
  | 'u' :: rest =>
    if 4 ≤ rest.length then (hexValue? (rest.take 4) >>= scalar?).map (·, 5) else none
  | 'U' :: rest =>
    if 8 ≤ rest.length then (hexValue? (rest.take 8) >>= scalar?).map (·, 9) else none
  | _ => none

/-- Reads a string with escapes from after its opening quote; the first `skip` characters belong to
an escape already read. -/
def basicBody (reversed : List Char) : (skip : Nat) → List Char → Read String
  | _, [] => none
  | skip + 1, _ :: rest => basicBody reversed skip rest
  | 0, c :: rest =>
    if c = '"' then some (String.ofList reversed.reverse, rest)
    else if c = '\\' then
      match escaped? rest with
      | some (e, width) => basicBody (e :: reversed) width rest
      | none => none
    else if isLineChar c then basicBody (c :: reversed) 0 rest
    else none

/-- Reads a string without escapes from after its opening quote. -/
def literalBody (cs : List Char) : Read String :=
  match cs.span isLineCharOfLiteral with
  | (body, '\'' :: rest) => some (String.ofList body, rest)
  | _ => none
where
  /-- Characters that may stand in a literal string. -/
  isLineCharOfLiteral (c : Char) : Bool := isLineChar c && c != '\''

/-- How many of the next five characters are the quote `q`. -/
def quotes (q : Char) (cs : List Char) : Nat := ((cs.take 5).takeWhile (· == q)).length

/-- The text after its leading blanks and newlines. -/
def skipBlankLines : List Char → List Char
  | ' ' :: rest => skipBlankLines rest
  | '\t' :: rest => skipBlankLines rest
  | '\n' :: rest => skipBlankLines rest
  | '\r' :: '\n' :: rest => skipBlankLines rest
  | cs => cs

/-- The text after an escaped line end: blanks up to a newline, then blanks and newlines. -/
def continuation? (cs : List Char) : Option (List Char) :=
  (newline? (skipBlanks cs)).map skipBlankLines

/-- Reads a string of several lines from after its opening quotes. Up to two quotes may stand
before the closing three. The first `skip` characters belong to what was already read. -/
def multilineBody (q : Char) (escapes : Bool) (reversed : List Char) :
    (skip : Nat) → List Char → Read String
  | _, [] => none
  | skip + 1, _ :: rest => multilineBody q escapes reversed skip rest
  | 0, c :: rest =>
    if c = q then
      let count := quotes q (c :: rest)
      if 3 ≤ count then
        some (String.ofList (List.replicate (count - 3) q ++ reversed).reverse,
          rest.drop (count - 1))
      else multilineBody q escapes (c :: reversed) 0 rest
    else if escapes ∧ c = '\\' then
      match escaped? rest, continuation? rest with
      | some (e, width), _ => multilineBody q escapes (e :: reversed) width rest
      | none, some after => multilineBody q escapes reversed (rest.length - after.length) rest
      | none, none => none
    else if c = '\r' then
      match rest with
      | '\n' :: _ => multilineBody q escapes reversed 0 rest
      | _ => none
    else if c = '\n' ∨ isLineChar c then multilineBody q escapes (c :: reversed) 0 rest
    else none

/-- The text after a newline at once behind opening quotes. -/
def afterOpening (cs : List Char) : List Char := (newline? cs).getD cs

/-- Reads a string of one line. -/
def lineString? (cs : List Char) : Read String :=
  match cs with
  | '"' :: rest => basicBody [] 0 rest
  | '\'' :: rest => literalBody rest
  | _ => none

/-- Reads a string. -/
def string? (cs : List Char) : Read String :=
  match cs with
  | '"' :: '"' :: '"' :: rest => multilineBody '"' true [] 0 (afterOpening rest)
  | '\'' :: '\'' :: '\'' :: rest => multilineBody '\'' false [] 0 (afterOpening rest)
  | _ => lineString? cs

/-! ## Keys -/

/-- Characters of a key without quotes. -/
def isBareKeyChar (c : Char) : Bool := c.isAlphanum || c == '-' || c == '_'

/-- Reads one part of a key. -/
def simpleKey? (cs : List Char) : Read String :=
  match lineString? cs with
  | some found => some found
  | none =>
    match cs.span isBareKeyChar with
    | ([], _) => none
    | (key, rest) => some (String.ofList key, rest)

/-- How many parts a key may have. -/
def maxKeyParts : Nat := 80

/-- Reads at most `room` parts of a key with points between them, and the blanks after them. -/
def keyParts? : (room : Nat) → List Char → Read (List String)
  | 0, _ => none
  | room + 1, cs =>
    match simpleKey? (skipBlanks cs) with
    | none => none
    | some (part, rest) =>
      match skipBlanks rest with
      | '.' :: rest => (keyParts? room rest).map fun (parts, rest) => (part :: parts, rest)
      | rest => some ([part], rest)

/-- Reads a key and the blanks after it. -/
def key? (cs : List Char) : Read (List String) := keyParts? maxKeyParts cs

end BackgroundScan.Toml
