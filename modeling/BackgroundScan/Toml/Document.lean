import BackgroundScan.Toml.Syntax
import BackgroundScan.Toml.Table

/-!
# TOML documents

`Toml.parse` reads a whole document as the entries of its root table, or gives `none` if the text
is not a document: the text is scanned for its lines, and from these the root table is built. An
inline table is built from its keys as the root table is, and is closed then.
-/

namespace BackgroundScan.Toml

mutual

/-- The value that is written. -/
def Written.value? : Written → Option Value
  | .scalar v => some v
  | .array items => (valuesOf? items).map .array
  | .inline pairs => (assignAll? [] pairs).map fun es => .table (finishEntries es)

/-- The values that are written one after the other. -/
def valuesOf? : List Written → Option (List Value)
  | [] => some []
  | w :: rest =>
    match w.value? with
    | none => none
    | some v => (valuesOf? rest).map (v :: ·)

/-- Assigns values to keys one after the other. -/
def assignAll? (entries : Entries) : List (List String × Written) → Option Entries
  | [] => some entries
  | (path, w) :: rest =>
    match w.value? with
    | none => none
    | some v =>
      match assign v path entries with
      | none => none
      | some entries => assignAll? entries rest

end

/-- What was built of a document so far. -/
structure Progress where
  /-- The root table. -/
  root : Entries
  /-- The path of the last header. -/
  header : List String

namespace Progress

/-- Nothing yet. -/
def start : Progress := ⟨[], []⟩

/-- Adds a line. -/
def add? (doc : Progress) : Line → Option Progress
  | .table path => (openTable path doc.root).map fun root => ⟨root, path⟩
  | .element path => (openElement path doc.root).map fun root => ⟨root, path⟩
  | .pair path w =>
    match w.value? with
    | none => none
    | some v => (atHeader (assign v path) doc.header doc.root).map fun root => ⟨root, doc.header⟩

/-- Adds lines one after the other. -/
def addAll? (doc : Progress) : List Line → Option Progress
  | [] => some doc
  | line :: rest =>
    match doc.add? line with
    | none => none
    | some doc => doc.addAll? rest

end Progress

/-- The entries of the root table that lines build. -/
def build (lines : List Line) : Option (List (String × Value)) :=
  (Progress.start.addAll? lines).map fun doc => finishEntries doc.root

/-- The entries of the root table of a document. -/
def parse (text : String) : Option (List (String × Value)) := scan text >>= build

end BackgroundScan.Toml
