import BackgroundScan.Toml.Value

/-!
# Tables under construction

While a document is read, a table is known by how it was opened, because that decides who may add
to it: a header opens a table once, and may open one that until then only longer headers implied;
dotted keys add to tables that dotted keys opened or longer headers implied, and no header may open
those from then on; a value, an inline table among them, is closed.

`openTable` and `openElement` are what the two kinds of header do, and `assign` is what a key with
a value does.
-/

namespace BackgroundScan.Toml

/-- How a table was opened. -/
inductive Opening
  | header
  | implied
  | dotted
  deriving DecidableEq, Repr

/-- An entry of a table under construction. -/
inductive Node
  | value (v : Value)
  | table (opening : Opening) (entries : List (String × Node))
  | elements (earlier : List (List (String × Node))) (last : List (String × Node))

/-- The entries of a table under construction. -/
abbrev Entries := List (String × Node)

/-- Puts an entry in the place its key has, or at the end. -/
def Entries.set (key : String) (node : Node) : Entries → Entries
  | [] => [(key, node)]
  | (k, n) :: rest => if k = key then (k, node) :: rest else (k, n) :: set key node rest

/-- Changes the table at a path that headers lead along; tables that are not there are implied. -/
def atHeader (change : Entries → Option Entries) : List String → Entries → Option Entries
  | [], entries => change entries
  | key :: path, entries =>
    match entries.lookup key with
    | none => (atHeader change path []).map fun es => entries.set key (.table .implied es)
    | some (.table opening es) =>
      (atHeader change path es).map fun es => entries.set key (.table opening es)
    | some (.elements earlier last) =>
      (atHeader change path last).map fun es => entries.set key (.elements earlier es)
    | some (.value _) => none

/-- Opens the table `key` here. -/
def openHere (key : String) (entries : Entries) : Option Entries :=
  match entries.lookup key with
  | none => some (entries.set key (.table .header []))
  | some (.table .implied es) => some (entries.set key (.table .header es))
  | some _ => none

/-- Opens one more element of the array of tables `key` here. -/
def elementHere (key : String) (entries : Entries) : Option Entries :=
  match entries.lookup key with
  | none => some (entries.set key (.elements [] []))
  | some (.elements earlier last) => some (entries.set key (.elements (earlier ++ [last]) []))
  | some _ => none

/-- Opens the table that a header names. -/
def openTable (path : List String) (entries : Entries) : Option Entries :=
  match path.getLast? with
  | none => none
  | some key => atHeader (openHere key) path.dropLast entries

/-- Opens one more element of the array of tables that a header names. -/
def openElement (path : List String) (entries : Entries) : Option Entries :=
  match path.getLast? with
  | none => none
  | some key => atHeader (elementHere key) path.dropLast entries

/-- Assigns a value to a dotted key. The key goes through tables that are new, implied or opened by
dotted keys, and all of them count as opened by dotted keys from then on. It may also go through the
last element of an array of tables, but not end in it. -/
def assign (v : Value) : List String → Entries → Option Entries
  | [], _ => none
  | [key], entries =>
    match entries.lookup key with
    | none => some (entries.set key (.value v))
    | some _ => none
  | key :: next :: path, entries =>
    match entries.lookup key with
    | none => (assign v (next :: path) []).map fun es => entries.set key (.table .dotted es)
    | some (.table .header _) => none
    | some (.table _ es) =>
      (assign v (next :: path) es).map fun es => entries.set key (.table .dotted es)
    | some (.elements earlier last) =>
      if path.isEmpty then none
      else (assign v (next :: path) last).map fun es => entries.set key (.elements earlier es)
    | some (.value _) => none

mutual

/-- The value of a finished entry. -/
def Node.finish : Node → Value
  | .value v => v
  | .table _ entries => .table (finishEntries entries)
  | .elements earlier last => .array (finishElements earlier ++ [.table (finishEntries last)])

/-- The entries of a finished table. -/
def finishEntries : List (String × Node) → List (String × Value)
  | [] => []
  | (key, node) :: rest => (key, node.finish) :: finishEntries rest

/-- The elements of a finished array of tables. -/
def finishElements : List (List (String × Node)) → List Value
  | [] => []
  | entries :: rest => .table (finishEntries entries) :: finishElements rest

end

end BackgroundScan.Toml
