import BackgroundScan.Toml.Document

/-!
# What a document says

The same table can be written in several ways: under a header, with dotted keys, as an inline
table, and with its keys in any order. What the lines of a document say is a list of statements,
each of a whole path from the root, in which the way of writing is no longer seen. The root table
that is built has an entry exactly where something is said, and the value that is said to be there.

1. `Statement`: a path with what is said of it. `said`: what lines say. `said_table`: it is the
   same for the three ways to write a table.
2. `Value.Shows` and `Node.Shows`: a value, or an entry under construction, as statements say, with
   no key twice in a table. `Shown.set`: an entry is put in its place.
3. `shown_assign`, `shown_openTable` and `shown_openElement`: what each kind of line adds.
4. `shown_build`: the root table of a document is as its lines say.
-/

namespace BackgroundScan.Toml

/-! ## 1. Statements -/

/-- What a document says of a path. -/
inductive Said
  /-- There is a table. -/
  | table
  /-- There is one more element of an array of tables. -/
  | element
  | scalar (v : Value)
  | array (items : List Written)

/-- A path with what is said of it. -/
abbrev Statement := List String × Said

/-- Statements with their paths put below a path. -/
def below (path : List String) (statements : List Statement) : List Statement :=
  statements.map fun s => (path ++ s.1, s.2)

/-- A statement of a path below a key, seen from there. -/
def Statement.under? (key : String) : Statement → Option Statement
  | ([], _) => none
  | (first :: path, what) => if first = key then some (path, what) else none

/-- The statements of paths below a key, seen from there. -/
def under (key : String) (statements : List Statement) : List Statement :=
  statements.filterMap (Statement.under? key)

mutual

/-- What a value says of its place and of the paths below it. -/
def Written.statements : Written → List Statement
  | .scalar v => [([], .scalar v)]
  | .array items => [([], .array items)]
  | .inline pairs => ([], .table) :: pairsSay pairs

/-- What the keys and values of an inline table say. -/
def pairsSay : List (List String × Written) → List Statement
  | [] => []
  | (path, w) :: rest => below path w.statements ++ pairsSay rest

end

/-- What lines say after a header. -/
def saidFrom (header : List String) : List Line → List Statement
  | [] => []
  | .table path :: rest => (path, .table) :: saidFrom path rest
  | .element path :: rest => (path, .element) :: saidFrom path rest
  | .pair path w :: rest => below header (below path w.statements) ++ saidFrom header rest

/-- What the lines of a document say. -/
def said (lines : List Line) : List Statement := saidFrom [] lines

namespace StatementLemmas

theorem below_below (path path' : List String) (statements : List Statement) :
    below path (below path' statements) = below (path ++ path') statements := by
  simp only [below, List.map_map, Function.comp_def, List.append_assoc]

theorem below_cons (key : String) (path : List String) (statements : List Statement) :
    below (key :: path) statements = below [key] (below path statements) :=
  (below_below [key] path statements).symm

theorem below_nil (statements : List Statement) : below [] statements = statements :=
  List.map_id' statements

theorem below_append (path : List String) (statements statements' : List Statement) :
    below path (statements ++ statements') = below path statements ++ below path statements' :=
  List.map_append

theorem below_ne_nil {statements : List Statement} (h : statements ≠ []) (path : List String) :
    below path statements ≠ [] := fun hnil => h (List.map_eq_nil_iff.mp hnil)

theorem under_append (key : String) (statements statements' : List Statement) :
    under key (statements ++ statements') = under key statements ++ under key statements' :=
  List.filterMap_append

theorem under_below_self (key : String) (statements : List Statement) :
    under key (below [key] statements) = statements := by
  have hself : Statement.under? key ∘ (fun s : Statement => ([key] ++ s.1, s.2)) = some :=
    funext fun s => if_pos rfl
  rw [under, below, List.filterMap_map, hself, List.filterMap_some]

theorem under_below_of_ne {key other : String} (h : key ≠ other) (statements : List Statement) :
    under other (below [key] statements) = [] := by
  rw [under, below, List.filterMap_map, List.filterMap_eq_nil_iff]
  intro s _
  exact if_neg h

theorem mem_under {key : String} {statements : List Statement} {path : List String}
    {what : Said} :
    (path, what) ∈ under key statements ↔ (key :: path, what) ∈ statements := by
  rw [under, List.mem_filterMap]
  constructor
  · rintro ⟨⟨_ | ⟨first, rest⟩, what'⟩, hmem, h⟩
    · cases h
    · rw [Statement.under?, Option.ite_none_right_eq_some] at h
      obtain ⟨rfl, hsame⟩ := h
      obtain ⟨rfl, rfl⟩ := Prod.mk.inj (Option.some.inj hsame)
      exact hmem
  · intro hmem
    exact ⟨_, hmem, if_pos rfl⟩

end StatementLemmas

open StatementLemmas

/-! ### Ways to write a table -/

/-- Keys with their values, each pair on a line. -/
def pairLines (pairs : List (List String × Written)) : List Line :=
  pairs.map fun e => .pair e.1 e.2

/-- How a table is written: under its header, with dotted keys, or inline. -/
inductive TableForm
  | header
  | dotted
  | inline

namespace TableForm

/-- The lines of a table with the given keys and values. -/
def lines (path : List String) (pairs : List (List String × Written)) : TableForm → List Line
  | .header => .table path :: pairLines pairs
  | .dotted => pairLines (pairs.map fun e => (path ++ e.1, e.2))
  | .inline => [.pair path (.inline pairs)]

/-- What is said of a table besides its entries: nothing with dotted keys. -/
def opening (path : List String) : TableForm → List Statement
  | .header | .inline => [(path, .table)]
  | .dotted => []

end TableForm

/-- Whether lines are read in the same way after every header. -/
def StartAnew (lines : List Line) : Prop := ∀ path w, lines.head? ≠ some (.pair path w)

namespace StatementLemmas

theorem saidFrom_pairLines (header : List String) (pairs : List (List String × Written))
    (rest : List Line) : saidFrom header (pairLines pairs ++ rest) =
      below header (pairsSay pairs) ++ saidFrom header rest := by
  induction pairs with
  | nil => rfl
  | cons e pairs ih =>
    show below header (below e.1 e.2.statements) ++ saidFrom header (pairLines pairs ++ rest) = _
    rw [ih, pairsSay, below_append, List.append_assoc]

theorem pairsSay_eq_flatMap (pairs : List (List String × Written)) :
    pairsSay pairs = pairs.flatMap fun e => below e.1 e.2.statements := by
  induction pairs with
  | nil => rfl
  | cons e pairs ih => rw [pairsSay, List.flatMap_cons, ih]

theorem perm_pairsSay {pairs pairs' : List (List String × Written)} (h : pairs.Perm pairs') :
    (pairsSay pairs).Perm (pairsSay pairs') := by
  rw [pairsSay_eq_flatMap, pairsSay_eq_flatMap]
  exact h.flatMap_right _

theorem pairsSay_below (path : List String) (pairs : List (List String × Written)) :
    pairsSay (pairs.map fun e => (path ++ e.1, e.2)) = below path (pairsSay pairs) := by
  induction pairs with
  | nil => rfl
  | cons e pairs ih => rw [List.map_cons, pairsSay, pairsSay, ih, below_append, below_below]

theorem saidFrom_of_startAnew {lines : List Line} (h : StartAnew lines) (header : List String) :
    saidFrom header lines = said lines := by
  match lines with
  | [] => rfl
  | .table _ :: _ => rfl
  | .element _ :: _ => rfl
  | .pair path w :: _ => exact absurd rfl (h path w)

theorem saidFrom_append (lines : List Line) {rest : List Line} (h : StartAnew rest)
    (header : List String) : saidFrom header (lines ++ rest) = saidFrom header lines ++ said rest := by
  induction lines generalizing header with
  | nil => exact saidFrom_of_startAnew h header
  | cons line lines ih =>
    cases line with
    | table path | element path => rw [List.cons_append, saidFrom, saidFrom, ih, List.cons_append]
    | pair path w => rw [List.cons_append, saidFrom, saidFrom, ih, List.append_assoc]

end StatementLemmas

theorem StartAnew.append {lines lines' : List Line} (h : StartAnew lines)
    (h' : StartAnew lines') : StartAnew (lines ++ lines') := by
  cases lines with
  | nil => exact h'
  | cons => exact h

/-- What lines say that start anew is not changed by the lines before them. -/
theorem said_append (lines : List Line) {rest : List Line} (h : StartAnew rest) :
    said (lines ++ rest) = said lines ++ said rest := saidFrom_append lines h []

/-- A table says the same of its entries however it is written. -/
theorem said_table (form : TableForm) (path : List String)
    (pairs : List (List String × Written)) {rest : List Line} (hrest : StartAnew rest) :
    said (form.lines path pairs ++ rest) =
      form.opening path ++ below path (pairsSay pairs) ++ said rest := by
  cases form with
  | header =>
    show (path, .table) :: saidFrom path (pairLines pairs ++ rest) = _
    rw [saidFrom_pairLines, saidFrom_of_startAnew hrest]
    rfl
  | dotted =>
    rw [TableForm.lines, said, saidFrom_pairLines, pairsSay_below, below_nil]
    rfl
  | inline =>
    show below [] (below path (Written.inline pairs).statements) ++ said rest = _
    rw [below_nil, Written.statements, below, List.map_cons, List.append_nil]
    rfl

/-! ## 2. Tables as statements say -/

/-- A value that is as statements say. -/
inductive Value.Shows : List Statement → Value → Prop
  | scalar (v : Value) : Value.Shows [([], .scalar v)] v
  | array {items : List Written} {vs : List Value} (h : valuesOf? items = some vs) :
    Value.Shows [([], .array items)] (.array vs)
  | elements {statements : List Statement} {items : List Value}
      (h : ([], .element) ∈ statements) : Value.Shows statements (.array items)
  | table {statements : List Statement} {entries : List (String × Value)}
      (hsome : statements ≠ []) (hkeys : (entries.map Prod.fst).Nodup)
      (hhere : ∀ what, ([], what) ∈ statements → what = .table)
      (hnone : ∀ key, entries.lookup key = none → under key statements = [])
      (hfound : ∀ key v, entries.lookup key = some v → Value.Shows (under key statements) v) :
    Value.Shows statements (.table entries)

/-- An entry of a table under construction that is as statements say. -/
inductive Node.Shows : List Statement → Node → Prop
  | value {statements : List Statement} {v : Value} (h : v.Shows statements) :
    Node.Shows statements (.value v)
  | table {statements : List Statement} {opening : Opening} {entries : Entries}
      (hsome : statements ≠ []) (hkeys : (entries.map Prod.fst).Nodup)
      (hhere : ∀ what, ([], what) ∈ statements → what = .table)
      (hnone : ∀ key, entries.lookup key = none → under key statements = [])
      (hfound : ∀ key n, entries.lookup key = some n → Node.Shows (under key statements) n) :
    Node.Shows statements (.table opening entries)
  | elements {statements : List Statement} {earlier : List Entries} {last : Entries}
      (h : ([], .element) ∈ statements) : Node.Shows statements (.elements earlier last)

/-- Entries as statements say, where `Shows` tells this of what is under their keys. -/
structure Shown {α : Type} (Shows : List Statement → α → Prop) (statements : List Statement)
    (entries : List (String × α)) : Prop where
  keys : (entries.map Prod.fst).Nodup
  here : ∀ what, ([], what) ∈ statements → what = .table
  none : ∀ key, entries.lookup key = none → under key statements = []
  found : ∀ key a, entries.lookup key = some a → Shows (under key statements) a

/-- Something is said of every value. -/
theorem Value.Shows.ne_nil {statements : List Statement} {v : Value} (h : v.Shows statements) :
    statements ≠ [] := by
  cases h with
  | scalar v => exact List.cons_ne_nil _ _
  | array h => exact List.cons_ne_nil _ _
  | elements h => exact List.ne_nil_of_mem h
  | table hsome => exact hsome

theorem Node.Shows.of_shown {statements : List Statement} {entries : Entries}
    (h : Shown Node.Shows statements entries) (hsome : statements ≠ []) (opening : Opening) :
    Node.Shows statements (.table opening entries) := .table hsome h.keys h.here h.none h.found

theorem Node.Shows.shown {statements : List Statement} {opening : Opening} {entries : Entries}
    (h : Node.Shows statements (.table opening entries)) : Shown Node.Shows statements entries := by
  cases h with
  | table hsome hkeys hhere hnone hfound => exact ⟨hkeys, hhere, hnone, hfound⟩

namespace StatementLemmas

theorem lookup_cons_of_ne {key other : String} (h : key ≠ other) (node : Node)
    (entries : Entries) : ((key, node) :: entries).lookup other = entries.lookup other := by
  rw [List.lookup_cons, beq_eq_false_iff_ne.mpr (Ne.symm h)]

theorem lookup_set_self (key : String) (node : Node) (entries : Entries) :
    (entries.set key node).lookup key = some node := by
  induction entries with
  | nil => exact List.lookup_cons_self
  | cons entry rest ih =>
    rw [Entries.set]
    split
    · next heq => rw [heq, List.lookup_cons_self]
    · next hne => rw [lookup_cons_of_ne hne, ih]

theorem lookup_set_of_ne {key other : String} (h : key ≠ other) (node : Node)
    (entries : Entries) : (entries.set key node).lookup other = entries.lookup other := by
  induction entries with
  | nil => exact lookup_cons_of_ne h node []
  | cons entry rest ih =>
    obtain ⟨first, n⟩ := entry
    rw [Entries.set]
    split
    · next heq =>
      subst heq
      rw [lookup_cons_of_ne h, lookup_cons_of_ne h]
    · rw [List.lookup_cons, List.lookup_cons, ih]

/-- A key keeps its place, or comes last. -/
theorem keys_set (key : String) (node : Node) (entries : Entries) :
    (entries.set key node).map Prod.fst =
      if key ∈ entries.map Prod.fst then entries.map Prod.fst
      else entries.map Prod.fst ++ [key] := by
  induction entries with
  | nil => rfl
  | cons entry rest ih =>
    obtain ⟨first, n⟩ := entry
    rw [Entries.set, List.map_cons]
    split
    · next heq => rw [if_pos (heq ▸ List.mem_cons_self), List.map_cons, heq]
    · next hne =>
      rw [List.map_cons, ih]
      by_cases hmem : key ∈ rest.map Prod.fst
      · rw [if_pos hmem, if_pos (List.mem_cons_of_mem _ hmem)]
      · rw [if_neg hmem, if_neg (List.not_mem_cons_of_ne_of_not_mem (Ne.symm hne) hmem),
          List.cons_append]

theorem nodup_set {entries : Entries} (h : (entries.map Prod.fst).Nodup) (key : String)
    (node : Node) : ((entries.set key node).map Prod.fst).Nodup := by
  rw [keys_set]
  split
  · exact h
  · next hnot =>
    refine List.nodup_append.mpr ⟨h, List.pairwise_singleton _ _, ?_⟩
    rintro k hk _ hkey rfl
    exact hnot (List.mem_singleton.mp hkey ▸ hk)

theorem shown_nil : Shown Node.Shows [] [] where
  keys := List.nodup_nil
  here := fun _ h => absurd h List.not_mem_nil
  none := fun _ _ => rfl
  found := fun _ _ h => nomatch h

end StatementLemmas

/-- An entry is put in the place of a key; nothing is changed under other keys. -/
theorem Shown.set {statements : List Statement} {entries : Entries}
    (h : Shown Node.Shows statements entries) (added : List Statement) {key : String} {node : Node}
    (hnode : Node.Shows (under key statements ++ added) node) :
    Shown Node.Shows (statements ++ below [key] added) (entries.set key node) := by
  have hself : under key (statements ++ below [key] added) = under key statements ++ added := by
    rw [under_append, under_below_self]
  have hother {other : String} (hne : key ≠ other) :
      under other (statements ++ below [key] added) = under other statements := by
    rw [under_append, under_below_of_ne hne, List.append_nil]
  exact {
    keys := nodup_set h.keys key node
    here := by
      intro what hmem
      rcases List.mem_append.mp hmem with hmem | hmem
      · exact h.here what hmem
      · obtain ⟨s, -, hs⟩ := List.mem_map.mp hmem
        cases hs
    none := by
      intro other hlookup
      by_cases hne : key = other
      · subst hne
        rw [lookup_set_self] at hlookup
        cases hlookup
      · rw [lookup_set_of_ne hne] at hlookup
        rw [hother hne]
        exact h.none other hlookup
    found := by
      intro other n hlookup
      by_cases hne : key = other
      · subst hne
        rw [lookup_set_self] at hlookup
        obtain rfl := Option.some.inj hlookup
        rwa [hself]
      · rw [lookup_set_of_ne hne] at hlookup
        rw [hother hne]
        exact h.found other n hlookup }

/-! ## 3. What the lines add -/

/-- A change of a table that adds statements adds them below the path along which the table is
found. -/
theorem shown_atHeader {change : Entries → Option Entries} {added : List Statement}
    (hadded : added ≠ [])
    (hchange : ∀ {statements entries entries'}, Shown Node.Shows statements entries →
      change entries = some entries' → Shown Node.Shows (statements ++ added) entries')
    {path : List String} {statements : List Statement} {entries entries' : Entries}
    (h : Shown Node.Shows statements entries)
    (hpath : atHeader change path entries = some entries') :
    Shown Node.Shows (statements ++ below path added) entries' := by
  induction path generalizing statements entries entries' with
  | nil =>
    rw [below_nil]
    exact hchange h hpath
  | cons key path ih =>
    rw [atHeader] at hpath
    rw [below_cons]
    cases hlookup : entries.lookup key with
    | none =>
      rw [hlookup] at hpath
      obtain ⟨es, hes, rfl⟩ := Option.map_eq_some_iff.mp hpath
      refine h.set _ ?_
      rw [h.none key hlookup]
      exact .of_shown (ih shown_nil hes) (below_ne_nil hadded path) .implied
    | some node =>
      rw [hlookup] at hpath
      have hnode := h.found key node hlookup
      cases node with
      | value v => cases hpath
      | table opening es =>
        obtain ⟨es', hes, rfl⟩ := Option.map_eq_some_iff.mp hpath
        exact h.set _ (.of_shown (ih hnode.shown hes)
          (List.append_ne_nil_of_right_ne_nil _ (below_ne_nil hadded path)) opening)
      | elements earlier last =>
        obtain ⟨es', -, rfl⟩ := Option.map_eq_some_iff.mp hpath
        cases hnode with
        | elements helement => exact h.set _ (.elements (List.mem_append_left _ helement))

/-- A value that is assigned adds what it says, below its key. -/
theorem shown_assign {v : Value} {added : List Statement} (hv : v.Shows added)
    {path : List String} {statements : List Statement} {entries entries' : Entries}
    (h : Shown Node.Shows statements entries) (hassign : assign v path entries = some entries') :
    Shown Node.Shows (statements ++ below path added) entries' := by
  induction path generalizing statements entries entries' with
  | nil => cases hassign
  | cons key path ih =>
    rw [below_cons]
    cases path with
    | nil =>
      rw [assign] at hassign
      split at hassign
      · next hlookup =>
        obtain rfl := Option.some.inj hassign
        refine h.set _ (.value ?_)
        rw [h.none key hlookup, below_nil]
        exact hv
      · cases hassign
    | cons next path =>
      have hsome := below_ne_nil hv.ne_nil (next :: path)
      rw [assign] at hassign
      cases hlookup : entries.lookup key with
      | none =>
        rw [hlookup] at hassign
        obtain ⟨es, hes, rfl⟩ := Option.map_eq_some_iff.mp hassign
        refine h.set _ ?_
        rw [h.none key hlookup]
        exact .of_shown (ih shown_nil hes) hsome .dotted
      | some node =>
        rw [hlookup] at hassign
        have hnode := h.found key node hlookup
        cases node with
        | value _ => cases hassign
        | table opening es =>
          cases opening with
          | header => cases hassign
          | implied | dotted =>
            obtain ⟨es', hes, rfl⟩ := Option.map_eq_some_iff.mp hassign
            exact h.set _ (.of_shown (ih hnode.shown hes)
              (List.append_ne_nil_of_right_ne_nil _ hsome) .dotted)
        | elements earlier last =>
          obtain ⟨-, hassign⟩ := Option.ite_none_left_eq_some.mp hassign
          obtain ⟨es', -, rfl⟩ := Option.map_eq_some_iff.mp hassign
          cases hnode with
          | elements helement => exact h.set _ (.elements (List.mem_append_left _ helement))

/-- That there is a table may be said again. -/
theorem shown_here {statements : List Statement} {entries : Entries}
    (h : Shown Node.Shows statements entries) :
    Shown Node.Shows (statements ++ [([], .table)]) entries := by
  have hunder (key : String) :
      under key (statements ++ [([], .table)]) = under key statements := by
    rw [under_append]
    exact List.append_nil _
  exact {
    keys := h.keys
    here := by
      intro what hmem
      rcases List.mem_append.mp hmem with hmem | hmem
      · exact h.here what hmem
      · exact (Prod.mk.inj (List.mem_singleton.mp hmem)).2
    none := fun key hlookup => (hunder key).trans (h.none key hlookup)
    found := fun key n hlookup => (hunder key).symm ▸ h.found key n hlookup }

theorem shown_openHere {key : String} {statements : List Statement} {entries entries' : Entries}
    (h : Shown Node.Shows statements entries) (hopen : openHere key entries = some entries') :
    Shown Node.Shows (statements ++ [([key], .table)]) entries' := by
  rw [openHere] at hopen
  split at hopen
  · next hlookup =>
    obtain rfl := Option.some.inj hopen
    refine h.set [([], .table)] ?_
    rw [h.none key hlookup]
    exact .of_shown (shown_here shown_nil) (List.cons_ne_nil _ _) .header
  · next es hlookup =>
    obtain rfl := Option.some.inj hopen
    refine h.set [([], .table)] (.of_shown (shown_here ?_) ?_ .header)
    · exact (h.found key _ hlookup).shown
    · exact List.append_ne_nil_of_right_ne_nil _ (List.cons_ne_nil _ _)
  · cases hopen

theorem shown_elementHere {key : String} {statements : List Statement}
    {entries entries' : Entries} (h : Shown Node.Shows statements entries)
    (hopen : elementHere key entries = some entries') :
    Shown Node.Shows (statements ++ [([key], .element)]) entries' := by
  have hset (earlier : List Entries) (last : Entries) :
      Shown Node.Shows (statements ++ [([key], .element)])
        (entries.set key (.elements earlier last)) :=
    h.set [([], .element)] (.elements List.mem_concat_self)
  rw [elementHere] at hopen
  split at hopen
  · obtain rfl := Option.some.inj hopen
    exact hset _ _
  · obtain rfl := Option.some.inj hopen
    exact hset _ _
  · cases hopen

/-- A header says what it opens. -/
theorem shown_header {what : Said} {change : String → Entries → Option Entries}
    (hchange : ∀ key {statements entries entries'}, Shown Node.Shows statements entries →
      change key entries = some entries' →
      Shown Node.Shows (statements ++ [([key], what)]) entries')
    {path : List String} {statements : List Statement} {entries entries' : Entries}
    (h : Shown Node.Shows statements entries) {key : String} (hlast : path.getLast? = some key)
    (hopen : atHeader (change key) path.dropLast entries = some entries') :
    Shown Node.Shows (statements ++ [(path, what)]) entries' := by
  obtain ⟨front, rfl⟩ := List.getLast?_eq_some_iff.mp hlast
  rw [List.dropLast_concat] at hopen
  exact shown_atHeader (List.cons_ne_nil _ _) (hchange key) h hopen

theorem shown_openTable {path : List String} {statements : List Statement}
    {entries entries' : Entries} (h : Shown Node.Shows statements entries)
    (hopen : openTable path entries = some entries') :
    Shown Node.Shows (statements ++ [(path, .table)]) entries' := by
  rw [openTable] at hopen
  split at hopen
  · cases hopen
  · next key hlast => exact shown_header (fun _ => shown_openHere) h hlast hopen

theorem shown_openElement {path : List String} {statements : List Statement}
    {entries entries' : Entries} (h : Shown Node.Shows statements entries)
    (hopen : openElement path entries = some entries') :
    Shown Node.Shows (statements ++ [(path, .element)]) entries' := by
  rw [openElement] at hopen
  split at hopen
  · cases hopen
  · next key hlast => exact shown_header (fun _ => shown_elementHere) h hlast hopen

/-! ## 4. Whole documents -/

namespace StatementLemmas

theorem lookup_finishEntries (key : String) (entries : Entries) :
    (finishEntries entries).lookup key = (entries.lookup key).map Node.finish := by
  induction entries with
  | nil => rfl
  | cons entry rest ih =>
    obtain ⟨first, n⟩ := entry
    rw [finishEntries, List.lookup_cons, List.lookup_cons, ih]
    cases key == first <;> rfl

theorem keys_finishEntries (entries : Entries) :
    (finishEntries entries).map Prod.fst = entries.map Prod.fst := by
  induction entries with
  | nil => rfl
  | cons entry rest ih =>
    obtain ⟨key, n⟩ := entry
    rw [finishEntries, List.map_cons, List.map_cons, ih]

end StatementLemmas

/-- An entry says the same when it is finished. -/
theorem Node.Shows.finish {statements : List Statement} {n : Node} (h : n.Shows statements) :
    n.finish.Shows statements := by
  induction h with
  | value h => exact h
  | @table statements opening entries hsome hkeys hhere hnone _ ih =>
    refine .table hsome ((keys_finishEntries entries).symm ▸ hkeys) hhere ?_ ?_
    · intro key hlookup
      rw [lookup_finishEntries, Option.map_eq_none_iff] at hlookup
      exact hnone key hlookup
    · intro key v hlookup
      rw [lookup_finishEntries] at hlookup
      obtain ⟨n, hn, rfl⟩ := Option.map_eq_some_iff.mp hlookup
      exact ih key n hn
  | elements h => exact .elements h

theorem Shown.finish {statements : List Statement} {entries : Entries}
    (h : Shown Node.Shows statements entries) :
    Shown Value.Shows statements (finishEntries entries) where
  keys := (keys_finishEntries entries).symm ▸ h.keys
  here := h.here
  none := by
    intro key hlookup
    rw [lookup_finishEntries, Option.map_eq_none_iff] at hlookup
    exact h.none key hlookup
  found := by
    intro key v hlookup
    rw [lookup_finishEntries] at hlookup
    obtain ⟨n, hn, rfl⟩ := Option.map_eq_some_iff.mp hlookup
    exact (h.found key n hn).finish

mutual

/-- A value is as it is written. -/
theorem shows_of_value? {w : Written} {v : Value} (h : w.value? = some v) : v.Shows w.statements := by
  cases w with
  | scalar v' =>
    obtain rfl := Option.some.inj h
    exact .scalar v'
  | array items =>
    rw [Written.value?] at h
    obtain ⟨vs, hvs, rfl⟩ := Option.map_eq_some_iff.mp h
    exact .array hvs
  | inline pairs =>
    rw [Written.value?] at h
    obtain ⟨es, hes, rfl⟩ := Option.map_eq_some_iff.mp h
    have hshown := (shown_of_assignAll? (shown_here shown_nil) hes).finish
    exact .table (List.cons_ne_nil _ _) hshown.keys hshown.here hshown.none hshown.found

theorem shown_of_assignAll? {pairs : List (List String × Written)}
    {statements : List Statement} {entries entries' : Entries}
    (h : Shown Node.Shows statements entries) (hall : assignAll? entries pairs = some entries') :
    Shown Node.Shows (statements ++ pairsSay pairs) entries' := by
  match pairs with
  | [] =>
    obtain rfl := Option.some.inj hall
    rwa [pairsSay, List.append_nil]
  | (path, w) :: rest =>
    rw [assignAll?] at hall
    split at hall
    · cases hall
    · next v hv =>
      split at hall
      · cases hall
      · next es hes =>
        have hnext := shown_assign (shows_of_value? hv) h hes
        rw [pairsSay, ← List.append_assoc]
        exact shown_of_assignAll? hnext hall

end

/-- Lines add what they say. -/
theorem shown_addAll? {lines : List Line} {doc doc' : Progress} {statements : List Statement}
    (h : Shown Node.Shows statements doc.root) (hall : doc.addAll? lines = some doc') :
    Shown Node.Shows (statements ++ saidFrom doc.header lines) doc'.root := by
  induction lines generalizing doc statements with
  | nil =>
    obtain rfl := Option.some.inj hall
    rwa [saidFrom, List.append_nil]
  | cons line rest ih =>
    rw [Progress.addAll?] at hall
    split at hall
    · cases hall
    next next hadd =>
    cases line with
    | table path =>
      obtain ⟨root, hroot, rfl⟩ := Option.map_eq_some_iff.mp hadd
      have hrest := ih (shown_openTable h hroot) hall
      rwa [List.append_assoc] at hrest
    | element path =>
      obtain ⟨root, hroot, rfl⟩ := Option.map_eq_some_iff.mp hadd
      have hrest := ih (shown_openElement h hroot) hall
      rwa [List.append_assoc] at hrest
    | pair path w =>
      rw [Progress.add?] at hadd
      split at hadd
      · cases hadd
      next v hv =>
      obtain ⟨root, hroot, rfl⟩ := Option.map_eq_some_iff.mp hadd
      have hshows := shows_of_value? hv
      have hrest := ih (shown_atHeader (below_ne_nil hshows.ne_nil path) (shown_assign hshows) h
        hroot) hall
      rwa [List.append_assoc] at hrest

/-- The root table that lines build is as they say. -/
theorem shown_build {lines : List Line} {root : List (String × Value)}
    (h : build lines = some root) : Shown Value.Shows (said lines) root := by
  obtain ⟨doc, hdoc, rfl⟩ := Option.map_eq_some_iff.mp h
  have hstart : Shown Node.Shows [] Progress.start.root := shown_nil
  exact (shown_addAll? hstart hdoc).finish

end BackgroundScan.Toml
