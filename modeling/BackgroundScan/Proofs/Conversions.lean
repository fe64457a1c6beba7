import BackgroundScan.Journal
import BackgroundScan.Json.Printer
import BackgroundScan.Number.Nearest
import BackgroundScan.Proofs.Overrides

/-!
# What can be converted, and what is reported otherwise

Converting stops at the first problem. It goes through a value from the outside to the inside
and from left to right, so this is the first problem in the list of all the values inside,
each before what it contains. Of a value itself only two things can be wrong: it is a
container that lies too deep, or an integer past the signed range. So what can be converted
is said without any order, by how deep a value nests and which integers it holds.

1. `Json.parts`: a value and all inside it, in reading order, with their depths.
   `errorOf?_convertValue`: converting fails with the first problem of the parts.
2. `Convertible`: no part has a problem. `parts_within_iff`: how deep the parts lie.
3. `readNumber`: a number is read as the first of three things that it is.
   `readNumber_eq`: so it is converted, and it is always one of the three.
4. `Refused`: what is wrong with arguments. `converts_unless_refused`: arguments are
   converted, or refused for what is wrong with them; only the former takes a lease.
-/

namespace BackgroundScan

/-! ## 1. The first problem of a value -/

/-- Whether a value may hold others. -/
def Json.isContainer : Json → Bool
  | .array _ => true
  | .object _ => true
  | _ => false

mutual

/-- A value at some depth and all values inside it, in reading order, each with its depth: what
a container holds lies one deeper. -/
def Json.parts (depth : Nat) : Json → List (Nat × Json)
  | .array items => (depth, .array items) :: Json.partsOfItems (depth + 1) items
  | .object entries => (depth, .object entries) :: Json.partsOfEntries (depth + 1) entries
  | scalar => [(depth, scalar)]

/-- The parts of the elements of an array. -/
def Json.partsOfItems (depth : Nat) : List Json → List (Nat × Json)
  | [] => []
  | item :: rest => item.parts depth ++ Json.partsOfItems depth rest

/-- The parts of the values of an object. -/
def Json.partsOfEntries (depth : Nat) : List (String × Json) → List (Nat × Json)
  | [] => []
  | (_, value) :: rest => value.parts depth ++ Json.partsOfEntries depth rest

end

/-- What is wrong with a value itself at some depth. -/
def Limits.problem (limits : Limits) : Nat × Json → Option ArgumentError
  | (_, .number (.integer n _)) =>
    if n < 0x8000000000000000 then none else some (.outOfRange n)
  | (depth, value) =>
    if value.isContainer ∧ limits.maxDepth.toNat < depth then some (.tooDeep limits.maxDepth)
    else none

/-- The error of a result. -/
def errorOf? {ε α : Type} : Except ε α → Option ε
  | .error e => some e
  | .ok _ => none

namespace ConversionLemmas

theorem errorOf?_map {ε α β : Type} (f : α → β) (x : Except ε α) :
    errorOf? (x.map f) = errorOf? x := by
  cases x <;> rfl

theorem errorOf?_eq_some {ε α : Type} {x : Except ε α} {e : ε} :
    errorOf? x = some e ↔ x = .error e := by
  cases x with
  | error e' =>
    exact ⟨fun h => congrArg _ (Option.some.inj h), fun h => congrArg _ (Except.error.inj h)⟩
  | ok a => exact ⟨nofun, nofun⟩

theorem errorOf?_eq_none {ε α : Type} {x : Except ε α} :
    errorOf? x = none ↔ ∃ a, x = .ok a := by
  cases x with
  | error e => exact ⟨nofun, nofun⟩
  | ok a => exact ⟨fun _ => ⟨a, rfl⟩, fun _ => rfl⟩

theorem problem_of_isInteger {limits : Limits} {depth : Nat} {value : Json} {n : Int}
    (h : value.IsInteger n) :
    limits.problem (depth, value) =
      if n < 0x8000000000000000 then none else some (.outOfRange n) := by
  obtain ⟨hrange, rfl⟩ := h
  rfl

theorem problem_of_not_isInteger {limits : Limits} {depth : Nat} {value : Json}
    (h : ∀ n, ¬ value.IsInteger n) :
    limits.problem (depth, value) =
      if value.isContainer ∧ limits.maxDepth.toNat < depth then some (.tooDeep limits.maxDepth)
      else none := by
  cases value with
  | number n =>
    cases n with
    | integer n hrange => exact absurd ⟨hrange, rfl⟩ (h n)
    | float x hfinite => rfl
  | _ => rfl

theorem problem_array {limits : Limits} {depth : Nat} {items : List Json} :
    limits.problem (depth, .array items) =
      if limits.maxDepth.toNat < depth then some (.tooDeep limits.maxDepth) else none := by
  simp only [Limits.problem, Json.isContainer, true_and]

theorem problem_object {limits : Limits} {depth : Nat} {entries : List (String × Json)} :
    limits.problem (depth, .object entries) =
      if limits.maxDepth.toNat < depth then some (.tooDeep limits.maxDepth) else none := by
  simp only [Limits.problem, Json.isContainer, true_and]

end ConversionLemmas

open ConversionLemmas

mutual

/-- A value is converted unless one of its parts has a problem, and fails with the first. -/
theorem errorOf?_convertValue (limits : Limits) (depth : Nat) (raw : Json) :
    errorOf? (convertValue limits depth raw) = (raw.parts depth).findSome? limits.problem := by
  cases raw with
  | null | bool b | string s => rfl
  | number n =>
    cases n with
    | float x h => rfl
    | integer n h =>
      simp only [convertValue, Json.parts, List.findSome?, Limits.problem]
      by_cases hn : n < 0x8000000000000000
      · rw [if_pos hn, if_pos hn]
        rfl
      · rw [if_neg hn, if_neg hn]
        rfl
  | array items =>
    have hitems := errorOf?_convertItems limits (depth + 1) items
    rw [convertValue, Json.parts, List.findSome?_cons, problem_array]
    by_cases hdeep : limits.maxDepth.toNat < depth
    · rw [if_pos hdeep, if_pos hdeep]
      rfl
    · rw [if_neg hdeep, if_neg hdeep, errorOf?_map, hitems]
  | object entries =>
    have hentries := errorOf?_convertEntries limits (depth + 1) entries
    rw [convertValue, Json.parts, List.findSome?_cons, problem_object]
    by_cases hdeep : limits.maxDepth.toNat < depth
    · rw [if_pos hdeep, if_pos hdeep]
      rfl
    · rw [if_neg hdeep, if_neg hdeep, errorOf?_map, hentries]

theorem errorOf?_convertItems (limits : Limits) (depth : Nat) (items : List Json) :
    errorOf? (convertItems limits depth items) =
      (Json.partsOfItems depth items).findSome? limits.problem := by
  cases items with
  | nil => rfl
  | cons item rest =>
    have hitem := errorOf?_convertValue limits depth item
    have hrest := errorOf?_convertItems limits depth rest
    rw [convertItems, Json.partsOfItems, List.findSome?_append, ← hitem, ← hrest]
    cases convertValue limits depth item with
    | error e => rfl
    | ok v => exact errorOf?_map _ _

theorem errorOf?_convertEntries (limits : Limits) (depth : Nat) (entries : List (String × Json)) :
    errorOf? (convertEntries limits depth entries) =
      (Json.partsOfEntries depth entries).findSome? limits.problem := by
  match entries with
  | [] => rfl
  | (key, value) :: rest =>
    have hvalue := errorOf?_convertValue limits depth value
    have hrest := errorOf?_convertEntries limits depth rest
    rw [convertEntries, Json.partsOfEntries, List.findSome?_append, ← hvalue, ← hrest]
    cases convertValue limits depth value with
    | error e => rfl
    | ok v => exact errorOf?_map _ _

end

/-! ## 2. Values that can be converted -/

/-- A value nests within the limit and holds no integer past the signed range. -/
structure Convertible (limits : Limits) (raw : Json) : Prop where
  nesting : raw.nesting ≤ limits.maxDepth.toNat
  integers : ∀ part ∈ raw.parts 1, ∀ n, part.2.IsInteger n → n < 0x8000000000000000

namespace ConversionLemmas

theorem problem_eq_none_iff {limits : Limits} {depth : Nat} {value : Json} :
    limits.problem (depth, value) = none ↔
      (value.isContainer = true → depth ≤ limits.maxDepth.toNat) ∧
        ∀ n, value.IsInteger n → n < 0x8000000000000000 := by
  by_cases hinteger : ∃ n, value.IsInteger n
  · obtain ⟨n, hn⟩ := hinteger
    rw [problem_of_isInteger hn]
    obtain ⟨hrange, rfl⟩ := hn
    by_cases hlt : n < 0x8000000000000000
    · rw [if_pos hlt]
      refine ⟨fun _ => ⟨nofun, ?_⟩, fun _ => rfl⟩
      rintro _ ⟨_, ⟨⟩⟩
      exact hlt
    · rw [if_neg hlt]
      exact ⟨nofun, fun h => absurd (h.2 n ⟨hrange, rfl⟩) hlt⟩
  · have hnone : ∀ n, ¬ value.IsInteger n := fun n hn => hinteger ⟨n, hn⟩
    rw [problem_of_not_isInteger hnone]
    by_cases hdeep : value.isContainer = true ∧ limits.maxDepth.toNat < depth
    · rw [if_pos hdeep]
      exact ⟨nofun, fun h => absurd (h.1 hdeep.1) (Nat.not_le_of_lt hdeep.2)⟩
    · rw [if_neg hdeep]
      refine ⟨fun _ => ⟨fun hcontainer => ?_, fun n hn => absurd hn (hnone n)⟩, fun _ => rfl⟩
      exact Nat.le_of_not_lt fun hlt => hdeep ⟨hcontainer, hlt⟩

theorem within_container {value : Json} (h : value.isContainer = true) {depth limit : Nat} :
    (value.isContainer = true → depth ≤ limit) ↔ depth ≤ limit :=
  ⟨fun hwithin => hwithin h, fun hle _ => hle⟩

end ConversionLemmas

mutual

/-- The deepest container of a value that lies at some depth is as deep as the value nests. -/
theorem parts_within_iff (limit depth : Nat) (raw : Json) :
    (∀ part ∈ raw.parts depth, part.2.isContainer = true → part.1 ≤ limit) ↔
      raw.nesting = 0 ∨ depth + raw.nesting ≤ limit + 1 := by
  cases raw with
  | null | bool b | number n | string s =>
    refine ⟨fun _ => .inl rfl, fun _ => ?_⟩
    exact List.forall_mem_singleton.mpr nofun
  | array items =>
    have hitems := partsOfItems_within_iff limit (depth + 1) items
    rw [Json.parts, List.forall_mem_cons, within_container rfl, hitems, Json.nesting]
    omega
  | object entries =>
    have hentries := partsOfEntries_within_iff limit (depth + 1) entries
    rw [Json.parts, List.forall_mem_cons, within_container rfl, hentries, Json.nesting]
    omega

theorem partsOfItems_within_iff (limit depth : Nat) (items : List Json) :
    (∀ part ∈ Json.partsOfItems depth items, part.2.isContainer = true → part.1 ≤ limit) ↔
      Json.nestingItems items = 0 ∨ depth + Json.nestingItems items ≤ limit + 1 := by
  cases items with
  | nil => exact ⟨fun _ => .inl rfl, fun _ => List.forall_mem_nil _⟩
  | cons item rest =>
    have hitem := parts_within_iff limit depth item
    have hrest := partsOfItems_within_iff limit depth rest
    rw [Json.partsOfItems, List.forall_mem_append, hitem, hrest, Json.nestingItems]
    omega

theorem partsOfEntries_within_iff (limit depth : Nat) (entries : List (String × Json)) :
    (∀ part ∈ Json.partsOfEntries depth entries, part.2.isContainer = true → part.1 ≤ limit) ↔
      Json.nestingEntries entries = 0 ∨ depth + Json.nestingEntries entries ≤ limit + 1 := by
  match entries with
  | [] => exact ⟨fun _ => .inl rfl, fun _ => List.forall_mem_nil _⟩
  | (key, value) :: rest =>
    have hvalue := parts_within_iff limit depth value
    have hrest := partsOfEntries_within_iff limit depth rest
    rw [Json.partsOfEntries, List.forall_mem_append, hvalue, hrest, Json.nestingEntries]
    omega

end

theorem convertValue_ok_iff {limits : Limits} {raw : Json} :
    (∃ value, convertValue limits 1 raw = .ok value) ↔ Convertible limits raw := by
  have hdepth : (∀ part ∈ raw.parts 1, part.2.isContainer = true →
      part.1 ≤ limits.maxDepth.toNat) ↔ raw.nesting ≤ limits.maxDepth.toNat := by
    rw [parts_within_iff]
    omega
  rw [← errorOf?_eq_none, errorOf?_convertValue, List.findSome?_eq_none_iff]
  constructor
  · intro h
    exact {
      nesting := hdepth.mp fun part hm => (problem_eq_none_iff.mp (h part hm)).1
      integers := fun part hm => (problem_eq_none_iff.mp (h part hm)).2 }
  · rintro ⟨hnesting, hintegers⟩ part hm
    exact problem_eq_none_iff.mpr ⟨hdepth.mpr hnesting part hm, hintegers part hm⟩

/-! ## 3. Numbers -/

/-- The signed integer that a number can be read as. -/
def Json.Number.asInt64? : Json.Number → Option Int64
  | integer n _ => if n < 0x8000000000000000 then some (.ofInt n) else none
  | float _ _ => none

/-- Whether a number can be read as an unsigned integer. -/
def Json.Number.isUInt64 : Json.Number → Bool
  | integer n _ => decide (0 ≤ n)
  | float _ _ => false

/-- The double that a number can be read as, which is the nearest. -/
def Json.Number.asBinary64? : Json.Number → Option Binary64
  | integer n _ => some (.ofDecimal (decide (n < 0)) n.natAbs 0)
  | float x _ => some x

/-- Reads a number as a signed integer, or refuses it as an unsigned one, or reads it as a
double; with what would be reported if it were none of these. -/
def readNumber (n : Json.Number) : Except String Value :=
  match n.asInt64? with
  | some i => .ok (.integer i)
  | none =>
    if n.isUInt64 then .error ("integer " ++ n.render ++ " out of range")
    else
      match n.asBinary64? with
      | some x => .ok (.float x)
      | none => .error ("unsupported number " ++ n.render)

theorem readNumber_eq (limits : Limits) (depth : Nat) (n : Json.Number) :
    (convertValue limits depth (.number n)).mapError ArgumentError.message = readNumber n := by
  cases n with
  | float x h => rfl
  | integer n h =>
    rw [convertValue, readNumber, Json.Number.asInt64?]
    by_cases hlt : n < 0x8000000000000000
    · rw [if_pos hlt, if_pos hlt]
      rfl
    · have hunsigned : (Json.Number.integer n h).isUInt64 = true := by
        rw [Json.Number.isUInt64, decide_eq_true_eq]
        omega
      rw [if_neg hlt, if_neg hlt]
      dsimp only
      rw [if_pos hunsigned]
      rfl

namespace ConversionLemmas

theorem head?_toList_append {s : String} {c : Char} (h : s.toList.head? = some c)
    (text : String) : (s ++ text).toList.head? = some c := by
  rw [String.toList_append, List.head?_append, h]
  rfl

theorem head?_message (cause : ArgumentError) :
    cause.message.toList.head? = some 'i' ∨ cause.message.toList.head? = some 'n' := by
  have hinteger : "integer ".toList.head? = some 'i' := by rfl
  have hnesting : "nesting depth exceeds limit of ".toList.head? = some 'n' := by rfl
  cases cause with
  | outOfRange n =>
    left
    show ("integer " ++ toString n ++ " out of range").toList.head? = _
    exact head?_toList_append (head?_toList_append hinteger _) _
  | tooDeep limit => exact .inr (head?_toList_append hnesting _)

end ConversionLemmas

theorem message_ne_unsupported (cause : ArgumentError) (text : String) :
    cause.message ≠ "unsupported number " ++ text := by
  intro h
  have hunsupported : "unsupported number ".toList.head? = some 'u' := by rfl
  have hfirst : cause.message.toList.head? = some 'u' := by
    rw [h]
    exact head?_toList_append hunsupported _
  rcases head?_message cause with hi | hn
  · exact absurd (hi.symm.trans hfirst) (by decide)
  · exact absurd (hn.symm.trans hfirst) (by decide)

/-! ## 4. Arguments -/

/-- The first problem among the parts of an argument. -/
def FirstProblem (limits : Limits) (raw : Json) (cause : ArgumentError) : Prop :=
  ∃ earlier part later, raw.parts 1 = earlier ++ part :: later ∧
    limits.problem part = some cause ∧ ∀ part ∈ earlier, limits.problem part = none

/-- The first of some arguments that cannot be converted, by its index, and its first problem. -/
inductive FirstRefused (limits : Limits) : List Json → Nat → ArgumentError → Prop
  | here {item : Json} {rest : List Json} {cause : ArgumentError}
      (problem : FirstProblem limits item cause) : FirstRefused limits (item :: rest) 0 cause
  | later {item : Json} {rest : List Json} {index : Nat} {cause : ArgumentError}
      (first : Convertible limits item) (h : FirstRefused limits rest index cause) :
      FirstRefused limits (item :: rest) (index + 1) cause

/-- What is wrong with arguments: they are no array, or else there are too many, or else one
of them cannot be converted. -/
inductive Refused (limits : Limits) : Json → ConversionError → Prop
  | notAList {raw : Json} (h : ∀ items, raw ≠ .array items) : Refused limits raw .notAList
  | tooMany {items : List Json} (h : limits.maxArgs.toNat < items.length) :
      Refused limits (.array items) (.tooMany items.length limits.maxArgs)
  | argument {items : List Json} {index : Nat} {cause : ArgumentError}
      (count : items.length ≤ limits.maxArgs.toNat) (h : FirstRefused limits items index cause) :
      Refused limits (.array items) (.argument index cause)

theorem convertValue_error_iff {limits : Limits} {raw : Json} {cause : ArgumentError} :
    convertValue limits 1 raw = .error cause ↔ FirstProblem limits raw cause := by
  rw [← errorOf?_eq_some, errorOf?_convertValue, List.findSome?_eq_some_iff]
  rfl

namespace ConversionLemmas

theorem convertFrom_ok_iff {limits : Limits} {index : Nat} {items : List Json} :
    (∃ args, convertFrom limits index items = .ok args) ↔
      ∀ item ∈ items, Convertible limits item := by
  induction items generalizing index with
  | nil => exact ⟨fun _ => List.forall_mem_nil _, fun _ => ⟨[], rfl⟩⟩
  | cons item rest ih =>
    rw [List.forall_mem_cons, ← convertValue_ok_iff, ← ih, convertFrom]
    cases convertValue limits 1 item with
    | error cause => exact ⟨nofun, nofun⟩
    | ok value =>
      dsimp only
      rw [← errorOf?_eq_none, errorOf?_map, errorOf?_eq_none]
      exact ⟨fun hrest => ⟨⟨value, rfl⟩, hrest⟩, And.right⟩

theorem not_firstProblem {limits : Limits} {raw : Json} {cause : ArgumentError}
    (h : Convertible limits raw) : ¬ FirstProblem limits raw cause := by
  intro hproblem
  obtain ⟨value, hvalue⟩ := convertValue_ok_iff.mpr h
  rw [convertValue_error_iff.mpr hproblem] at hvalue
  cases hvalue

theorem convertFrom_error_iff {limits : Limits} {start : Nat} {items : List Json}
    {e : ConversionError} :
    convertFrom limits start items = .error e ↔
      ∃ index cause, FirstRefused limits items index cause ∧
        e = .argument (start + index) cause := by
  induction items generalizing start with
  | nil =>
    refine ⟨nofun, ?_⟩
    rintro ⟨_, _, ⟨⟩, -⟩
  | cons item rest ih =>
    rw [convertFrom]
    cases hitem : convertValue limits 1 item with
    | error cause =>
      have hproblem := convertValue_error_iff.mp hitem
      constructor
      · rintro ⟨⟩
        exact ⟨0, cause, .here hproblem, rfl⟩
      · rintro ⟨_, cause', hother | ⟨hconvertible, -⟩, rfl⟩
        · obtain rfl := Except.error.inj (hitem.symm.trans (convertValue_error_iff.mpr hother))
          rfl
        · exact absurd hproblem (not_firstProblem hconvertible)
    | ok value =>
      have hconvertible := convertValue_ok_iff.mp ⟨value, hitem⟩
      dsimp only
      rw [← errorOf?_eq_some, errorOf?_map, errorOf?_eq_some, ih]
      constructor
      · rintro ⟨index, cause, hrest, rfl⟩
        exact ⟨index + 1, cause, .later hconvertible hrest, by rw [Nat.add_assoc, Nat.add_comm 1]⟩
      · rintro ⟨_, cause, hother | ⟨-, hrest⟩, rfl⟩
        · exact absurd hother (not_firstProblem hconvertible)
        · exact ⟨_, cause, hrest, by rw [Nat.add_assoc, Nat.add_comm 1]⟩

end ConversionLemmas

namespace ConversionLemmas

theorem items?_eq_some_iff {raw : Json} {items : List Json} :
    raw.items? = some items ↔ raw = .array items := by
  cases raw <;> simp [Json.items?]

theorem convertArguments_notAList {limits : Limits} {raw : Json}
    (h : ∀ items, raw ≠ .array items) : convertArguments limits raw = .error .notAList := by
  have hitems : raw.items? = none :=
    Option.eq_none_iff_forall_ne_some.mpr fun items hsome => h items (items?_eq_some_iff.mp hsome)
  rw [convertArguments, hitems]

theorem convertArguments_array {limits : Limits} {items : List Json} :
    convertArguments limits (.array items) =
      if limits.maxArgs.toNat < items.length then .error (.tooMany items.length limits.maxArgs)
      else convertFrom limits 0 items := rfl

end ConversionLemmas

theorem convertArguments_ok_iff {limits : Limits} {raw : Json} :
    (∃ args, convertArguments limits raw = .ok args) ↔
      ∃ items, raw = .array items ∧ items.length ≤ limits.maxArgs.toNat ∧
        ∀ item ∈ items, Convertible limits item := by
  by_cases hlist : ∃ items, raw = .array items
  · obtain ⟨items, rfl⟩ := hlist
    rw [convertArguments_array]
    by_cases hmany : limits.maxArgs.toNat < items.length
    · rw [if_pos hmany, ← errorOf?_eq_none]
      refine ⟨nofun, ?_⟩
      rintro ⟨_, ⟨⟩, hcount, -⟩
      exact absurd hcount (Nat.not_le_of_lt hmany)
    · rw [if_neg hmany, convertFrom_ok_iff]
      refine ⟨fun h => ⟨items, rfl, Nat.le_of_not_lt hmany, h⟩, ?_⟩
      rintro ⟨_, ⟨⟩, -, h⟩
      exact h
  · have hraw : ∀ items, raw ≠ .array items := fun items h => hlist ⟨items, h⟩
    rw [convertArguments_notAList hraw, ← errorOf?_eq_none]
    exact ⟨nofun, fun ⟨items, h, _⟩ => absurd h (hraw items)⟩

theorem convertArguments_error_of_refused {limits : Limits} {raw : Json} {e : ConversionError}
    (h : Refused limits raw e) : convertArguments limits raw = .error e := by
  cases h with
  | notAList hraw => exact convertArguments_notAList hraw
  | tooMany hmany => rw [convertArguments_array, if_pos hmany]
  | argument hcount hfirst =>
    rw [convertArguments_array, if_neg (Nat.not_lt_of_le hcount), convertFrom_error_iff]
    exact ⟨_, _, hfirst, by rw [Nat.zero_add]⟩

theorem convertArguments_error_iff {limits : Limits} {raw : Json} {e : ConversionError} :
    convertArguments limits raw = .error e ↔ Refused limits raw e := by
  refine ⟨fun h => ?_, convertArguments_error_of_refused⟩
  by_cases hlist : ∃ items, raw = .array items
  · obtain ⟨items, rfl⟩ := hlist
    rw [convertArguments_array] at h
    by_cases hmany : limits.maxArgs.toNat < items.length
    · rw [if_pos hmany] at h
      obtain rfl := Except.error.inj h
      exact .tooMany hmany
    · rw [if_neg hmany, convertFrom_error_iff] at h
      obtain ⟨index, cause, hfirst, rfl⟩ := h
      rw [Nat.zero_add]
      exact .argument (Nat.le_of_not_lt hmany) hfirst
  · have hraw : ∀ items, raw ≠ .array items := fun items h => hlist ⟨items, h⟩
    rw [convertArguments_notAList hraw] at h
    obtain rfl := Except.error.inj h
    exact .notAList hraw

/-- Arguments are converted if they are an array of at most so many elements, each nesting
within the limit and holding no integer past the signed range; and a lease is taken. Otherwise
they are refused, for what is wrong first, and nothing is taken. No number is of a kind that
is not supported. -/
theorem converts_unless_refused (j : Journal) (limits : Limits) (raw : Json) :
    let converted := j.convert limits raw
    ((∃ args, converted.1 = .ok args) ↔
        ∃ items, raw = .array items ∧ items.length ≤ limits.maxArgs.toNat ∧
          ∀ item ∈ items, Convertible limits item) ∧
      (∀ e, converted.1 = .error e ↔ Refused limits raw e) ∧
      (∀ args, converted.1 = .ok args →
        converted.2.ledger = ⟨j.ledger.acquired + 1, j.ledger.released⟩ ∧
          converted.2.events = j.events ++ [.acquired .argList]) ∧
      (∀ e, converted.1 = .error e → converted.2 = j ∧ e.failure.kind = .conversion) ∧
      (∀ index cause, (ConversionError.argument index cause).failure.message =
        "argument " ++ toString index ++ ": " ++ cause.message) ∧
      (∀ depth n, (convertValue limits depth (.number n)).mapError ArgumentError.message =
        readNumber n) ∧
      ∀ n text, readNumber n ≠ .error ("unsupported number " ++ text) := by
  intro converted
  have hresult : converted.1 = convertArguments limits raw := by
    show (j.convert limits raw).1 = _
    rw [Journal.convert]
    cases convertArguments limits raw <;> rfl
  rw [hresult]
  refine ⟨convertArguments_ok_iff, fun e => convertArguments_error_iff, fun args h => ?_,
    fun e h => ?_, fun _ _ => rfl, readNumber_eq limits, fun n text h => ?_⟩
  · have hleft : converted.2 = j.acquire .argList := by
      show (j.convert limits raw).2 = _
      rw [Journal.convert, h]
    rw [hleft]
    exact ⟨rfl, rfl⟩
  · refine ⟨?_, rfl⟩
    show (j.convert limits raw).2 = j
    rw [Journal.convert, h]
  · rw [← readNumber_eq limits 1] at h
    obtain ⟨cause, -, hmessage⟩ := mapError_eq_error_iff.mp h
    exact message_ne_unsupported cause text hmessage

/-- The second argument has a container that lies too deep, with an integer past the signed
range inside it and another one after it; it is the container that is reported. The first
argument alone is converted. -/
theorem converts_unless_refused_too_deep :
    let limits : Limits := ⟨1, 3⟩
    let large : Json := .number (.integer 0x8000000000000000 (by decide))
    let deep : Json := .array [.null, .array [large], large]
    let j : Journal := .start .empty
    let refused := j.convert limits (.array [.array [], deep, large])
    refused.1 = .error (.argument 1 (.tooDeep 1)) ∧ refused.2 = j ∧
      (ConversionError.argument 1 (.tooDeep 1)).failure =
        ⟨.conversion, "argument 1: nesting depth exceeds limit of 1"⟩ ∧
      (j.convert limits (.array [.array []])).2.ledger = ⟨1, 0⟩ := by
  intro limits large deep j refused
  have hconvertible : Convertible limits (.array []) := by
    refine ⟨by decide, fun part hm n hn => ?_⟩
    obtain rfl := List.mem_singleton.mp hm
    obtain ⟨_, ⟨⟩⟩ := hn
  have hproblem : FirstProblem limits deep (.tooDeep 1) := by
    refine ⟨[(1, deep), (2, .null)], (2, .array [large]), [(3, large), (2, large)], rfl, rfl, ?_⟩
    simp only [List.forall_mem_cons]
    exact ⟨rfl, rfl, List.forall_mem_nil _⟩
  obtain ⟨-, hrefused, -, hfailed, -⟩ :=
    converts_unless_refused j limits (.array [.array [], deep, large])
  obtain ⟨hok, -, htaken, -⟩ := converts_unless_refused j limits (.array [.array []])
  have herror : refused.1 = .error (.argument 1 (.tooDeep 1)) :=
    (hrefused _).mpr (.argument (by decide) (.later hconvertible (.here hproblem)))
  obtain ⟨args, hargs⟩ :=
    hok.mpr ⟨_, rfl, by decide, List.forall_mem_singleton.mpr hconvertible⟩
  exact ⟨herror, (hfailed _ herror).1, by rfl, (htaken args hargs).1⟩

end BackgroundScan
