import BackgroundScan.Proofs.ReadTrees

/-!
# Converting loses nothing

`Value.embed` writes a value as JSON again. Arguments that were converted are written as the
array they come from: as many elements, nested in the same way, with the same keys in the same
order and every number of the same kind. So the array can be told from the arguments. The other
way round, any values that JSON can express are what their array is converted to. All that comes
from a text are such values, as no key is repeated in what is read.

1. `Value.parts` and `Value.nesting`: the values inside a value, and how deep it nests.
   `parts_embed` and `nesting_embed`: the JSON of a value has the same form.
2. `embeds_of_convertValue`: the result of converting is written as what was converted.
3. `convertValue_embed`: what is written as JSON is converted back.
4. `converts_without_loss`: the same for whole arguments.
-/

namespace BackgroundScan

/-! ## 1. The form of a value -/

mutual

/-- A value and all values inside it, in reading order. -/
def Value.parts : Value → List Value
  | .list items => .list items :: Value.partsOfItems items
  | .map entries => .map entries :: Value.partsOfEntries entries
  | scalar => [scalar]

/-- The parts of the items of a list. -/
def Value.partsOfItems : List Value → List Value
  | [] => []
  | v :: rest => v.parts ++ Value.partsOfItems rest

/-- The parts of the values of a map. -/
def Value.partsOfEntries : List (String × Value) → List Value
  | [] => []
  | (_, v) :: rest => v.parts ++ Value.partsOfEntries rest

end

mutual

/-- How many lists and maps lie inside one another: none for a scalar, one for an empty list. -/
def Value.nesting : Value → Nat
  | .list items => Value.nestingOfItems items + 1
  | .map entries => Value.nestingOfEntries entries + 1
  | _ => 0

/-- The largest nesting among the items of a list. -/
def Value.nestingOfItems : List Value → Nat
  | [] => 0
  | v :: rest => max v.nesting (Value.nestingOfItems rest)

/-- The largest nesting among the values of a map. -/
def Value.nestingOfEntries : List (String × Value) → Nat
  | [] => 0
  | (_, v) :: rest => max v.nesting (Value.nestingOfEntries rest)

end

/-- Whether every double in a value is a number of JSON. -/
def Value.Finite (v : Value) : Prop := ∀ x, .float x ∈ v.parts → x.isFinite = true

/-- A value that JSON can express: its doubles are finite and no map has a key twice. -/
structure Value.Expressible (v : Value) : Prop where
  finite : v.Finite
  keys : ∀ entries, .map entries ∈ v.parts → (entries.map Prod.fst).Nodup

/-- Arguments within the limits on their number and their nesting. -/
structure Limits.Allow (limits : Limits) (args : List Value) : Prop where
  count : args.length ≤ limits.maxArgs.toNat
  nesting : ∀ v ∈ args, v.nesting ≤ limits.maxDepth.toNat

namespace LosslessLemmas

theorem embedFloat_of_finite {x : Binary64} (h : x.isFinite = true) :
    Value.embedFloat x = .number (.float x h) := by
  have hnumber : Json.Number.ofBinary64? x = some (.float x h) := dif_pos h
  rw [Value.embedFloat, hnumber]

/-- A double is written as a scalar in any case. -/
theorem embedFloat_scalar (x : Binary64) (depth : Nat) :
    (Value.embedFloat x).nesting = 0 ∧
      (Value.embedFloat x).parts depth = [(depth, Value.embedFloat x)] := by
  unfold Value.embedFloat
  cases Json.Number.ofBinary64? x with
  | none => exact ⟨rfl, rfl⟩
  | some n => exact ⟨rfl, rfl⟩

end LosslessLemmas

open LosslessLemmas

mutual

theorem nesting_embed (v : Value) : v.embed.nesting = v.nesting := by
  cases v with
  | nil | bool b | integer n | string s => rfl
  | float x => exact (embedFloat_scalar x 0).1
  | list items =>
    have hitems := nesting_embedItems items
    rw [Value.embed, Json.nesting, Value.nesting, hitems]
  | map entries =>
    have hentries := nesting_embedEntries entries
    rw [Value.embed, Json.nesting, Value.nesting, hentries]

theorem nesting_embedItems (items : List Value) :
    Json.nestingItems (Value.embedItems items) = Value.nestingOfItems items := by
  cases items with
  | nil => rfl
  | cons v rest =>
    have hv := nesting_embed v
    have hrest := nesting_embedItems rest
    rw [Value.embedItems, Json.nestingItems, Value.nestingOfItems, hv, hrest]

theorem nesting_embedEntries (entries : List (String × Value)) :
    Json.nestingEntries (Value.embedEntries entries) = Value.nestingOfEntries entries := by
  match entries with
  | [] => rfl
  | (key, v) :: rest =>
    have hv := nesting_embed v
    have hrest := nesting_embedEntries rest
    rw [Value.embedEntries, Json.nestingEntries, Value.nestingOfEntries, hv, hrest]

end

mutual

/-- The parts of a value are written as the parts of what it is written as. -/
theorem parts_embed (v : Value) (depth : Nat) :
    (v.embed.parts depth).map Prod.snd = v.parts.map Value.embed := by
  cases v with
  | nil | bool b | integer n | string s => rfl
  | float x =>
    rw [Value.embed, (embedFloat_scalar x depth).2]
    rfl
  | list items =>
    have hitems := parts_embedItems items (depth + 1)
    rw [Value.parts, List.map_cons, Value.embed, Json.parts, List.map_cons, hitems]
  | map entries =>
    have hentries := parts_embedEntries entries (depth + 1)
    rw [Value.parts, List.map_cons, Value.embed, Json.parts, List.map_cons, hentries]

theorem parts_embedItems (items : List Value) (depth : Nat) :
    (Json.partsOfItems depth (Value.embedItems items)).map Prod.snd =
      (Value.partsOfItems items).map Value.embed := by
  cases items with
  | nil => rfl
  | cons v rest =>
    have hv := parts_embed v depth
    have hrest := parts_embedItems rest depth
    rw [Value.embedItems, Json.partsOfItems, Value.partsOfItems, List.map_append,
      List.map_append, hv, hrest]

theorem parts_embedEntries (entries : List (String × Value)) (depth : Nat) :
    (Json.partsOfEntries depth (Value.embedEntries entries)).map Prod.snd =
      (Value.partsOfEntries entries).map Value.embed := by
  match entries with
  | [] => rfl
  | (key, v) :: rest =>
    have hv := parts_embed v depth
    have hrest := parts_embedEntries rest depth
    rw [Value.embedEntries, Json.partsOfEntries, Value.partsOfEntries, List.map_append,
      List.map_append, hv, hrest]

end

theorem keys_embedEntries (entries : List (String × Value)) :
    Json.keys (Value.embedEntries entries) = entries.map Prod.fst := by
  induction entries with
  | nil => rfl
  | cons entry rest ih =>
    obtain ⟨key, v⟩ := entry
    rw [Value.embedEntries, List.map_cons, ← ih]
    rfl

namespace LosslessLemmas

/-- Only a map is written as an object. -/
theorem embed_eq_object {v : Value} {entries : List (String × Json)}
    (h : v.embed = .object entries) : ∃ es, v = .map es ∧ Value.embedEntries es = entries := by
  cases v with
  | map es => exact ⟨es, rfl, Json.object.inj h⟩
  | float x =>
    have hscalar := (embedFloat_scalar x 0).1
    rw [show Value.embedFloat x = .object entries from h] at hscalar
    cases hscalar
  | _ => cases h

end LosslessLemmas

/-- A value is written without repeated keys exactly when none of its maps has one. -/
theorem proper_embed_iff {v : Value} :
    v.embed.Proper ↔ ∀ entries, .map entries ∈ v.parts → (entries.map Prod.fst).Nodup := by
  have hparts := parts_embed v 0
  constructor
  · intro hproper entries hmem
    have hembed : (Value.map entries).embed ∈ (v.embed.parts 0).map Prod.snd := by
      rw [hparts]
      exact List.mem_map_of_mem hmem
    obtain ⟨part, hpart, hobject⟩ := List.mem_map.mp hembed
    rw [← keys_embedEntries]
    exact hproper part hpart _ hobject
  · intro hkeys part hpart entries hobject
    have hembed : part.2 ∈ v.parts.map Value.embed := by
      rw [← hparts]
      exact List.mem_map_of_mem hpart
    obtain ⟨w, hw, hwritten⟩ := List.mem_map.mp hembed
    obtain ⟨es, rfl, rfl⟩ := embed_eq_object (hwritten.trans hobject)
    rw [keys_embedEntries]
    exact hkeys es hw

/-! ## 2. From JSON to values and back -/

namespace LosslessLemmas

theorem finite_scalar {v : Value} (hparts : v.parts = [v]) (h : ∀ x, v ≠ .float x) :
    v.Finite := by
  intro x hx
  rw [hparts, List.mem_singleton] at hx
  exact absurd hx.symm (h x)

end LosslessLemmas

mutual

/-- The result of converting is written as what was converted, and all its doubles are finite. -/
theorem embeds_of_convertValue {limits : Limits} {depth : Nat} {raw : Json} {v : Value}
    (h : convertValue limits depth raw = .ok v) : v.embed = raw ∧ v.Finite := by
  cases raw with
  | null | bool b | string s =>
    obtain rfl := Except.ok.inj h
    exact ⟨rfl, finite_scalar rfl nofun⟩
  | number n =>
    cases n with
    | float x hx =>
      obtain rfl := Except.ok.inj h
      refine ⟨embedFloat_of_finite hx, ?_⟩
      intro y hy
      obtain rfl := Value.float.inj (List.mem_singleton.mp hy)
      exact hx
    | integer n hn =>
      rw [convertValue] at h
      split at h
      · next hlt =>
        obtain rfl := Except.ok.inj h
        refine ⟨?_, finite_scalar rfl nofun⟩
        have hvalue : (Int64.ofInt n).toInt = n := Int64.toInt_ofInt_of_le hn.1 hlt
        simp only [Value.embed, Value.embedInteger, hvalue]
      · cases h
  | array items =>
    rw [convertValue] at h
    split at h
    · cases h
    · obtain ⟨vs, hvs, rfl⟩ := map_eq_ok_iff.mp h
      obtain ⟨hembed, hfinite⟩ := embeds_of_convertItems hvs
      refine ⟨by rw [Value.embed, hembed], ?_⟩
      intro x hx
      rw [Value.parts, List.mem_cons] at hx
      exact hfinite x (hx.resolve_left nofun)
  | object entries =>
    rw [convertValue] at h
    split at h
    · cases h
    · obtain ⟨es, hes, rfl⟩ := map_eq_ok_iff.mp h
      obtain ⟨hembed, hfinite⟩ := embeds_of_convertEntries hes
      refine ⟨by rw [Value.embed, hembed], ?_⟩
      intro x hx
      rw [Value.parts, List.mem_cons] at hx
      exact hfinite x (hx.resolve_left nofun)

theorem embeds_of_convertItems {limits : Limits} {depth : Nat} {items : List Json}
    {vs : List Value} (h : convertItems limits depth items = .ok vs) :
    Value.embedItems vs = items ∧ ∀ x, .float x ∈ Value.partsOfItems vs → x.isFinite = true := by
  cases items with
  | nil =>
    obtain rfl := Except.ok.inj h
    exact ⟨rfl, fun x hx => nomatch hx⟩
  | cons item rest =>
    rw [convertItems] at h
    cases hitem : convertValue limits depth item with
    | error e =>
      rw [hitem] at h
      cases h
    | ok v =>
      rw [hitem] at h
      obtain ⟨ws, hrest, rfl⟩ := map_eq_ok_iff.mp h
      obtain ⟨hv, hfinite⟩ := embeds_of_convertValue hitem
      obtain ⟨hws, hfiniteRest⟩ := embeds_of_convertItems hrest
      refine ⟨by rw [Value.embedItems, hv, hws], ?_⟩
      intro x hx
      rw [Value.partsOfItems, List.mem_append] at hx
      exact hx.elim (hfinite x) (hfiniteRest x)

theorem embeds_of_convertEntries {limits : Limits} {depth : Nat}
    {entries : List (String × Json)} {es : List (String × Value)}
    (h : convertEntries limits depth entries = .ok es) :
    Value.embedEntries es = entries ∧
      ∀ x, .float x ∈ Value.partsOfEntries es → x.isFinite = true := by
  match entries with
  | [] =>
    obtain rfl := Except.ok.inj h
    exact ⟨rfl, fun x hx => nomatch hx⟩
  | (key, value) :: rest =>
    rw [convertEntries] at h
    cases hvalue : convertValue limits depth value with
    | error e =>
      rw [hvalue] at h
      cases h
    | ok v =>
      rw [hvalue] at h
      obtain ⟨fs, hrest, rfl⟩ := map_eq_ok_iff.mp h
      obtain ⟨hv, hfinite⟩ := embeds_of_convertValue hvalue
      obtain ⟨hfs, hfiniteRest⟩ := embeds_of_convertEntries hrest
      refine ⟨by rw [Value.embedEntries, hv, hfs], ?_⟩
      intro x hx
      rw [Value.partsOfEntries, List.mem_append] at hx
      exact hx.elim (hfinite x) (hfiniteRest x)

end

/-! ## 3. From values to JSON and back -/

namespace LosslessLemmas

theorem finite_cons {v : Value} {rest : List Value}
    (h : ∀ x, .float x ∈ v.parts ++ rest → x.isFinite = true) :
    v.Finite ∧ ∀ x, .float x ∈ rest → x.isFinite = true :=
  ⟨fun x hx => h x (List.mem_append_left _ hx), fun x hx => h x (List.mem_append_right _ hx)⟩

end LosslessLemmas

mutual

/-- A value that lies at some depth is converted back if its containers are within the limit. -/
theorem convertValue_embed {limits : Limits} {depth : Nat} {v : Value} (hfinite : v.Finite)
    (hdeep : v.nesting = 0 ∨ depth + v.nesting ≤ limits.maxDepth.toNat + 1) :
    convertValue limits depth v.embed = .ok v := by
  cases v with
  | nil | bool b | string s => rfl
  | integer n =>
    have hlt : n.toInt < 0x8000000000000000 := n.toInt_lt
    rw [Value.embed, Value.embedInteger, convertValue, if_pos hlt, Int64.ofInt_toInt]
  | float x =>
    rw [Value.embed, embedFloat_of_finite (hfinite x (List.mem_singleton_self _))]
    rfl
  | list items =>
    have hitems : ∀ x, .float x ∈ Value.partsOfItems items → x.isFinite = true :=
      fun x hx => hfinite x (List.mem_cons_of_mem _ hx)
    rw [Value.nesting] at hdeep
    rw [Value.embed, convertValue, if_neg (by omega), convertItems_embed hitems (by omega)]
    rfl
  | map entries =>
    have hentries : ∀ x, .float x ∈ Value.partsOfEntries entries → x.isFinite = true :=
      fun x hx => hfinite x (List.mem_cons_of_mem _ hx)
    rw [Value.nesting] at hdeep
    rw [Value.embed, convertValue, if_neg (by omega), convertEntries_embed hentries (by omega)]
    rfl

theorem convertItems_embed {limits : Limits} {depth : Nat} {items : List Value}
    (hfinite : ∀ x, .float x ∈ Value.partsOfItems items → x.isFinite = true)
    (hdeep : Value.nestingOfItems items = 0 ∨
      depth + Value.nestingOfItems items ≤ limits.maxDepth.toNat + 1) :
    convertItems limits depth (Value.embedItems items) = .ok items := by
  cases items with
  | nil => rfl
  | cons v rest =>
    obtain ⟨hv, hrest⟩ := finite_cons hfinite
    rw [Value.nestingOfItems] at hdeep
    rw [Value.embedItems, convertItems, convertValue_embed hv (by omega),
      convertItems_embed hrest (by omega)]
    rfl

theorem convertEntries_embed {limits : Limits} {depth : Nat} {entries : List (String × Value)}
    (hfinite : ∀ x, .float x ∈ Value.partsOfEntries entries → x.isFinite = true)
    (hdeep : Value.nestingOfEntries entries = 0 ∨
      depth + Value.nestingOfEntries entries ≤ limits.maxDepth.toNat + 1) :
    convertEntries limits depth (Value.embedEntries entries) = .ok entries := by
  match entries with
  | [] => rfl
  | (key, v) :: rest =>
    obtain ⟨hv, hrest⟩ := finite_cons hfinite
    rw [Value.nestingOfEntries] at hdeep
    rw [Value.embedEntries, convertEntries, convertValue_embed hv (by omega),
      convertEntries_embed hrest (by omega)]
    rfl

end

/-! ## 4. Whole arguments -/

namespace LosslessLemmas

/-- Arguments are converted as the items of a list are; only their errors are worded apart. -/
theorem convertFrom_eq_ok_iff {limits : Limits} {index : Nat} {items : List Json}
    {args : List Value} :
    convertFrom limits index items = .ok args ↔ convertItems limits 1 items = .ok args := by
  induction items generalizing index args with
  | nil => simp only [convertFrom, convertItems, Except.ok.injEq]
  | cons item rest ih =>
    rw [convertFrom, convertItems]
    cases convertValue limits 1 item with
    | error e => simp only [reduceCtorEq]
    | ok v =>
      simp only [map_eq_ok_iff]
      exact exists_congr fun vs => and_congr_left fun _ => ih

theorem convertArguments_eq_ok_iff {limits : Limits} {raw : Json} {args : List Value} :
    convertArguments limits raw = .ok args ↔
      ∃ items, raw = .array items ∧ items.length ≤ limits.maxArgs.toNat ∧
        convertItems limits 1 items = .ok args := by
  constructor
  · intro h
    obtain ⟨items, rfl, hcount, -⟩ := convertArguments_ok_iff.mp ⟨args, h⟩
    rw [ConversionLemmas.convertArguments_array, if_neg (Nat.not_lt_of_le hcount)] at h
    exact ⟨items, rfl, hcount, convertFrom_eq_ok_iff.mp h⟩
  · rintro ⟨items, rfl, hcount, h⟩
    rw [ConversionLemmas.convertArguments_array, if_neg (Nat.not_lt_of_le hcount)]
    exact convertFrom_eq_ok_iff.mpr h

theorem nestingOfItems_le_iff {items : List Value} {limit : Nat} :
    Value.nestingOfItems items ≤ limit ↔ ∀ v ∈ items, v.nesting ≤ limit := by
  induction items with
  | nil => exact ⟨fun _ => List.forall_mem_nil _, fun _ => Nat.zero_le _⟩
  | cons v rest ih => rw [Value.nestingOfItems, Nat.max_le, List.forall_mem_cons, ih]

theorem nestingItems_le {items : List Json} {limit : Nat}
    (h : ∀ item ∈ items, item.nesting ≤ limit) : Json.nestingItems items ≤ limit := by
  induction items with
  | nil => exact Nat.zero_le _
  | cons item rest ih =>
    obtain ⟨hitem, hrest⟩ := List.forall_mem_cons.mp h
    exact Nat.max_le.mpr ⟨hitem, ih hrest⟩

theorem length_embedItems (items : List Value) :
    (Value.embedItems items).length = items.length := by
  induction items with
  | nil => rfl
  | cons v rest ih => rw [Value.embedItems, List.length_cons, List.length_cons, ih]

end LosslessLemmas

theorem embeds_of_convertArguments {limits : Limits} {raw : Json} {args : List Value}
    (h : convertArguments limits raw = .ok args) :
    (Value.list args).embed = raw ∧ (Value.list args).Finite := by
  obtain ⟨items, rfl, -, hitems⟩ := convertArguments_eq_ok_iff.mp h
  obtain ⟨hembed, hfinite⟩ := embeds_of_convertItems hitems
  refine ⟨by rw [Value.embed, hembed], ?_⟩
  intro x hx
  rw [Value.parts, List.mem_cons] at hx
  exact hfinite x (hx.resolve_left nofun)

theorem expressible_of_convertArguments {limits : Limits} {raw : Json} {args : List Value}
    (hproper : raw.Proper) (h : convertArguments limits raw = .ok args) :
    (Value.list args).Expressible := by
  obtain ⟨rfl, hfinite⟩ := embeds_of_convertArguments h
  exact ⟨hfinite, proper_embed_iff.mp hproper⟩

theorem allow_of_convertArguments {limits : Limits} {raw : Json} {args : List Value}
    (h : convertArguments limits raw = .ok args) : limits.Allow args := by
  obtain ⟨items, rfl, hcount, hconvertible⟩ := convertArguments_ok_iff.mp ⟨args, h⟩
  obtain rfl := Json.array.inj (embeds_of_convertArguments h).1
  have hnesting := nestingItems_le fun item hitem => (hconvertible item hitem).nesting
  rw [length_embedItems] at hcount
  rw [nesting_embedItems, nestingOfItems_le_iff] at hnesting
  exact ⟨hcount, hnesting⟩

theorem convertArguments_embed {limits : Limits} {args : List Value}
    (hfinite : (Value.list args).Finite) (hallow : limits.Allow args) :
    convertArguments limits (Value.list args).embed = .ok args := by
  have hitems : ∀ x, .float x ∈ Value.partsOfItems args → x.isFinite = true :=
    fun x hx => hfinite x (List.mem_cons_of_mem _ hx)
  have hnesting := nestingOfItems_le_iff.mpr hallow.nesting
  refine convertArguments_eq_ok_iff.mpr ⟨_, rfl, ?_, convertItems_embed hitems (by omega)⟩
  rw [length_embedItems]
  exact hallow.count

/-- Arguments that were converted are written as the array they come from. Values that JSON can
express, and no others, come from an array that repeats no key; within the limits they come from
the one they are written as. So different arrays are never converted to the same arguments, and
arguments that come from a text are always values that JSON can express. -/
theorem converts_without_loss (limits : Limits) :
    (∀ raw args, convertArguments limits raw = .ok args → (Value.list args).embed = raw) ∧
      (∀ args, (Value.list args).Expressible → limits.Allow args →
        (Value.list args).embed.Proper ∧
          convertArguments limits (Value.list args).embed = .ok args) ∧
      (∀ raw args, raw.Proper → convertArguments limits raw = .ok args →
        (Value.list args).Expressible ∧ limits.Allow args) ∧
      (∀ limits' raw raw' args, convertArguments limits raw = .ok args →
        convertArguments limits' raw' = .ok args → raw = raw') ∧
      ∀ room text raw args, Json.parse room text = some raw →
        convertArguments limits raw = .ok args → (Value.list args).Expressible := by
  refine ⟨?_, ?_, ?_, ?_, ?_⟩
  · intro raw args h
    exact (embeds_of_convertArguments h).1
  · intro args hexpressible hallow
    exact ⟨proper_embed_iff.mpr hexpressible.keys,
      convertArguments_embed hexpressible.finite hallow⟩
  · intro raw args hproper h
    exact ⟨expressible_of_convertArguments hproper h, allow_of_convertArguments h⟩
  · intro limits' raw raw' args h h'
    rw [← (embeds_of_convertArguments h).1, (embeds_of_convertArguments h').1]
  · intro room text raw args hread h
    exact expressible_of_convertArguments (Json.proper_of_parse hread) h

/-- A map with a nested list, and beside it the least integer. With the number one as a double in
it the list is written as another array than with the integer one. -/
theorem converts_without_loss_nested :
    let limits : Limits := ⟨2, 2⟩
    let one : Binary64 := ⟨0x3FF0000000000000⟩
    let args : List Value :=
      [.map [("z", .nil), ("a", .list [.float one])], .integer Int64.minValue]
    let least : Json := .number (.integer (-0x8000000000000000) (by decide))
    let raw : Json := .array
      [.object [("z", .null), ("a", .array [.number (.float one (by decide))])], least]
    let other : Json := .array
      [.object [("z", .null), ("a", .array [.number (.integer 1 (by decide))])], least]
    (Value.list args).embed = raw ∧ raw.Proper ∧ convertArguments limits raw = .ok args ∧
      (Value.list args).Expressible ∧ convertArguments limits other ≠ .ok args := by
  intro limits one args least raw other
  have hfinite : (Value.list args).Finite := by
    intro x hx
    simp only [args, Value.parts, Value.partsOfItems, Value.partsOfEntries, List.cons_append,
      List.nil_append, List.append_nil, List.mem_cons, reduceCtorEq, Value.float.injEq,
      List.not_mem_nil, or_false, false_or] at hx
    rw [hx]
    decide
  have hkeys : ∀ entries, .map entries ∈ (Value.list args).parts →
      (entries.map Prod.fst).Nodup := by
    intro entries hentries
    simp only [args, Value.parts, Value.partsOfItems, Value.partsOfEntries, List.cons_append,
      List.nil_append, List.append_nil, List.mem_cons, reduceCtorEq, Value.map.injEq,
      List.not_mem_nil, or_false, false_or] at hentries
    rw [hentries]
    decide
  have hallow : limits.Allow args := ⟨by decide, by decide⟩
  have hwritten : (Value.list args).embed = raw := by rfl
  obtain ⟨hback, hthere, hexpressible, hone, -⟩ := converts_without_loss limits
  obtain ⟨hproper, hconverted⟩ := hthere args ⟨hfinite, hkeys⟩ hallow
  rw [hwritten] at hproper hconverted
  refine ⟨hback raw args hconverted, hproper, hconverted,
    (hexpressible raw args hproper hconverted).1, ?_⟩
  intro hother
  have hsame := hone limits raw other args hconverted hother
  simp only [raw, other, Json.array.injEq, List.cons.injEq, Json.object.injEq, Prod.mk.injEq,
    Json.number.injEq, reduceCtorEq, false_and, and_false] at hsame

end BackgroundScan
