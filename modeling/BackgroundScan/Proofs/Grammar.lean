import BackgroundScan.Proofs.Overrides

/-!
# The grammar of a closed record

A closed record of optional settings is given by its keys and by what may stand under each of
them. This module says from these alone, without the draft, which objects are read, and which
problem is reported of one that is not: the first in the order of its keys.

1. `Grammar.Accepts` and `Grammar.FirstProblem`: what an object of settings may be, and what is
   wrong with one that is not so. `not_accepts_of_problem`, `firstProblem_unique`: an object is
   accepted or has just one first problem.
2. `Field.Sets`: when a field is read as a setting. `integer_sets` and `boolean_sets`: optional
   integers and booleans are.
3. `fill_follow` and `decodeEntries_follow`: what an entry, and what all of them, mean for a draft.
4. `decode_ok_iff` and `decode_eq_error_iff`: a closed record of settings is read as its grammar
   says. `decode_object_perm`: in which order the entries come makes no difference to what is read.
-/

namespace BackgroundScan

/-! ## 1. Grammars -/

/-- What may stand under a key: an integer in a range, or a boolean. The integer type is the one
that an error names. -/
inductive Setting
  | integer (kind : IntegerKind) (low high : Int)
  | boolean

namespace Setting

/-- Whether a value may stand for a setting; null always may. -/
inductive Allows : Setting → Json → Prop
  | null {setting : Setting} : Allows setting .null
  | integer {kind : IntegerKind} {low high n : Int}
      {h : -0x8000000000000000 ≤ n ∧ n < 0x10000000000000000}
      (hlow : low ≤ n) (hhigh : n ≤ high) : Allows (.integer kind low high) (.number (.integer n h))
  | boolean (b : Bool) : Allows .boolean (.bool b)

/-- What a reader wants to find. -/
def wanted : Setting → Expectation
  | .integer kind _ _ => .integer kind
  | .boolean => .boolean

/-- What is wrong with a value that may not stand for a setting. -/
def problem : Setting → Json → DecodeError
  | .integer kind _ _, .number (.integer n _) => .outOfRange n kind
  | setting, value => .invalidType value.head setting.wanted

end Setting

/-- The keys of a closed record, each with what may stand under it. -/
abbrev Grammar := List (String × Setting)

namespace Grammar

/-- The keys of a grammar. -/
def keys (g : Grammar) : List String := g.map Prod.fst

/-- Whether an object has only keys of the grammar, none of them twice, with values that may stand
there. -/
structure Accepts (g : Grammar) (entries : List (String × Json)) : Prop where
  keys : (Json.keys entries).Nodup
  values : ∀ entry ∈ entries, ∃ setting, (entry.1, setting) ∈ g ∧ setting.Allows entry.2

/-- What is wrong with an entry that comes after others. -/
inductive Problem (g : Grammar) (earlier : List (String × Json)) :
    String × Json → DecodeError → Prop
  | unknown {key : String} {value : Json} (hkey : key ∉ g.keys) :
      Problem g earlier (key, value) (.unknownField key g.keys)
  | repeated {key : String} {value : Json} (hkey : key ∈ g.keys)
      (hearlier : key ∈ Json.keys earlier) :
      Problem g earlier (key, value) (.duplicateField key)
  | misfit {key : String} {value : Json} {setting : Setting} (hsetting : (key, setting) ∈ g)
      (hearlier : key ∉ Json.keys earlier) (hvalue : ¬ setting.Allows value) :
      Problem g earlier (key, value) (setting.problem value)

/-- Whether this is the problem of the first entry that has one. -/
def FirstProblem (g : Grammar) (entries : List (String × Json)) (cause : DecodeError) : Prop :=
  ∃ earlier entry later, entries = earlier ++ entry :: later ∧ g.Accepts earlier ∧
    g.Problem earlier entry cause

end Grammar

namespace GrammarLemmas

open Grammar

/-- An integer in a range is one of a wider range. -/
theorem allows_widen {kind : IntegerKind} {low high low' high' : Int} (hlow : low' ≤ low)
    (hhigh : high ≤ high') {value : Json} (h : (Setting.integer kind low high).Allows value) :
    (Setting.integer kind low' high').Allows value := by
  cases h with
  | null => exact .null
  | integer hl hh => exact .integer (Int.le_trans hlow hl) (Int.le_trans hh hhigh)

/-- An integer of a wider range that is in a narrower one may stand for it. -/
theorem allows_narrow {kind : IntegerKind} {low high low' high' : Int} {value : Json}
    (h : (Setting.integer kind low' high').Allows value)
    (hrange : ∀ n, value.IsInteger n → low ≤ n ∧ n ≤ high) :
    (Setting.integer kind low high).Allows value := by
  cases h with
  | null => exact .null
  | @integer _ _ _ n hn _ _ =>
    obtain ⟨hlow, hhigh⟩ := hrange n ⟨hn, rfl⟩
    exact .integer hlow hhigh

theorem range_of_allows {kind : IntegerKind} {low high n : Int} {value : Json}
    (h : (Setting.integer kind low high).Allows value) (hn : value.IsInteger n) :
    low ≤ n ∧ n ≤ high := by
  obtain ⟨hrange, rfl⟩ := hn
  cases h with
  | integer hlow hhigh => exact ⟨hlow, hhigh⟩

theorem mem_keys_of_mem {g : Grammar} {key : String} {setting : Setting}
    (h : (key, setting) ∈ g) : key ∈ g.keys :=
  List.mem_map_of_mem h

/-- A key of a grammar has one setting. -/
theorem setting_unique {g : Grammar} (hkeys : g.keys.Nodup) {key : String} {a b : Setting}
    (ha : (key, a) ∈ g) (hb : (key, b) ∈ g) : a = b := by
  induction g with
  | nil => cases ha
  | cons head rest ih =>
    obtain ⟨hhead, hrest⟩ := List.nodup_cons.mp hkeys
    rcases List.mem_cons.mp ha with rfl | ha
    · rcases List.mem_cons.mp hb with heq | hb
      · exact (Prod.mk.inj heq).2.symm
      · exact absurd (mem_keys_of_mem hb) hhead
    · rcases List.mem_cons.mp hb with heq | hb
      · exact absurd (heq ▸ mem_keys_of_mem ha) hhead
      · exact ih hrest ha hb

theorem mem_keys_concat {entries : List (String × Json)} {key other : String} {value : Json} :
    key ∈ Json.keys (entries ++ [(other, value)]) ↔ key ∈ Json.keys entries ∨ key = other := by
  rw [Json.keys, List.map_append, List.mem_append]
  exact or_congr Iff.rfl List.mem_singleton

theorem accepts_nil (g : Grammar) : g.Accepts [] :=
  ⟨List.nodup_nil, fun _ h => absurd h List.not_mem_nil⟩

theorem accepts_concat {g : Grammar} {earlier : List (String × Json)} {key : String}
    {value : Json} {setting : Setting} (hearlier : g.Accepts earlier)
    (hkey : key ∉ Json.keys earlier) (hsetting : (key, setting) ∈ g)
    (hvalue : setting.Allows value) : g.Accepts (earlier ++ [(key, value)]) := by
  constructor
  · rw [Json.keys, List.map_append]
    refine List.nodup_append.mpr ⟨hearlier.keys, List.pairwise_singleton _ _, ?_⟩
    intro k hk other hother heq
    obtain rfl := List.mem_singleton.mp hother
    exact hkey (heq ▸ hk)
  · intro entry hentry
    rcases List.mem_append.mp hentry with hold | hnew
    · exact hearlier.values entry hold
    · obtain rfl := List.mem_singleton.mp hnew
      exact ⟨setting, hsetting, hvalue⟩

/-- Entries of which one has a problem are not accepted. -/
theorem not_accepts_of_problem {g : Grammar} (hkeys : g.keys.Nodup)
    {earlier later : List (String × Json)} {entry : String × Json} {cause : DecodeError}
    (h : g.Problem earlier entry cause) : ¬ g.Accepts (earlier ++ entry :: later) := by
  intro haccepts
  obtain ⟨setting, hsetting, hallows⟩ :=
    haccepts.values entry (List.mem_append_right _ List.mem_cons_self)
  cases h with
  | unknown hkey => exact hkey (mem_keys_of_mem hsetting)
  | @repeated key value hkey hearlier =>
    have hnodup := haccepts.keys
    rw [Json.keys, List.map_append, List.map_cons] at hnodup
    exact (List.nodup_append.mp hnodup).2.2 key hearlier key List.mem_cons_self rfl
  | misfit hwanted hearlier hvalue =>
    obtain rfl := setting_unique hkeys hsetting hwanted
    exact hvalue hallows

theorem problem_unique {g : Grammar} (hkeys : g.keys.Nodup)
    {earlier : List (String × Json)} {entry : String × Json} {cause other : DecodeError}
    (h : g.Problem earlier entry cause) (h' : g.Problem earlier entry other) : cause = other := by
  cases h with
  | unknown hkey =>
    cases h' with
    | unknown _ => rfl
    | repeated hknown _ => exact absurd hknown hkey
    | misfit hsetting _ _ => exact absurd (mem_keys_of_mem hsetting) hkey
  | repeated hkey hearlier =>
    cases h' with
    | unknown hunknown => exact absurd hkey hunknown
    | repeated _ _ => rfl
    | misfit _ hnew _ => exact absurd hearlier hnew
  | misfit hsetting hearlier hvalue =>
    cases h' with
    | unknown hunknown => exact absurd (mem_keys_of_mem hsetting) hunknown
    | repeated _ hold => exact absurd hold hearlier
    | misfit hother _ _ =>
      obtain rfl := setting_unique hkeys hsetting hother
      rfl

/-- Two entries that are the first with a problem are the same one. -/
theorem firstProblem_unique {g : Grammar} (hkeys : g.keys.Nodup)
    {entries : List (String × Json)} {cause other : DecodeError}
    (h : g.FirstProblem entries cause) (h' : g.FirstProblem entries other) : cause = other := by
  obtain ⟨earlier, entry, later, rfl, haccepts, hproblem⟩ := h
  obtain ⟨earlier', entry', later', hsplit, haccepts', hproblem'⟩ := h'
  rcases List.append_eq_append_iff.mp hsplit with ⟨more, rfl, hmore⟩ | ⟨more, rfl, hmore⟩
  · cases more with
    | nil =>
      rw [List.append_nil] at hproblem'
      obtain ⟨rfl, rfl⟩ := List.cons.inj hmore
      exact problem_unique hkeys hproblem hproblem'
    | cons first more =>
      obtain ⟨rfl, -⟩ := List.cons.inj hmore
      exact absurd haccepts' (not_accepts_of_problem hkeys hproblem)
  · cases more with
    | nil =>
      rw [List.append_nil] at hproblem
      obtain ⟨rfl, rfl⟩ := List.cons.inj hmore
      exact problem_unique hkeys hproblem hproblem'
    | cons first more =>
      obtain ⟨rfl, -⟩ := List.cons.inj hmore
      exact absurd haccepts (not_accepts_of_problem hkeys hproblem')

theorem not_accepts_of_firstProblem {g : Grammar} (hkeys : g.keys.Nodup)
    {entries : List (String × Json)} {cause : DecodeError} (h : g.FirstProblem entries cause) :
    ¬ g.Accepts entries := by
  obtain ⟨earlier, entry, later, rfl, -, hproblem⟩ := h
  exact not_accepts_of_problem hkeys hproblem

end GrammarLemmas

open GrammarLemmas

/-! ## 2. Fields that are settings -/

/-- Whether a value was read as the setting has it. -/
def Setting.Explains {α : Type} (setting : Setting) (value : Json) : Except DecodeError α → Prop
  | .ok _ => setting.Allows value
  | .error e => ¬ setting.Allows value ∧ e = setting.problem value

/-- Whether a field is a setting that may be absent. -/
structure Field.Sets (f : Field) (key : String) (setting : Setting) : Prop where
  name : f.name = key
  single : f.secondName = none
  absent : f.absent.isSome = true
  reads : ∀ value, setting.Explains value (f.decode value)

/-- Whether fields are the settings of a grammar, in its order. -/
inductive Follow : List Field → Grammar → Prop
  | nil : Follow [] []
  | cons {f : Field} {fields : List Field} {key : String} {setting : Setting} {g : Grammar}
      (head : f.Sets key setting) (tail : Follow fields g) :
      Follow (f :: fields) ((key, setting) :: g)

/-- Whether a record is closed and has the settings of a grammar. -/
structure Shape.Follows (s : Shape) (g : Grammar) : Prop where
  closed : s.closed = true
  keys : g.keys.Nodup
  fields : Follow s.fields g

namespace GrammarLemmas

theorem explains_map {α β : Type} {setting : Setting} {value : Json} {x : Except DecodeError α}
    (make : α → β) (h : setting.Explains value x) : setting.Explains value (x.map make) := by
  cases x <;> exact h

theorem explains_integer {kind : IntegerKind} {low high : Int} (hlow : kind.low = low)
    (hbound : kind.bound = high + 1) {value : Json} (hvalue : value ≠ .null) :
    (Setting.integer kind low high).Explains value (Scalar.integer kind value.head) := by
  rcases value with _ | b | ⟨n, h⟩ | _ | _ | _
  case null => exact absurd rfl hvalue
  case number.integer =>
    have hiff : kind.low ≤ n ∧ n < kind.bound ↔ low ≤ n ∧ n ≤ high := by omega
    rw [Json.head, Scalar.integer]
    split
    · next hrange =>
      obtain ⟨hl, hh⟩ := hiff.mp hrange
      exact .integer hl hh
    · next hrange =>
      refine ⟨?_, rfl⟩
      rintro (_ | ⟨hl, hh⟩)
      exact hrange (hiff.mpr ⟨hl, hh⟩)
  all_goals
    refine ⟨?_, rfl⟩
    rintro ⟨⟩

theorem explains_boolean {value : Json} (hvalue : value ≠ .null) :
    Setting.boolean.Explains value (Scalar.boolean value.head) := by
  rcases value with _ | b | _ | _ | _ | _
  case null => exact absurd rfl hvalue
  case bool => exact .boolean b
  all_goals
    refine ⟨?_, rfl⟩
    rintro ⟨⟩

/-- An optional field is a setting if what it reads is. -/
theorem optional_sets {α : Type} {key : String} {read : Scalar α} {setting : Setting}
    (h : ∀ value, value ≠ .null → setting.Explains value (read value.head)) :
    (Field.optional key read).Sets key setting := by
  refine ⟨rfl, rfl, rfl, fun value => ?_⟩
  show setting.Explains value (read.optional value.head)
  by_cases hnull : value = .null
  · rw [hnull]
    exact .null
  · have hhead : value.head ≠ .null := mt ObjectLemmas.head_eq_null_iff.mp hnull
    unfold Scalar.optional
    split
    · next heq => exact absurd heq hhead
    · exact explains_map some (h value hnull)

/-- An optional field that is made from an integer of some type is a setting with its range. -/
theorem integer_sets {α : Type} {key : String} {kind : IntegerKind} {make : Int → α}
    {low high : Int} (hlow : kind.low = low) (hbound : kind.bound = high + 1) :
    (Field.optional key fun h => (Scalar.integer kind h).map make).Sets key
      (.integer kind low high) :=
  optional_sets fun _ hvalue => explains_map make (explains_integer hlow hbound hvalue)

theorem boolean_sets (key : String) : (Field.optional key Scalar.boolean).Sets key .boolean :=
  optional_sets fun _ hvalue => explains_boolean hvalue

end GrammarLemmas

/-! ## 3. Drafts -/

/-- Whether just those fields of a draft are filled that have an entry. -/
def Draft.Filled : {fields : List Field} → Draft fields → List (String × Json) → Prop
  | [], _, _ => True
  | f :: _, (slot, rest), earlier =>
    (slot.isSome = true ↔ f.name ∈ Json.keys earlier) ∧ Draft.Filled rest earlier

namespace GrammarLemmas

open Grammar

theorem filled_empty (fields : List Field) : (Draft.empty fields).Filled [] := by
  induction fields with
  | nil => exact trivial
  | cons f rest ih => exact ⟨⟨nofun, nofun⟩, ih⟩

/-- An entry for none of the fields leaves them as filled as they are. -/
theorem filled_concat {fields : List Field} {g : Grammar} (hfields : Follow fields g)
    {key : String} (hkey : key ∉ g.keys) {draft : Draft fields}
    {earlier : List (String × Json)} (hfilled : draft.Filled earlier) (value : Json) :
    draft.Filled (earlier ++ [(key, value)]) := by
  induction hfields with
  | nil => exact trivial
  | @cons f fields name setting g head tail ih =>
    obtain ⟨slot, draft⟩ := draft
    obtain ⟨hslot, hrest⟩ := hfilled
    obtain ⟨hname, hkeys⟩ := not_or.mp (mt List.mem_cons.mpr hkey)
    refine ⟨?_, ih hkeys hrest⟩
    rw [hslot, mem_keys_concat, head.name]
    exact (or_iff_left (Ne.symm hname)).symm

theorem accepts_of_sets {f : Field} {key : String} {setting : Setting}
    (h : f.Sets key setting) (other : String) : f.accepts other = true ↔ other = key := by
  rw [ObjectLemmas.accepts_iff, Field.allNames, h.single, h.name]
  exact List.mem_singleton

/-- A known entry has the same problem where there are more keys. -/
theorem problem_cons {g : Grammar} {first : String × Setting} {earlier : List (String × Json)}
    {key : String} {value : Json} {cause : DecodeError} (hkey : key ∈ g.keys)
    (h : g.Problem earlier (key, value) cause) :
    Problem (first :: g) earlier (key, value) cause := by
  cases h with
  | unknown hunknown => exact absurd hkey hunknown
  | repeated _ hearlier => exact .repeated (List.mem_cons_of_mem _ hkey) hearlier
  | misfit hsetting hearlier hvalue =>
    exact .misfit (List.mem_cons_of_mem _ hsetting) hearlier hvalue

/-- What an entry means for a draft: it is of no field, or a field that was filled before is
repeated, or it is read as its setting has it and then the field is filled. -/
theorem fill_follow {fields : List Field} {g : Grammar} (hfields : Follow fields g)
    (hkeys : g.keys.Nodup) (draft : Draft fields) {earlier : List (String × Json)}
    (hfilled : draft.Filled earlier) (key : String) (value : Json) :
    match draft.fill id key fun f => (f.decode value).map fun v => (v, ()) with
    | .error e => key ∈ g.keys ∧ g.Problem earlier (key, value) e
    | .ok none => key ∉ g.keys
    | .ok (some (filled, ())) =>
      (∃ setting, (key, setting) ∈ g ∧ setting.Allows value) ∧ key ∉ Json.keys earlier ∧
        filled.Filled (earlier ++ [(key, value)]) := by
  induction hfields with
  | nil => exact List.not_mem_nil
  | @cons f fields name setting g head tail ih =>
    obtain ⟨slot, draft⟩ := draft
    obtain ⟨hslot, hrest⟩ := hfilled
    obtain ⟨hhead, htail⟩ := List.nodup_cons.mp hkeys
    rw [ObjectLemmas.fill_cons]
    by_cases hkey : key = name
    · obtain rfl := hkey
      rw [if_pos ((accepts_of_sets head key).mpr rfl)]
      rw [head.name] at hslot
      cases slot with
      | some old =>
        have hold : key ∈ Json.keys earlier := hslot.mp rfl
        rw [head.name]
        exact ⟨List.mem_cons_self, .repeated List.mem_cons_self hold⟩
      | none =>
        have hnew : key ∉ Json.keys earlier := fun h => Bool.false_ne_true (hslot.mpr h)
        have hreads := head.reads value
        cases hdecode : f.decode value with
        | error e =>
          rw [hdecode] at hreads
          obtain ⟨hvalue, rfl⟩ := hreads
          exact ⟨List.mem_cons_self, .misfit List.mem_cons_self hnew hvalue⟩
        | ok v =>
          rw [hdecode] at hreads
          refine ⟨⟨setting, List.mem_cons_self, hreads⟩, hnew, ?_, ?_⟩
          · rw [head.name, mem_keys_concat]
            exact iff_of_true rfl (.inr rfl)
          · exact filled_concat tail hhead hrest value
    · have haccepts : ¬ f.accepts key = true := mt (accepts_of_sets head key).mp hkey
      rw [if_neg haccepts]
      have hrest := ih htail draft hrest
      -- the entry is for a later field or for none, so the slot stays as it is
      cases hfill : draft.fill id key fun f => (f.decode value).map fun v => (v, ()) with
      | error e =>
        rw [hfill] at hrest
        exact ⟨List.mem_cons_of_mem _ hrest.1, problem_cons hrest.1 hrest.2⟩
      | ok found =>
        rw [hfill] at hrest
        cases found with
        | none =>
          exact List.not_mem_cons_of_ne_of_not_mem hkey hrest
        | some filled =>
          obtain ⟨⟨setting', hsetting, hallows⟩, hnew, hfilled⟩ := hrest
          refine ⟨⟨setting', List.mem_cons_of_mem _ hsetting, hallows⟩, hnew, ?_, hfilled⟩
          rw [hslot, mem_keys_concat, head.name]
          exact (or_iff_left (Ne.symm hkey)).symm

/-- A draft of settings can always be finished, because each of them may be absent. -/
theorem finish_follow {fields : List Field} {g : Grammar} (hfields : Follow fields g)
    (draft : Draft fields) : ∃ values, draft.finish = .ok values := by
  induction hfields with
  | nil => exact ⟨(), rfl⟩
  | @cons f fields name setting g head tail ih =>
    obtain ⟨slot, draft⟩ := draft
    obtain ⟨values, hvalues⟩ := ih draft
    obtain ⟨absent, habsent⟩ := Option.isSome_iff_exists.mp head.absent
    rw [Draft.finish, hvalues, habsent]
    cases slot with
    | none => exact ⟨(absent, values), rfl⟩
    | some old => exact ⟨(old, values), rfl⟩

theorem names_follow {fields : List Field} {g : Grammar} (hfields : Follow fields g) :
    fields.map Field.name = g.keys := by
  induction hfields with
  | nil => rfl
  | cons head tail ih => rw [List.map_cons, ih, head.name, keys, keys, List.map_cons]

/-- Entries that come after accepted ones are read if they are accepted with those, and otherwise
the first problem among them is reported. -/
theorem decodeEntries_follow {s : Shape} {g : Grammar} (hs : s.Follows g)
    (draft : Draft s.fields) {earlier : List (String × Json)} (hfilled : draft.Filled earlier)
    (hearlier : g.Accepts earlier) (entries : List (String × Json)) :
    match s.decodeEntries draft entries with
    | .ok _ => g.Accepts (earlier ++ entries)
    | .error e => g.FirstProblem (earlier ++ entries) e := by
  -- what was read before is the invariant: it is accepted, and fills the draft
  induction entries generalizing draft earlier with
  | nil =>
    obtain ⟨values, hvalues⟩ := finish_follow hs.fields draft
    rw [Shape.decodeEntries, hvalues, List.append_nil]
    exact hearlier
  | cons entry rest ih =>
    obtain ⟨key, value⟩ := entry
    have hfill := fill_follow hs.fields hs.keys draft hfilled key value
    rw [Shape.decodeEntries]
    cases hfilled' : draft.fill id key fun f => (f.decode value).map fun v => (v, ()) with
    | error e =>
      rw [hfilled'] at hfill
      exact ⟨earlier, (key, value), rest, rfl, hearlier, hfill.2⟩
    | ok found =>
      rw [hfilled'] at hfill
      cases found with
      | none =>
        simp only [hs.closed, if_true]
        refine ⟨earlier, (key, value), rest, rfl, hearlier, ?_⟩
        rw [Shape.names, names_follow hs.fields]
        exact .unknown hfill
      | some filled =>
        obtain ⟨⟨setting, hsetting, hallows⟩, hnew, hafter⟩ := hfill
        have haccepts := accepts_concat hearlier hnew hsetting hallows
        rw [List.append_cons]
        exact ih filled.1 hafter haccepts

end GrammarLemmas

/-! ## 4. Whole objects -/

/-- An object is read as a closed record of settings exactly when the grammar accepts it. -/
theorem decode_ok_iff {s : Shape} {g : Grammar} (hs : s.Follows g)
    (entries : List (String × Json)) :
    (∃ values, s.decode (.object entries) = .ok values) ↔ g.Accepts entries := by
  have hfollow := decodeEntries_follow hs _ (filled_empty s.fields) (accepts_nil g) entries
  rw [List.nil_append] at hfollow
  rw [Shape.decode]
  cases hdecode : s.decodeEntries (.empty s.fields) entries with
  | ok values =>
    rw [hdecode] at hfollow
    exact iff_of_true ⟨values, rfl⟩ hfollow
  | error e =>
    rw [hdecode] at hfollow
    refine iff_of_false ?_ (not_accepts_of_firstProblem hs.keys hfollow)
    rintro ⟨values, ⟨⟩⟩

/-- The error of an object that is not read as a closed record of settings is its first problem. -/
theorem decode_eq_error_iff {s : Shape} {g : Grammar} (hs : s.Follows g)
    (entries : List (String × Json)) (cause : DecodeError) :
    s.decode (.object entries) = .error cause ↔ g.FirstProblem entries cause := by
  have hfollow := decodeEntries_follow hs _ (filled_empty s.fields) (accepts_nil g) entries
  rw [List.nil_append] at hfollow
  rw [Shape.decode]
  cases hdecode : s.decodeEntries (.empty s.fields) entries with
  | ok values =>
    rw [hdecode] at hfollow
    refine iff_of_false ?_ fun h => not_accepts_of_firstProblem hs.keys h hfollow
    simp only [reduceCtorEq, not_false_eq_true]
  | error e =>
    rw [hdecode] at hfollow
    constructor
    · intro h
      obtain rfl := Except.error.inj h
      exact hfollow
    · intro h
      rw [firstProblem_unique hs.keys hfollow h]

namespace GrammarLemmas

theorem holds_perm {f : Field} {entries entries' : List (String × Json)}
    (hperm : entries.Perm entries') {value : f.Carrier} (h : f.Holds entries value) :
    f.Holds entries' value := by
  have hgiven : (f.given entries).Perm (f.given entries') := (hperm.filter _).map _
  unfold Field.Holds at h ⊢
  cases hfound : f.given entries with
  | nil =>
    rw [hfound] at h hgiven
    rwa [← hgiven.nil_eq]
  | cons raw more =>
    rw [hfound] at h hgiven
    cases more with
    | nil => rwa [← List.singleton_perm.mp hgiven]
    | cons _ _ => exact h.elim

theorem match_perm {fields : List Field} {entries entries' : List (String × Json)}
    (hperm : entries.Perm entries') {values : Values fields} (h : values.Match entries) :
    values.Match entries' := by
  induction fields with
  | nil => exact trivial
  | cons f rest ih =>
    obtain ⟨value, values⟩ := values
    exact ⟨holds_perm hperm h.1, ih h.2⟩

end GrammarLemmas

/-- Entries in another order are read as the same values. -/
theorem decode_object_perm {s : Shape} (hsep : SeparateNames s.fields)
    {entries entries' : List (String × Json)} (hperm : entries.Perm entries')
    {values : Values s.fields} (h : s.decode (.object entries) = .ok values) :
    s.decode (.object entries') = .ok values := by
  obtain ⟨hmatch, hknown⟩ := (decode_object_eq_ok_iff hsep entries values).mp h
  refine (decode_object_eq_ok_iff hsep entries' values).mpr ⟨match_perm hperm hmatch, ?_⟩
  intro hclosed entry hentry
  exact hknown hclosed entry (hperm.mem_iff.mpr hentry)

end BackgroundScan
