import BackgroundScan.Proofs.Grammar
import BackgroundScan.Request
import BackgroundScan.Settings
import BackgroundScan.JobStatus

/-!
# Records from arrays

A record can be given by position, as an array, or by name, as an object. The two are read in
different ways: an array fills the fields in their order and ends where it ends, an object fills
them in its own order and is looked through for what is absent. They come to the same.

1. `Values.InOrder`: what elements mean for the fields in their order.
   `decodeItems_eq_ok_iff`: an array is read as just that.
2. `inOrder_iff_match`: it is what the same elements mean under the names of the fields.
   `decode_array_iff`, `decode_long_array`: so a record is read from an array as it is from an
   object, unless the array is too long.
3. `PositionalAsNamed`, `positionalAsNamed_of_shape`: what that says of a kind of record.
4. `Settings.PoliciesNamed`: policies in settings, given by name instead of by position.
   `positional_as_named`: all kinds of records, and settings with policies in them.
-/

namespace BackgroundScan

/-! ## 1. Elements in order -/

/-- Whether the fields hold their values when the elements are read into them in order, and there
are no more elements than fields. -/
def Values.InOrder : {fields : List Field} → Values fields → List Json → Prop
  | [], _, items => items = []
  | f :: _, (value, values), [] => f.absent = some value ∧ Values.InOrder values []
  | f :: _, (value, values), raw :: items =>
    f.decode raw = .ok value ∧ Values.InOrder values items

namespace PositionLemmas

theorem absent?_eq_some_iff {fields : List Field} (values : Values fields) :
    Values.absent? fields = some values ↔ values.InOrder [] := by
  induction fields with
  | nil => exact iff_of_true rfl rfl
  | cons f rest ih =>
    obtain ⟨value, values⟩ := values
    rw [Values.InOrder, ← ih values]
    show (f.absent.bind fun a => (Values.absent? rest).bind fun more => some (a, more)) = _ ↔ _
    cases f.absent with
    | none => exact ⟨nofun, nofun⟩
    | some a =>
      cases Values.absent? rest with
      | none => exact ⟨nofun, nofun⟩
      | some more =>
        constructor
        · intro h
          obtain ⟨rfl, rfl⟩ := Prod.mk.inj (Option.some.inj h)
          exact ⟨rfl, rfl⟩
        · rintro ⟨⟨⟩, ⟨⟩⟩
          rfl

end PositionLemmas

open PositionLemmas

/-- An array is read as `values` exactly when these are what its elements mean in order. -/
theorem decodeItems_eq_ok_iff (s : Shape) (length : Nat) {fields : List Field}
    (items : List Json) (values : Values fields) :
    s.decodeItems length fields items = .ok values ↔ values.InOrder items := by
  induction fields generalizing items with
  | nil =>
    cases items with
    | nil => exact iff_of_true rfl rfl
    | cons raw items => exact ⟨nofun, nofun⟩
  | cons f rest ih =>
    cases items with
    | nil =>
      rw [← absent?_eq_some_iff, Shape.decodeItems]
      cases Values.absent? (f :: rest) with
      | none => exact ⟨nofun, nofun⟩
      | some found =>
        exact ⟨fun h => congrArg some (Except.ok.inj h), fun h => congrArg _ (Option.some.inj h)⟩
    | cons raw items =>
      obtain ⟨value, values⟩ := values
      rw [Shape.decodeItems, Values.InOrder, ← ih items values]
      cases f.decode raw with
      | error e => exact ⟨nofun, nofun⟩
      | ok a =>
        cases s.decodeItems length rest items with
        | error e => exact ⟨nofun, nofun⟩
        | ok more =>
          rw [Except.ok.injEq]
          exact ObjectLemmas.ok_cons_iff

theorem decode_array_eq_ok_iff (s : Shape) (items : List Json) (values : Values s.fields) :
    s.decode (.array items) = .ok values ↔ values.InOrder items :=
  decodeItems_eq_ok_iff s items.length items values

/-! ## 2. Elements under names -/

namespace PositionLemmas

open ObjectLemmas

theorem accepts_name (f : Field) : f.accepts f.name = true :=
  (accepts_iff f f.name).mpr List.mem_cons_self

/-- Entries under names of other fields give a field nothing. -/
theorem given_names_of_others {f : Field} {others : List Field}
    (h : ∀ g ∈ others, f.accepts g.name = false) (items : List Json) :
    f.given ((others.map Field.name).zip items) = [] := by
  have hnone : ((others.map Field.name).zip items).filter (fun e => f.accepts e.1) = [] := by
    refine List.filter_eq_nil_iff.mpr fun e he => ?_
    obtain ⟨g, hg, hname⟩ := List.mem_map.mp (List.of_mem_zip he).1
    rw [← hname, h g hg]
    exact Bool.false_ne_true
  rw [Field.given, hnone, List.map_nil]

/-- An entry for an earlier field means nothing to the later ones. -/
theorem match_cons_of_others {fields : List Field} {key : String}
    (h : ∀ f ∈ fields, f.accepts key = false) (raw : Json) (entries : List (String × Json))
    (values : Values fields) : values.Match ((key, raw) :: entries) ↔ values.Match entries := by
  rw [← match_empty, match_of_not_accepts h, match_empty]

theorem others_not_accepted {f : Field} {rest : List Field} (hsep : SeparateNames (f :: rest)) :
    ∀ g ∈ rest, f.accepts g.name = false := by
  intro g hg
  refine Bool.eq_false_iff.mpr fun hkey => ?_
  cases (not_accepts_of_separate hsep hkey hg).symm.trans (accepts_name g)

/-- What elements mean in order is what they mean under the names of the fields. -/
theorem inOrder_iff_match {fields : List Field} (hsep : SeparateNames fields) {items : List Json}
    (hlength : items.length ≤ fields.length) (values : Values fields) :
    values.InOrder items ↔ values.Match ((fields.map Field.name).zip items) := by
  induction fields generalizing items with
  | nil => exact iff_of_true (List.eq_nil_of_length_eq_zero (Nat.le_zero.mp hlength)) trivial
  | cons f rest ih =>
    obtain ⟨value, values⟩ := values
    cases items with
    | nil =>
      have hrest : values.InOrder [] ↔ values.Match ((rest.map Field.name).zip []) :=
        ih (separate_tail hsep) (Nat.zero_le _) values
      rw [List.zip_nil_right] at hrest ⊢
      exact and_congr_right fun _ => hrest
    | cons raw items =>
      have hrest := ih (separate_tail hsep) (Nat.le_of_succ_le_succ hlength) values
      have hgiven := given_names_of_others (others_not_accepted hsep) items
      have hothers : ∀ g ∈ rest, g.accepts f.name = false :=
        fun g hg => not_accepts_of_separate hsep (accepts_name f) hg
      rw [List.map_cons, List.zip_cons_cons, Values.InOrder, Values.Match,
        holds_of_accepts (accepts_name f), hgiven, match_cons_of_others hothers, hrest]
      exact and_congr_left fun _ => (and_iff_left rfl).symm

theorem length_le_of_inOrder {fields : List Field} {items : List Json} {values : Values fields}
    (h : values.InOrder items) : items.length ≤ fields.length := by
  induction fields generalizing items with
  | nil => exact Nat.le_of_eq (congrArg List.length h)
  | cons f rest ih =>
    cases items with
    | nil => exact Nat.zero_le _
    | cons raw items => exact Nat.succ_le_succ (ih h.2)

end PositionLemmas

/-- A record is read from an array as it is from an object in which the same elements stand under
the names of the fields, in any order. -/
theorem decode_array_iff {s : Shape} (hsep : SeparateNames s.fields) {items : List Json}
    (hlength : items.length ≤ s.fields.length) {entries : List (String × Json)}
    (hentries : entries.Perm (s.names.zip items)) (values : Values s.fields) :
    s.decode (.array items) = .ok values ↔ s.decode (.object entries) = .ok values := by
  have hknown : s.closed = true → ∀ e ∈ s.names.zip items,
      ∃ f ∈ s.fields, f.accepts e.1 = true := by
    intro _ e he
    obtain ⟨f, hf, hname⟩ := List.mem_map.mp (List.of_mem_zip he).1
    exact ⟨f, hf, hname ▸ accepts_name f⟩
  have hnamed : s.decode (.array items) = .ok values ↔
      s.decode (.object (s.names.zip items)) = .ok values := by
    rw [decode_array_eq_ok_iff, inOrder_iff_match hsep hlength, decode_object_eq_ok_iff hsep]
    exact (and_iff_left hknown).symm
  rw [hnamed]
  exact ⟨decode_object_perm hsep hentries.symm, decode_object_perm hsep hentries⟩

/-- An array with more elements than there are fields is refused. -/
theorem decode_long_array {s : Shape} {items : List Json} (h : s.fields.length < items.length) :
    ∃ e, s.decode (.array items) = .error e := by
  cases hdecode : s.decode (.array items) with
  | error e => exact ⟨e, rfl⟩
  | ok values =>
    rw [decode_array_eq_ok_iff] at hdecode
    exact absurd (length_le_of_inOrder hdecode) (Nat.not_le_of_lt h)

/-! ## 3. Kinds of records -/

/-- Whether a record with these fields is read from an array, where each element is for the field
in its place, as it is from an object with the same elements under the names of the fields. -/
structure PositionalAsNamed {α : Type} (decode : Json → Except DecodeError α)
    (names : List String) : Prop where
  /-- An array may end early, and the object may have any order. -/
  agrees : ∀ items entries, items.length ≤ names.length → entries.Perm (names.zip items) →
    ∀ a, decode (.array items) = .ok a ↔ decode (.object entries) = .ok a
  /-- An array may not be longer. -/
  refuses : ∀ items, names.length < items.length → ∃ e, decode (.array items) = .error e

theorem positionalAsNamed_of_shape {α : Type} {s : Shape} (hsep : SeparateNames s.fields)
    (make : Values s.fields → α) :
    PositionalAsNamed (fun raw => (s.decode raw).map make) s.names := by
  have hnames : s.names.length = s.fields.length := List.length_map ..
  constructor
  · intro items entries hlength hentries a
    rw [hnames] at hlength
    rw [map_eq_ok_iff, map_eq_ok_iff]
    exact exists_congr fun values =>
      and_congr_left fun _ => decode_array_iff hsep hlength hentries values
  · intro items hlength
    rw [hnames] at hlength
    obtain ⟨e, he⟩ := decode_long_array hlength
    exact ⟨e, by rw [he]; rfl⟩

/-- The fields of a request. -/
def ScanRequest.fieldNames : List String :=
  ["namespace", "set", "module", "function", "args", "policy", "options"]

/-- The fields of the settings of a client. -/
def Settings.fieldNames : List String :=
  ["scan_policy", "info_policy", "max_arg_depth", "max_args"]

/-- The fields of a scan policy. -/
def ScanPolicy.fieldNames : List String := ["timeout_ms", "fail_on_cluster_change"]

/-- The fields of an info policy. -/
def InfoPolicy.fieldNames : List String := ["timeout_ms", "send_as_is", "check_bounds"]

/-- The fields of what a store knows of a job. -/
def JobInfo.fieldNames : List String := ["progress_pct", "records_scanned", "status"]

namespace PositionLemmas

theorem request_positional : PositionalAsNamed ScanRequest.decode ScanRequest.fieldNames :=
  positionalAsNamed_of_shape (s := ScanRequest.shape) (by decide) _

theorem settings_positional : PositionalAsNamed Settings.decode Settings.fieldNames :=
  positionalAsNamed_of_shape (s := Settings.shape) (by decide) _

theorem scanPolicy_positional : PositionalAsNamed ScanPolicy.decode ScanPolicy.fieldNames :=
  positionalAsNamed_of_shape (s := ScanPolicy.shape) (by decide) _

theorem infoPolicy_positional : PositionalAsNamed InfoPolicy.decode InfoPolicy.fieldNames :=
  positionalAsNamed_of_shape (s := InfoPolicy.shape) (by decide) _

theorem jobInfo_positional : PositionalAsNamed JobInfo.decode JobInfo.fieldNames :=
  positionalAsNamed_of_shape (s := JobInfo.shape) (by decide) _

end PositionLemmas

/-! ## 4. Policies within settings -/

/-- Whether a value is an array and another the object with its elements under these names, or
both are the same. -/
inductive Json.NamedAs (names : List String) : Json → Json → Prop
  | same (raw : Json) : NamedAs names raw raw
  | named {items : List Json} {entries : List (String × Json)}
      (hlength : items.length ≤ names.length) (hentries : entries.Perm (names.zip items)) :
      NamedAs names (.array items) (.object entries)

/-- Whether elements for the fields of settings are the same except for policies that are given by
name instead of by position. -/
inductive Settings.PoliciesNamed : List Json → List Json → Prop
  | nil : PoliciesNamed [] []
  | scan {scan scan' : Json} (hscan : Json.NamedAs ScanPolicy.fieldNames scan scan') :
      PoliciesNamed [scan] [scan']
  | both {scan scan' info info' : Json} (hscan : Json.NamedAs ScanPolicy.fieldNames scan scan')
      (hinfo : Json.NamedAs InfoPolicy.fieldNames info info') (limits : List Json) :
      PoliciesNamed (scan :: info :: limits) (scan' :: info' :: limits)

namespace PositionLemmas

theorem decode_namedAs {α : Type} {decode : Json → Except DecodeError α} {names : List String}
    (h : PositionalAsNamed decode names) {raw raw' : Json} (hnamed : Json.NamedAs names raw raw')
    (a : α) : decode raw = .ok a ↔ decode raw' = .ok a := by
  cases hnamed with
  | same => exact Iff.rfl
  | named hlength hentries => exact h.agrees _ _ hlength hentries a

/-- Settings from an array are the same whichever way the policies in it are given. -/
theorem decode_policiesNamed {items items' : List Json}
    (h : Settings.PoliciesNamed items items') (settings : Settings) :
    Settings.decode (.array items) = .ok settings ↔
      Settings.decode (.array items') = .ok settings := by
  have hinOrder (values : Values Settings.shape.fields) :
      values.InOrder items ↔ values.InOrder items' := by
    obtain ⟨scan, info, depth, count, ⟨⟩⟩ := values
    cases h with
    | nil => exact Iff.rfl
    | scan hscan => exact and_congr_left fun _ => decode_namedAs scanPolicy_positional hscan scan
    | both hscan hinfo limits =>
      exact and_congr (decode_namedAs scanPolicy_positional hscan scan)
        (and_congr_left fun _ => decode_namedAs infoPolicy_positional hinfo info)
  rw [Settings.decode, Settings.decode, map_eq_ok_iff, map_eq_ok_iff]
  refine exists_congr fun values => and_congr_left fun _ => ?_
  rw [decode_array_eq_ok_iff, decode_array_eq_ok_iff, hinOrder]

theorem length_eq_of_policiesNamed {items items' : List Json}
    (h : Settings.PoliciesNamed items items') : items.length = items'.length := by
  cases h <;> rfl

end PositionLemmas

/-- A request, settings, a policy or what a store knows of a job is read from an array as it is
from an object with the same elements under the names of the fields, and never from an array with
more elements than fields. So are settings if the policies in them are named as well. -/
theorem positional_as_named :
    PositionalAsNamed ScanRequest.decode ScanRequest.fieldNames ∧
      PositionalAsNamed Settings.decode Settings.fieldNames ∧
      PositionalAsNamed ScanPolicy.decode ScanPolicy.fieldNames ∧
      PositionalAsNamed InfoPolicy.decode InfoPolicy.fieldNames ∧
      PositionalAsNamed JobInfo.decode JobInfo.fieldNames ∧
      ∀ items items' entries, Settings.PoliciesNamed items items' →
        items.length ≤ Settings.fieldNames.length →
        entries.Perm (Settings.fieldNames.zip items') → ∀ settings,
          Settings.decode (.array items) = .ok settings ↔
            Settings.decode (.object entries) = .ok settings := by
  refine ⟨request_positional, settings_positional, scanPolicy_positional, infoPolicy_positional,
    jobInfo_positional, ?_⟩
  intro items items' entries hpolicies hlength hentries settings
  rw [length_eq_of_policiesNamed hpolicies] at hlength
  rw [decode_policiesNamed hpolicies]
  exact settings_positional.agrees items' entries hlength hentries settings

/-- Settings of two policies and one limit, in which the first policy ends early and the second is
empty: all that is not given has its default. -/
theorem positional_as_named_short :
    let items : List Json := [.array [.number (.integer 250 (by decide))], .array [],
      .number (.integer 3 (by decide))]
    let entries : List (String × Json) := [("max_arg_depth", .number (.integer 3 (by decide))),
      ("info_policy", .object []),
      ("scan_policy", .object [("timeout_ms", .number (.integer 250 (by decide)))])]
    let settings : Settings :=
      { Settings.standard with scanPolicy := ⟨250, false⟩, maxArgDepth := 3 }
    Settings.decode (.array items) = .ok settings ∧
      Settings.decode (.object entries) = .ok settings := by
  intro items entries settings
  obtain ⟨-, -, -, -, -, hsettings⟩ := positional_as_named
  let named : List Json := [.object [("timeout_ms", .number (.integer 250 (by decide)))],
    .object [], .number (.integer 3 (by decide))]
  have hpolicies : Settings.PoliciesNamed items named :=
    .both (.named (by decide) (.refl _)) (.named (by decide) (.refl _)) _
  have horder : entries.Perm (Settings.fieldNames.zip named) := (List.reverse_perm entries).symm
  have hdecode : Settings.decode (.array items) = .ok settings := rfl
  exact ⟨hdecode, (hsettings items named entries hpolicies (by decide) horder settings).mp hdecode⟩

end BackgroundScan
