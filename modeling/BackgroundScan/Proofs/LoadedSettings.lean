import BackgroundScan.Proofs.SettingStatements

/-!
# Settings from a document

What settings a document loads to is decided by what it says of settings, and only a document that
says what settings may be is loaded.

1. `ofTable?_eq_some_iff`: the root table is read field by field. `shown_entriesAt`: the table of
   a policy is as the document says.
2. `ofTable?_eq_some_iff_sets`: so settings are read from a document. `loads_what_is_said`: the
   outcome of loading one. `load_of_not_document`: all other texts are refused.
-/

namespace BackgroundScan.Settings

open Toml Toml.StatementLemmas LoadLemmas

/-! ## 1. Tables -/

/-- The entries under a key; none if it is not there. -/
def entriesAt (root : List (String × Toml.Value)) (key : String) : List (String × Toml.Value) :=
  match root.lookup key with
  | some (.table entries) => entries
  | _ => []

namespace LoadLemmas

theorem guarded_eq_some_iff {α : Type} {passes : Bool} {x : Option α} {a : α} :
    (if (!passes) = true then none else x) = some a ↔ passes = true ∧ x = some a := by
  cases passes with
  | false => exact ⟨nofun, nofun⟩
  | true => exact ⟨fun h => ⟨rfl, h⟩, fun h => h.2⟩

end LoadLemmas

section Tables

variable {statements : List Statement} {root entries : List (String × Toml.Value)} {key : String}

theorem shown_entriesAt (h : Shown Toml.Value.Shows statements root) (hplain : Plain statements)
    (htable : ∀ v, root.lookup key = some v → ∃ entries, v = .table entries) :
    Shown Toml.Value.Shows (under key statements) (entriesAt root key) := by
  unfold entriesAt
  cases hlookup : root.lookup key with
  | none =>
    rw [h.none key hlookup]
    exact ⟨List.nodup_nil, fun _ hmem => absurd hmem List.not_mem_nil, fun _ _ => rfl, nofun⟩
  | some v =>
    obtain ⟨entries, rfl⟩ := htable v hlookup
    have hshows := h.found key _ hlookup
    generalize hsaid : under key statements = there at hshows
    cases hshows with
    | scalar =>
      -- what is said to be a scalar is no table
      have hmem : ([], .scalar (.table entries)) ∈ under key statements :=
        hsaid ▸ List.mem_singleton_self _
      exact absurd rfl ((hplain _ _ (mem_under.mp hmem)).2 entries)
    | table hsome hkeys hhere hnone hfound => exact ⟨hkeys, hhere, hnone, hfound⟩

/-- A policy that is not there is read as one of which nothing is set. -/
theorem readField_policy {P : Type} {read : Toml.Value → Option P} {default : P}
    (hdefault : read (.table []) = some default)
    (htable : ∀ v, root.lookup key = some v → ∃ entries, v = .table entries) :
    readField read default (root.lookup key) = read (.table (entriesAt root key)) := by
  unfold entriesAt
  cases hlookup : root.lookup key with
  | none => exact hdefault.symm
  | some v =>
    obtain ⟨entries, rfl⟩ := htable v hlookup
    rfl

theorem scanPolicy?_eq_some_iff (p : ScanPolicy) :
    scanPolicy? (.table entries) = some p ↔ entriesReadable entries = true ∧
      readField word? 0 (entries.lookup "timeout_ms") = some p.timeoutMs ∧
      readField flag? false (entries.lookup "fail_on_cluster_change") =
        some p.failOnClusterChange := by
  simp only [scanPolicy?, Option.bind_eq_bind, Option.pure_def, Option.bind_none,
    guarded_eq_some_iff, Option.bind_eq_some_iff, Option.some.injEq]
  refine and_congr_right fun _ => ⟨?_, ?_⟩
  · rintro ⟨_, htimeout, _, hfail, rfl⟩
    exact ⟨htimeout, hfail⟩
  · rintro ⟨htimeout, hfail⟩
    exact ⟨_, htimeout, _, hfail, rfl⟩

theorem infoPolicy?_eq_some_iff (p : InfoPolicy) :
    infoPolicy? (.table entries) = some p ↔ entriesReadable entries = true ∧
      readField word? 1000 (entries.lookup "timeout_ms") = some p.timeoutMs ∧
      readField flag? true (entries.lookup "send_as_is") = some p.sendAsIs ∧
      readField flag? true (entries.lookup "check_bounds") = some p.checkBounds := by
  simp only [infoPolicy?, Option.bind_eq_bind, Option.pure_def, Option.bind_none,
    guarded_eq_some_iff, Option.bind_eq_some_iff, Option.some.injEq]
  refine and_congr_right fun _ => ⟨?_, ?_⟩
  · rintro ⟨_, htimeout, _, hsend, _, hcheck, rfl⟩
    exact ⟨htimeout, hsend, hcheck⟩
  · rintro ⟨htimeout, hsend, hcheck⟩
    exact ⟨_, htimeout, _, hsend, _, hcheck, rfl⟩

theorem ofTable?_eq_some_iff (s : Settings) :
    ofTable? root = some s ↔ (root.all fun e => shape.names.contains e.1) = true ∧
      readField scanPolicy? .standard (root.lookup "scan_policy") = some s.scanPolicy ∧
      readField infoPolicy? .standard (root.lookup "info_policy") = some s.infoPolicy ∧
      readField size? 10 (root.lookup "max_arg_depth") = some s.maxArgDepth ∧
      readField size? 1024 (root.lookup "max_args") = some s.maxArgs := by
  simp only [ofTable?, Option.bind_eq_bind, Option.pure_def, Option.bind_none,
    guarded_eq_some_iff, Option.bind_eq_some_iff, Option.some.injEq]
  refine and_congr_right fun _ => ⟨?_, ?_⟩
  · rintro ⟨_, hscan, _, hinfo, _, hdepth, _, hargs, rfl⟩
    exact ⟨hscan, hinfo, hdepth, hargs⟩
  · rintro ⟨hscan, hinfo, hdepth, hargs⟩
    exact ⟨_, hscan, _, hinfo, _, hdepth, _, hargs, rfl⟩

end Tables

/-! ## 2. Loading a document -/

/-- A TOML document with its lines and its root table. Every number in it has a value. -/
structure IsDocument (text : String) (lines : List Line) (root : List (String × Toml.Value)) :
    Prop where
  scanned : scan text = some lines
  built : build lines = some root
  readable : entriesReadable root = true

/-- Whether each policy that is in a document is a table. -/
def PoliciesAreTables (root : List (String × Toml.Value)) : Prop :=
  ∀ key ∈ ["scan_policy", "info_policy"], ∀ v, root.lookup key = some v →
    ∃ entries, v = .table entries

namespace LoadLemmas

variable {statements : List Statement} {root : List (String × Toml.Value)}

theorem keys_iff (h : Shown Toml.Value.Shows statements root) :
    (root.all fun e => shape.names.contains e.1) = true ↔
      ∀ key path what, (key :: path, what) ∈ statements → key ∈ shape.names := by
  simp only [List.all_eq_true, List.contains_iff_mem]
  constructor
  · intro hroot key path what hmem
    cases hlookup : root.lookup key with
    | none =>
      rw [← mem_under, h.none key hlookup] at hmem
      exact absurd hmem List.not_mem_nil
    | some v =>
      obtain ⟨before, after, rfl, -⟩ := List.lookup_eq_some_iff.mp hlookup
      exact hroot (key, v) (List.mem_append_right _ List.mem_cons_self)
  · rintro hsaid ⟨key, v⟩ hmem
    cases hlookup : root.lookup key with
    | none =>
      have hne := List.lookup_eq_none_iff.mp hlookup _ hmem
      exact absurd rfl (bne_iff_ne.mp hne)
    | some v' =>
      obtain ⟨⟨path, what⟩, hs⟩ := List.exists_mem_of_ne_nil _ (h.found key v' hlookup).ne_nil
      exact hsaid key path what (mem_under.mp hs)

theorem readable_iff {entries : List (String × Toml.Value)} :
    entriesReadable entries = true ↔ ∀ e ∈ entries, e.2.isReadable = true := by
  induction entries with
  | nil => exact ⟨fun _ => List.forall_mem_nil _, fun _ => rfl⟩
  | cons entry rest ih => rw [entriesReadable, Bool.and_eq_true, ih, List.forall_mem_cons]

theorem lookup_of_mem {entries : List (String × Toml.Value)} (hkeys : (entries.map Prod.fst).Nodup)
    {key : String} {v : Toml.Value} (h : (key, v) ∈ entries) : entries.lookup key = some v := by
  obtain ⟨before, after, rfl⟩ := List.append_of_mem h
  refine List.lookup_eq_some_iff.mpr ⟨before, after, rfl, ?_⟩
  intro e he
  rw [List.map_append] at hkeys
  have hne := (List.nodup_append.mp hkeys).2.2 e.1 (List.mem_map_of_mem he) key List.mem_cons_self
  exact bne_iff_ne.mpr (Ne.symm hne)

theorem readable_entriesAt (h : entriesReadable root = true) (key : String) :
    entriesReadable (entriesAt root key) = true := by
  unfold entriesAt
  split
  · next entries hlookup =>
    obtain ⟨before, after, rfl, -⟩ := List.lookup_eq_some_iff.mp hlookup
    exact readable_iff.mp h (key, .table entries) (List.mem_append_right _ List.mem_cons_self)
  · rfl

end LoadLemmas

section Documents

variable {text : String} {lines : List Line} {root : List (String × Toml.Value)}

/-- Settings are read from a document field by field. -/
theorem ofTable?_eq_some_iff_fields (h : IsDocument text lines root)
    (hpolicies : PoliciesAreTables root) (s : Settings) :
    ofTable? root = some s ↔
      (∀ key path what, (key :: path, what) ∈ said lines → key ∈ shape.names) ∧
      (readField word? 0 ((entriesAt root "scan_policy").lookup "timeout_ms") =
          some s.scanPolicy.timeoutMs ∧
        readField flag? false ((entriesAt root "scan_policy").lookup "fail_on_cluster_change") =
          some s.scanPolicy.failOnClusterChange) ∧
      (readField word? 1000 ((entriesAt root "info_policy").lookup "timeout_ms") =
          some s.infoPolicy.timeoutMs ∧
        readField flag? true ((entriesAt root "info_policy").lookup "send_as_is") =
          some s.infoPolicy.sendAsIs ∧
        readField flag? true ((entriesAt root "info_policy").lookup "check_bounds") =
          some s.infoPolicy.checkBounds) ∧
      readField size? 10 (root.lookup "max_arg_depth") = some s.maxArgDepth ∧
      readField size? 1024 (root.lookup "max_args") = some s.maxArgs := by
  have hscan : scanPolicy? (.table []) = some .standard := rfl
  have hinfo : infoPolicy? (.table []) = some .standard := rfl
  rw [ofTable?_eq_some_iff, keys_iff (shown_build h.built),
    readField_policy hscan (hpolicies "scan_policy" (by decide)),
    readField_policy hinfo (hpolicies "info_policy" (by decide)), scanPolicy?_eq_some_iff,
    infoPolicy?_eq_some_iff]
  simp only [readable_entriesAt h.readable, true_and]

/-- The tables of a document are as it says. -/
theorem IsDocument.shown (h : IsDocument text lines root) (hpolicies : PoliciesAreTables root) :
    Shown Toml.Value.Shows (said lines) root ∧
      Shown Toml.Value.Shows (under "scan_policy" (said lines)) (entriesAt root "scan_policy") ∧
      Shown Toml.Value.Shows (under "info_policy" (said lines)) (entriesAt root "info_policy") :=
  have hplain := plain_scan h.scanned
  have hroot := shown_build h.built
  ⟨hroot, shown_entriesAt hroot hplain (hpolicies "scan_policy" (by decide)),
    shown_entriesAt hroot hplain (hpolicies "info_policy" (by decide))⟩

/-- Settings are read from a document if it passes the checks, and they are those it says. -/
theorem ofTable?_eq_some_iff_sets (h : IsDocument text lines root)
    (hpolicies : PoliciesAreTables root) (s : Settings) :
    ofTable? root = some s ↔ PassesChecks (said lines) ∧ Sets (said lines) s := by
  obtain ⟨hroot, hscan, hinfo⟩ := h.shown hpolicies
  rw [ofTable?_eq_some_iff_fields h hpolicies, reads_size.readField_eq_some_iff hroot,
    reads_size.readField_eq_some_iff hroot, reads_word.readField_eq_some_iff hscan,
    reads_flag.readField_eq_some_iff hscan, reads_word.readField_eq_some_iff hinfo,
    reads_flag.readField_eq_some_iff hinfo, reads_flag.readField_eq_some_iff hinfo]
  simp only [holds_under, chosen_under]
  constructor
  · rintro ⟨hkeys, ⟨htimeout, hfail⟩, ⟨htimeout', hsend, hcheck⟩, hdepth, hargs⟩
    refine ⟨⟨hkeys, ?_, ?_, ?_⟩,
      ⟨htimeout.2, hfail.2, htimeout'.2, hsend.2, hcheck.2, hdepth.2, hargs.2⟩⟩
    · exact List.forall_mem_cons.mpr ⟨hdepth.1, List.forall_mem_singleton.mpr hargs.1⟩
    · exact List.forall_mem_cons.mpr ⟨htimeout.1, List.forall_mem_singleton.mpr htimeout'.1⟩
    · exact List.forall_mem_cons.mpr ⟨hfail.1,
        List.forall_mem_cons.mpr ⟨hsend.1, List.forall_mem_singleton.mpr hcheck.1⟩⟩
  · rintro ⟨⟨hkeys, hlimits, htimeouts, hflags⟩, hsets⟩
    exact ⟨hkeys,
      ⟨⟨htimeouts ["scan_policy", "timeout_ms"] (by decide), hsets.scanTimeout⟩,
        hflags ["scan_policy", "fail_on_cluster_change"] (by decide), hsets.failOnClusterChange⟩,
      ⟨⟨htimeouts ["info_policy", "timeout_ms"] (by decide), hsets.infoTimeout⟩,
        ⟨hflags ["info_policy", "send_as_is"] (by decide), hsets.sendAsIs⟩,
        hflags ["info_policy", "check_bounds"] (by decide), hsets.checkBounds⟩,
      ⟨hlimits ["max_arg_depth"] (by decide), hsets.maxArgDepth⟩,
      hlimits ["max_args"] (by decide), hsets.maxArgs⟩

/-- From a document that passes the checks some settings are read. -/
theorem exists_of_passesChecks (h : IsDocument text lines root)
    (hpolicies : PoliciesAreTables root) (hchecks : PassesChecks (said lines)) :
    ∃ s, ofTable? root = some s := by
  obtain ⟨hroot, hscan, hinfo⟩ := h.shown hpolicies
  obtain ⟨hkeys, hlimits, htimeouts, hflags⟩ := hchecks
  obtain ⟨timeout, htimeout⟩ := reads_word.exists_readField hscan
    (holds_under.mpr (htimeouts ["scan_policy", "timeout_ms"] (by decide))) 0
  obtain ⟨fail, hfail⟩ := reads_flag.exists_readField hscan
    (holds_under.mpr (hflags ["scan_policy", "fail_on_cluster_change"] (by decide))) false
  obtain ⟨timeout', htimeout'⟩ := reads_word.exists_readField hinfo
    (holds_under.mpr (htimeouts ["info_policy", "timeout_ms"] (by decide))) 1000
  obtain ⟨send, hsend⟩ := reads_flag.exists_readField hinfo
    (holds_under.mpr (hflags ["info_policy", "send_as_is"] (by decide))) true
  obtain ⟨check, hcheck⟩ := reads_flag.exists_readField hinfo
    (holds_under.mpr (hflags ["info_policy", "check_bounds"] (by decide))) true
  obtain ⟨depth, hdepth⟩ :=
    reads_size.exists_readField hroot (hlimits ["max_arg_depth"] (by decide)) 10
  obtain ⟨args, hargs⟩ := reads_size.exists_readField hroot (hlimits ["max_args"] (by decide)) 1024
  exact ⟨⟨⟨timeout, fail⟩, ⟨timeout', send, check⟩, depth, args⟩,
    (ofTable?_eq_some_iff_fields h hpolicies _).mpr
      ⟨hkeys, ⟨htimeout, hfail⟩, ⟨htimeout', hsend, hcheck⟩, hdepth, hargs⟩⟩

end Documents

/-- The outcome of loading a document, given what it says. -/
structure LoadsAsSaid (text : String) (statements : List Statement) : Prop where
  succeeds : (∃ s, load text = .ok s) ↔ PassesChecks statements ∧
    (["max_arg_depth"], .scalar (.integer 0)) ∉ statements
  settings : ∀ s, load text = .ok s → Sets statements s
  refuses : ¬ PassesChecks statements → load text = .error .unreadable
  depthIsZero : PassesChecks statements →
    (["max_arg_depth"], .scalar (.integer 0)) ∈ statements →
    load text = .error .depthIsZero ∧ LoadError.depthIsZero.message =
      "invalid client configuration: max_arg_depth must be at least 1"

section Outcomes

variable {text text' : String} {lines lines' : List Line}
  {root root' : List (String × Toml.Value)}

theorem IsDocument.parse_eq (h : IsDocument text lines root) : parse text = some root := by
  rw [parse, h.scanned]
  exact h.built

theorem load_of_parse (h : parse text = some root) :
    load text = match ofTable? root with
      | none => .error .unreadable
      | some s => if s.maxArgDepth = 0 then .error .depthIsZero else .ok s := by
  rw [load, h]
  rfl

theorem loadsAsSaid (h : IsDocument text lines root) (hpolicies : PoliciesAreTables root) :
    LoadsAsSaid text (said lines) := by
  have hload := load_of_parse h.parse_eq
  have hiff := ofTable?_eq_some_iff_sets h hpolicies
  cases hread : ofTable? root with
  | none =>
    have hnot : ¬ PassesChecks (said lines) := by
      intro hchecks
      obtain ⟨s, hs⟩ := exists_of_passesChecks h hpolicies hchecks
      rw [hread] at hs
      cases hs
    rw [hread] at hload
    exact {
      succeeds := by
        rw [hload]
        exact ⟨nofun, fun hchecks => absurd hchecks.1 hnot⟩
      settings := by
        rw [hload]
        exact nofun
      refuses := fun _ => hload
      depthIsZero := fun hchecks => absurd hchecks hnot }
  | some s =>
    obtain ⟨hchecks, hsets⟩ := (hiff s).mp hread
    have hzero := maxArgDepth_eq_zero_iff hchecks hsets
    rw [hread] at hload
    dsimp only at hload
    exact {
      succeeds := by
        rw [hload, ← hzero]
        split
        · next hdepth => exact ⟨nofun, fun hnot => absurd hdepth hnot.2⟩
        · next hnot => exact ⟨fun _ => ⟨hchecks, hnot⟩, fun _ => ⟨s, rfl⟩⟩
      settings := by
        intro s' hs'
        rw [hload] at hs'
        split at hs'
        · cases hs'
        · obtain rfl := Except.ok.inj hs'
          exact hsets
      refuses := fun hnot => absurd hchecks hnot
      depthIsZero := by
        intro _ hmem
        rw [hload, if_pos (hzero.mpr hmem)]
        exact ⟨rfl, rfl⟩ }

/-- Documents that say the same of the settings are loaded alike. -/
theorem load_eq_of_sayTheSame (h : IsDocument text lines root)
    (hpolicies : PoliciesAreTables root) (h' : IsDocument text' lines' root')
    (hpolicies' : PoliciesAreTables root') (hsame : SayTheSame (said lines) (said lines')) :
    load text = load text' := by
  have hread : ofTable? root = ofTable? root' := by
    refine Option.ext fun s => ?_
    rw [ofTable?_eq_some_iff_sets h hpolicies, ofTable?_eq_some_iff_sets h' hpolicies']
    exact ⟨fun hs => ⟨hsame.passesChecks hs.1, hsame.sets hs.2⟩,
      fun hs => ⟨hsame.symm.passesChecks hs.1, hsame.symm.sets hs.2⟩⟩
  rw [load_of_parse h.parse_eq, load_of_parse h'.parse_eq, hread]

/-- Settings are read only from a table in which the numbers have values. -/
theorem isReadable_of_ofTable? {s : Settings} (hread : ofTable? root = some s)
    (hpolicies : PoliciesAreTables root) {key : String} {v : Toml.Value} (hmem : (key, v) ∈ root)
    (hlookup : root.lookup key = some v) : v.isReadable = true := by
  obtain ⟨hkeys, hscan, hinfo, hdepth, hargs⟩ := (ofTable?_eq_some_iff s).mp hread
  have hkey : key ∈ ["scan_policy", "info_policy", "max_arg_depth", "max_args"] := by
    simp only [List.all_eq_true, List.contains_iff_mem] at hkeys
    exact hkeys (key, v) hmem
  have hsize {default x : UInt64} (hfield : readField size? default (some v) = some x) :
      v.isReadable = true := by
    rw [(size?_eq_some_iff v x).mp hfield]
    rfl
  rcases List.mem_cons.mp hkey with rfl | hkey
  · obtain ⟨entries, rfl⟩ := hpolicies _ (by decide) v hlookup
    rw [hlookup] at hscan
    exact ((scanPolicy?_eq_some_iff _).mp hscan).1
  rcases List.mem_cons.mp hkey with rfl | hkey
  · obtain ⟨entries, rfl⟩ := hpolicies _ (by decide) v hlookup
    rw [hlookup] at hinfo
    exact ((infoPolicy?_eq_some_iff _).mp hinfo).1
  rcases List.mem_cons.mp hkey with rfl | hkey
  · rw [hlookup] at hdepth
    exact hsize hdepth
  · obtain rfl := List.mem_singleton.mp hkey
    rw [hlookup] at hargs
    exact hsize hargs

/-- Where policies are tables, a text that is no document is refused. -/
theorem load_of_not_document (hnot : ∀ lines root, ¬ IsDocument text lines root)
    (hpolicies : ∀ root, parse text = some root → PoliciesAreTables root) :
    load text = .error .unreadable := by
  cases hparse : parse text with
  | none =>
    rw [load, hparse]
    rfl
  | some root =>
    obtain ⟨lines, hscan, hbuild⟩ := Option.bind_eq_some_iff.mp hparse
    have hshown := shown_build hbuild
    rw [load_of_parse hparse]
    cases hread : ofTable? root with
    | none => rfl
    | some s =>
      -- all that settings are read from has numbers with values
      refine absurd ⟨hscan, hbuild, readable_iff.mpr ?_⟩ (hnot lines root)
      rintro ⟨key, v⟩ hmem
      have hlookup := lookup_of_mem hshown.keys hmem
      exact isReadable_of_ofTable? hread (hpolicies root hparse) hmem hlookup

/-- A document is loaded as settings exactly if what it says passes the checks and the limit on
nesting is not zero, and each of the settings is then the one it says or the default. So documents
that say the same of the settings are loaded alike; they do so if they differ in the order of their
keys, in how their tables are written, or in keys that are ignored. A text that is no document is
refused where the policies in it are tables, and no settings that are loaded have a limit on nesting
of zero. -/
theorem loads_what_is_said (h : IsDocument text lines root) (hpolicies : PoliciesAreTables root) :
    LoadsAsSaid text (said lines) ∧
      (∀ text' lines' root', IsDocument text' lines' root' → PoliciesAreTables root' →
        SayTheSame (said lines) (said lines') → load text' = load text) ∧
      (∀ lines', Relation.EqvGen Respelled lines lines' →
        SayTheSame (said lines) (said lines')) ∧
      (∀ text', (∀ lines' root', ¬ IsDocument text' lines' root') →
        (∀ root', parse text' = some root' → PoliciesAreTables root') →
        load text' = .error .unreadable) ∧
      ∀ text' s, load text' = .ok s → s.maxArgDepth ≠ 0 :=
  ⟨loadsAsSaid h hpolicies,
    fun _ _ _ h' hpolicies' hsame => (load_eq_of_sayTheSame h hpolicies h' hpolicies' hsame).symm,
    fun _ => sayTheSame_of_eqvGen, fun _ => load_of_not_document,
    fun _ _ => maxArgDepth_ne_zero_of_load⟩

/-- A policy under its header, with a key that is ignored, and the same policy with a dotted key
and in the other order. -/
theorem loads_what_is_said_dotted :
    let text := "max_args = 7\n[info_policy]\nx = 1\ntimeout_ms = 9"
    let lines : List Line :=
      [.pair ["max_args"] (.scalar (.integer 7)), .table ["info_policy"],
        .pair ["x"] (.scalar (.integer 1)), .pair ["timeout_ms"] (.scalar (.integer 9))]
    let root : List (String × Toml.Value) :=
      [("max_args", .integer 7),
        ("info_policy", .table [("x", .integer 1), ("timeout_ms", .integer 9)])]
    let text' := "info_policy.timeout_ms = 9\nmax_args = 7"
    let lines' : List Line :=
      [.pair ["info_policy", "timeout_ms"] (.scalar (.integer 9)),
        .pair ["max_args"] (.scalar (.integer 7))]
    let root' : List (String × Toml.Value) :=
      [("info_policy", .table [("timeout_ms", .integer 9)]), ("max_args", .integer 7)]
    let settings : Settings := ⟨.standard, ⟨9, true, true⟩, 10, 7⟩
    IsDocument text lines root ∧ PoliciesAreTables root ∧ PassesChecks (said lines) ∧
      load text = .ok settings ∧ Sets (said lines) settings ∧
      IsDocument text' lines' root' ∧ PoliciesAreTables root' ∧
      Relation.EqvGen Respelled lines lines' ∧ load text' = .ok settings := by
  intro text lines root text' lines' root' settings
  let limit : List String × Written := (["max_args"], .scalar (.integer 7))
  let ignored : List String × Written := (["x"], .scalar (.integer 1))
  let timeout : List String × Written := (["timeout_ms"], .scalar (.integer 9))
  let dotted : List String × Written := ("info_policy" :: timeout.1, timeout.2)
  have hone : integerValue 1 = .integer 1 := if_pos (by decide)
  have hseven : integerValue 7 = .integer 7 := if_pos (by decide)
  have hnine : integerValue 9 = .integer 9 := if_pos (by decide)
  have h : IsDocument text lines root := by
    refine ⟨?_, rfl, rfl⟩
    simp only [scan, text, lines, String.reduceToList, ← hone, ← hseven, ← hnine]
    rfl
  have h' : IsDocument text' lines' root' := by
    refine ⟨?_, rfl, rfl⟩
    simp only [scan, text', lines', String.reduceToList, ← hseven, ← hnine]
    rfl
  have hpolicies : PoliciesAreTables root := by
    simp [PoliciesAreTables, root, List.lookup_cons]
  have hpolicies' : PoliciesAreTables root' := by
    simp [PoliciesAreTables, root', List.lookup_cons]
  have hread : ([ignored, timeout].filter (isRead "info_policy")).Perm
      ([timeout].filter (isRead "info_policy")) := .refl _
  have hforms : Respelled lines (pairLines [limit, dotted] ++ []) :=
    .policy "info_policy" (by decide) .header .dotted [limit] hread [] nofun
  have horder : Respelled (pairLines [limit, dotted] ++ []) lines' :=
    .root (.swap dotted limit []) []
  have hrespelled := (Relation.EqvGen.rel _ _ hforms).trans _ _ _ (.rel _ _ horder)
  have hload : load text = .ok settings := by
    rw [load_of_parse h.parse_eq]
    rfl
  obtain ⟨hloads, halike, hsame, -⟩ := loads_what_is_said h hpolicies
  have hload' : load text' = .ok settings :=
    (halike text' lines' root' h' hpolicies' (hsame lines' hrespelled)).trans hload
  exact ⟨h, hpolicies, (hloads.succeeds.mp ⟨settings, hload⟩).1, hload,
    hloads.settings settings hload, h', hpolicies', hrespelled, hload'⟩

end Outcomes

end BackgroundScan.Settings
