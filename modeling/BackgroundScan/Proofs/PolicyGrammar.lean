import BackgroundScan.Proofs.Grammar

/-!
# The grammar of policies

A policy of a caller is a closed record of settings that is put on a baseline. What holds of
resolving it comes from two facts about its kind: its settings are read by a grammar, and putting
them on a baseline once more changes nothing.

1. `Policy.Grammatical`: the two facts, with `scan_grammatical` and `info_grammatical`.
2. `Policy.Resolves`: what holds of resolving, and `resolves_of_grammatical`.
3. `resolves_by_grammar`: both kinds, with the settings that are in effect.
-/

namespace BackgroundScan

/-! ## 1. Kinds of policies -/

/-- What a caller may give of a scan policy. -/
def ScanPolicy.grammar : Grammar :=
  [("timeout", .integer .word 0 0xFFFFFFFF), ("fail_on_cluster_change", .boolean)]

/-- What a caller may give of an info policy. -/
def InfoPolicy.grammar : Grammar :=
  [("timeout", .integer .word 0 0xFFFFFFFF), ("send_as_is", .boolean),
    ("check_bounds", .boolean)]

/-- Whether a kind of policy has overrides that are read by a grammar, and puts them on a baseline
for good. -/
structure Policy.Grammatical (P : Type) [Policy P] (g : Grammar) : Prop where
  reads : ∃ (s : Shape) (make : Values s.fields → Policy.Overrides P), s.Follows g ∧
    SeparateNames s.fields ∧ ∀ raw, Policy.decode raw = (s.decode raw).map make
  again : ∀ (given : Policy.Overrides P) (base : P),
    Policy.overlay given (Policy.overlay given base) = Policy.overlay given base

namespace PolicyLemmas

open GrammarLemmas OverrideLemmas

theorem getD_again {α : Type} (given : Option α) (base : α) :
    given.getD (given.getD base) = given.getD base := by
  cases given <;> rfl

theorem scan_grammatical : Policy.Grammatical ScanPolicy ScanPolicy.grammar := by
  constructor
  · refine ⟨ScanOverrides.shape, .ofValues, ⟨rfl, by decide, ?_⟩, by decide, fun _ => rfl⟩
    exact .cons (integer_sets rfl rfl) (.cons (boolean_sets _) .nil)
  · rintro ⟨timeout, failOnClusterChange⟩ ⟨timeoutMs, fails⟩
    simp only [Policy.overlay, getD_again]

theorem info_grammatical : Policy.Grammatical InfoPolicy InfoPolicy.grammar := by
  constructor
  · refine ⟨InfoOverrides.shape, .ofValues, ⟨rfl, by decide, ?_⟩, by decide, fun _ => rfl⟩
    exact .cons (integer_sets rfl rfl) (.cons (boolean_sets _) (.cons (boolean_sets _) .nil))
  · rintro ⟨timeout, sendAsIs, checkBounds⟩ ⟨timeoutMs, sends, checks⟩
    simp only [Policy.overlay, getD_again]

end PolicyLemmas

/-! ## 2. Resolving -/

/-- Why a policy is refused: it is no object, or its first problem. -/
inductive Policy.FailsWith (policy : String) (g : Grammar) : Json → PolicyError → Prop
  | notAnObject {raw : Json} (h : ∀ entries, raw ≠ .object entries) :
      FailsWith policy g raw (.notAnObject policy)
  | shape {entries : List (String × Json)} {cause : DecodeError}
      (h : g.FirstProblem entries cause) :
      FailsWith policy g (.object entries) (.shape policy cause)

/-- What holds of the policies that are resolved on a baseline. -/
structure Policy.Resolves {P : Type} [Policy P] (g : Grammar) (baseline : P) : Prop where
  /-- Without a policy of the caller there is none. -/
  absent : Policy.resolve baseline none = .ok none
  /-- A policy of the caller gives one, if it is an object that the grammar accepts. -/
  accepts : ∀ raw, (∃ p, Policy.resolve baseline (some raw) = .ok (some p)) ↔
    ∃ entries, raw = .object entries ∧ g.Accepts entries
  /-- Otherwise it fails, for a reason that says what is wrong. -/
  refuses : ∀ raw e, Policy.resolve baseline (some raw) = .error e ↔
    Policy.FailsWith (Policy.name P) g raw e
  /-- It never gives none. -/
  present : ∀ raw, Policy.resolve baseline (some raw) ≠ .ok none
  /-- All failures are failures of validation. -/
  validation : ∀ raw e, Policy.resolve baseline raw = .error e → e.failure.kind = .validation
  /-- The order of the keys makes no difference. -/
  reorder : ∀ entries entries', entries.Perm entries' → ∀ p,
    Policy.resolve baseline (some (.object entries)) = .ok p ↔
      Policy.resolve baseline (some (.object entries')) = .ok p
  /-- To resolve it again on top of the result changes nothing. -/
  again : ∀ raw p, Policy.resolve baseline raw = .ok (some p) →
    Policy.resolve p raw = .ok (some p)

namespace PolicyLemmas

open OverrideLemmas

section Grammatical

variable {P : Type} [Policy P] {g : Grammar}

theorem resolve_of_decode {entries : List (String × Json)} {given : Policy.Overrides P}
    (h : Policy.decode (.object entries) = .ok given) (baseline : P) :
    Policy.resolve baseline (some (.object entries)) =
      .ok (some (Policy.overlay given baseline)) := by
  simp only [Policy.resolve, Policy.validate, Json.entries?, h]
  rfl

theorem resolve_of_decode_error {entries : List (String × Json)} {cause : DecodeError}
    (h : Policy.decode (P := P) (.object entries) = .error cause) (baseline : P) :
    Policy.resolve baseline (some (.object entries)) =
      .error (.shape (Policy.name P) cause) := by
  simp only [Policy.resolve, Policy.validate, Json.entries?, h]
  rfl

/-- The overrides of an object are read exactly when the grammar accepts it. -/
theorem overrides_ok_iff (hP : Policy.Grammatical P g) (entries : List (String × Json)) :
    (∃ given : Policy.Overrides P, Policy.decode (.object entries) = .ok given) ↔
      g.Accepts entries := by
  obtain ⟨s, make, hs, -, hdecode⟩ := hP.reads
  rw [← decode_ok_iff hs, hdecode]
  constructor
  · rintro ⟨given, h⟩
    obtain ⟨values, hvalues, -⟩ := map_eq_ok_iff.mp h
    exact ⟨values, hvalues⟩
  · rintro ⟨values, h⟩
    exact ⟨make values, map_eq_ok_iff.mpr ⟨values, h, rfl⟩⟩

/-- The error of an object whose overrides are not read is its first problem. -/
theorem overrides_eq_error_iff (hP : Policy.Grammatical P g) (entries : List (String × Json))
    (cause : DecodeError) :
    Policy.decode (P := P) (.object entries) = .error cause ↔ g.FirstProblem entries cause := by
  obtain ⟨s, make, hs, -, hdecode⟩ := hP.reads
  rw [← decode_eq_error_iff hs, hdecode, map_eq_error_iff]

theorem overrides_perm (hP : Policy.Grammatical P g) {entries entries' : List (String × Json)}
    (hperm : entries.Perm entries') {given : Policy.Overrides P}
    (h : Policy.decode (.object entries) = .ok given) :
    Policy.decode (.object entries') = .ok given := by
  obtain ⟨s, make, -, hsep, hdecode⟩ := hP.reads
  rw [hdecode] at h ⊢
  obtain ⟨values, hvalues, rfl⟩ := map_eq_ok_iff.mp h
  exact map_eq_ok_iff.mpr ⟨values, decode_object_perm hsep hperm hvalues, rfl⟩

theorem resolve_eq_ok_iff (hP : Policy.Grammatical P g) (baseline : P) (raw : Json) :
    (∃ p, Policy.resolve baseline (some raw) = .ok (some p)) ↔
      ∃ entries, raw = .object entries ∧ g.Accepts entries := by
  constructor
  · rintro ⟨p, h⟩
    obtain ⟨entries, given, hraw, hdecode, -⟩ := resolve_eq_ok h
    obtain rfl := Option.some.inj hraw
    exact ⟨entries, rfl, (overrides_ok_iff hP entries).mp ⟨given, hdecode⟩⟩
  · rintro ⟨entries, rfl, haccepts⟩
    obtain ⟨given, hdecode⟩ := (overrides_ok_iff hP entries).mpr haccepts
    exact ⟨_, resolve_of_decode hdecode baseline⟩

theorem resolve_eq_error_iff (hP : Policy.Grammatical P g) (baseline : P) (raw : Json)
    (e : PolicyError) :
    Policy.resolve baseline (some raw) = .error e ↔
      Policy.FailsWith (Policy.name P) g raw e := by
  constructor
  · intro h
    rcases raw with _ | _ | _ | _ | _ | entries
    case object =>
      cases hdecode : Policy.decode (P := P) (.object entries) with
      | error cause =>
        obtain rfl := Except.error.inj ((resolve_of_decode_error hdecode baseline).symm.trans h)
        exact .shape ((overrides_eq_error_iff hP entries cause).mp hdecode)
      | ok given => cases (resolve_of_decode hdecode baseline).symm.trans h
    all_goals
      obtain rfl := Except.error.inj h
      exact .notAnObject nofun
  · intro h
    cases h with
    | notAnObject hraw =>
      cases raw with
      | object entries => exact absurd rfl (hraw entries)
      | _ => rfl
    | shape hfirst =>
      exact resolve_of_decode_error ((overrides_eq_error_iff hP _ _).mpr hfirst) baseline

theorem resolve_perm (hP : Policy.Grammatical P g) (baseline : P)
    {entries entries' : List (String × Json)} (hperm : entries.Perm entries') {p : Option P}
    (h : Policy.resolve baseline (some (.object entries)) = .ok p) :
    Policy.resolve baseline (some (.object entries')) = .ok p := by
  obtain ⟨p, rfl⟩ := Option.isSome_iff_exists.mp (isSome_of_resolve h)
  obtain ⟨_, given, hraw, hdecode, rfl⟩ := resolve_eq_ok h
  obtain rfl := Json.object.inj (Option.some.inj hraw)
  exact resolve_of_decode (overrides_perm hP hperm hdecode) baseline

theorem resolve_again (hP : Policy.Grammatical P g) {baseline p : P} {raw : Option Json}
    (h : Policy.resolve baseline raw = .ok (some p)) :
    Policy.resolve p raw = .ok (some p) := by
  obtain ⟨entries, given, rfl, hdecode, rfl⟩ := resolve_eq_ok h
  rw [resolve_of_decode hdecode, hP.again]

end Grammatical

end PolicyLemmas

open PolicyLemmas OverrideLemmas

theorem resolves_of_grammatical {P : Type} [Policy P] {g : Grammar}
    (hP : Policy.Grammatical P g) (baseline : P) : Policy.Resolves g baseline where
  absent := rfl
  accepts := resolve_eq_ok_iff hP baseline
  refuses := resolve_eq_error_iff hP baseline
  present := by
    intro raw h
    cases isSome_of_resolve h
  validation := fun _ _ _ => rfl
  reorder := fun _ _ hperm _ =>
    ⟨resolve_perm hP baseline hperm, resolve_perm hP baseline hperm.symm⟩
  again := fun _ _ => resolve_again hP

/-! ## 3. Scan policies and info policies -/

/-- A policy of a caller is resolved exactly when it is an object of the keys of its kind with
null or a value of the right type under each. Every setting is then what the caller gives, or the
one of the baseline where the caller gives none. -/
theorem resolves_by_grammar :
    (∀ baseline : ScanPolicy, Policy.Resolves ScanPolicy.grammar baseline ∧
      ∀ raw p, Policy.resolve baseline (some raw) = .ok (some p) →
        InEffect (some raw) "timeout" (fun value t => value.IsInteger t.toNat)
            baseline.timeoutMs p.timeoutMs ∧
          InEffect (some raw) "fail_on_cluster_change" (fun value b => value = .bool b)
            baseline.failOnClusterChange p.failOnClusterChange) ∧
      ∀ baseline : InfoPolicy, Policy.Resolves InfoPolicy.grammar baseline ∧
        ∀ raw p, Policy.resolve baseline (some raw) = .ok (some p) →
          InEffect (some raw) "timeout" (fun value t => value.IsInteger t.toNat)
              baseline.timeoutMs p.timeoutMs ∧
            InEffect (some raw) "send_as_is" (fun value b => value = .bool b)
              baseline.sendAsIs p.sendAsIs ∧
            InEffect (some raw) "check_bounds" (fun value b => value = .bool b)
              baseline.checkBounds p.checkBounds := by
  constructor
  · intro baseline
    exact ⟨resolves_of_grammatical scan_grammatical baseline, fun _ _ => policy_inEffect⟩
  · intro baseline
    exact ⟨resolves_of_grammatical info_grammatical baseline, fun _ _ => infoPolicy_inEffect⟩

/-- A time limit is put on a baseline, in either order and more than once, and the null beside it
leaves the other setting as it is. A negative time limit is refused. -/
theorem resolves_by_grammar_timeout :
    let baseline : ScanPolicy := ⟨500, true⟩
    let limit : Json := .number (.integer 250 (by decide))
    let negative : Json := .number (.integer (-1) (by decide))
    let raw : Json := .object [("timeout", limit), ("fail_on_cluster_change", .null)]
    let reordered : Json := .object [("fail_on_cluster_change", .null), ("timeout", limit)]
    (∃ p, Policy.resolve baseline (some raw) = .ok (some p) ∧
      Policy.resolve baseline (some reordered) = .ok (some p) ∧
      Policy.resolve p (some raw) = .ok (some p) ∧
      InEffect (some raw) "fail_on_cluster_change" (fun value b => value = .bool b) true
        p.failOnClusterChange) ∧
      ∃ e, Policy.resolve baseline (some (.object [("timeout", negative)])) = .error e ∧
        e.failure.kind = .validation := by
  intro baseline limit negative raw reordered
  obtain ⟨laws, hinEffect⟩ := resolves_by_grammar.1 baseline
  have haccepts : ScanPolicy.grammar.Accepts
      [("timeout", limit), ("fail_on_cluster_change", .null)] := by
    refine ⟨by decide, List.forall_mem_cons.mpr ⟨?_, List.forall_mem_singleton.mpr ?_⟩⟩
    · exact ⟨_, .head _, .integer (by decide) (by decide)⟩
    · exact ⟨_, .tail _ (.head _), .null⟩
  obtain ⟨p, hp⟩ := (laws.accepts raw).mpr ⟨_, rfl, haccepts⟩
  have hmisfit : ¬ (Setting.integer .word 0 0xFFFFFFFF).Allows negative := by
    intro hallows
    have hlow := (GrammarLemmas.range_of_allows hallows ⟨by decide, rfl⟩).1
    exact absurd hlow (by decide)
  have hfails := (laws.refuses (.object [("timeout", negative)]) _).mpr
    (.shape ⟨[], _, [], rfl, GrammarLemmas.accepts_nil _, .misfit (.head _) nofun hmisfit⟩)
  exact ⟨⟨p, hp, (laws.reorder _ _ (.swap _ _ []) _).mp hp, laws.again _ _ hp,
    (hinEffect raw p hp).2⟩, _, hfails, laws.validation _ _ hfails⟩

end BackgroundScan
