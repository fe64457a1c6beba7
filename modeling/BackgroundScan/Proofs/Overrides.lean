import BackgroundScan.Proofs.Calls
import BackgroundScan.Proofs.Objects

/-!
# What a caller overrides

A caller gives a policy or options as an object, and what is not given there stays as it
is by default. This module says for each setting alone what is in effect, without the
record that is read and checked on the way.

1. `InEffect`: the setting in effect for a key is what the object gives there, or the
   default. `HeldAs`: the same without a default.
2. `heldAs_of_holds` and `heldAs_priority`: what is held after a field was read.
   `inEffect_of_heldAs`: what is held is in effect.
3. `policy_inEffect`, `infoPolicy_inEffect` and `options_inEffect`: every setting of a
   policy that was resolved and of a job whose options were read is in effect.
-/

namespace BackgroundScan

/-! ## 1. Settings in effect -/

/-- Whether a value is an integer. -/
def Json.IsInteger (raw : Json) (n : Int) : Prop := ∃ h, raw = .number (.integer n h)

/-- The code of a priority. -/
def Priority.code : Priority → Int
  | auto => 0
  | low => 1
  | medium => 2
  | high => 3

/-- The setting in effect for a key of an object that may be absent: the one value that
the caller gives, as `Reads` understands it, or the default where the caller gives
nothing. -/
inductive InEffect {α : Type} (raw : Option Json) (key : String) (Reads : Json → α → Prop)
    (default : α) : α → Prop
  | given {value : Json} {a : α} (hgives : Gives raw key value)
    (honly : ∀ other, Gives raw key other → other = value) (hreads : Reads value a) :
    InEffect raw key Reads default a
  | default (hnothing : ∀ value, ¬ Gives raw key value) :
    InEffect raw key Reads default default

/-- What is held for an optional setting: the one value that the caller gives, as `Reads`
understands it, and nothing where the caller gives nothing. -/
def HeldAs {α : Type} (raw : Option Json) (key : String) (Reads : Json → α → Prop)
    (held : Option α) : Prop :=
  InEffect raw key (fun value held => ∃ a, held = some a ∧ Reads value a) none held

/-! ## 2. Fields -/

namespace OverrideLemmas

theorem isInteger_of_integer {kind : IntegerKind} {raw : Json} {n : Int}
    (h : Scalar.integer kind raw.head = .ok n) :
    raw.IsInteger n ∧ kind.low ≤ n ∧ n < kind.bound := by
  obtain ⟨⟨hrange, hhead⟩, hbounds⟩ := Scalar.integer_eq_ok_iff.mp h
  refine ⟨⟨hrange, ?_⟩, hbounds⟩
  cases raw <;> simp_all [Json.head]

/-- An integer that a scalar makes its value of. -/
theorem integer_of_map {α : Type} {kind : IntegerKind} {make : Int → α} {raw : Json} {a : α}
    (h : (Scalar.integer kind raw.head).map make = .ok a) :
    ∃ n, raw.IsInteger n ∧ kind.low ≤ n ∧ n < kind.bound ∧ make n = a := by
  obtain ⟨n, hread, hmake⟩ := map_eq_ok_iff.mp h
  obtain ⟨hraw, hlow, hbound⟩ := isInteger_of_integer hread
  exact ⟨n, hraw, hlow, hbound, hmake⟩

theorem isInteger_of_word {raw : Json} {a : UInt32} (h : Scalar.word raw.head = .ok a) :
    raw.IsInteger a.toNat := by
  obtain ⟨n, hraw, hlow, hbound, rfl⟩ := integer_of_map h
  have hn : ((UInt32.ofNat n.toNat).toNat : Int) = n := by
    simp only [IntegerKind.low, IntegerKind.bound] at hlow hbound
    rw [UInt32.toNat_ofNat']
    omega
  rwa [hn]

theorem isInteger_of_byte {raw : Json} {a : UInt8} (h : Scalar.byte raw.head = .ok a) :
    raw.IsInteger a.toNat := by
  obtain ⟨n, hraw, hlow, hbound, rfl⟩ := integer_of_map h
  have hn : ((UInt8.ofNat n.toNat).toNat : Int) = n := by
    simp only [IntegerKind.low, IntegerKind.bound] at hlow hbound
    rw [UInt8.toNat_ofNat']
    omega
  rwa [hn]

theorem isInteger_of_signed {raw : Json} {a : Int64} (h : Scalar.signed raw.head = .ok a) :
    raw.IsInteger a.toInt := by
  obtain ⟨n, hraw, hlow, hbound, rfl⟩ := integer_of_map h
  simp only [IntegerKind.low, IntegerKind.bound] at hlow hbound
  rwa [Int64.toInt_ofInt_of_le (by omega) (by omega)]

theorem eq_bool_of_boolean {raw : Json} {b : Bool} (h : Scalar.boolean raw.head = .ok b) :
    raw = .bool b := by
  cases raw <;> simp_all [Json.head, Scalar.boolean]

theorem code_of_ofCode? {code : Int64} {p : Priority} (h : Priority.ofCode? code = some p) :
    code.toInt = p.code := by
  unfold Priority.ofCode? at h
  split at h
  · next hcode => cases h; rw [hcode]; rfl
  · split at h
    · next hcode => cases h; rw [hcode]; rfl
    · split at h
      · next hcode => cases h; rw [hcode]; rfl
      · split at h
        · next hcode => cases h; rw [hcode]; rfl
        · cases h

/-- What is held is in effect, or else the default. -/
theorem inEffect_of_heldAs {α : Type} {raw : Option Json} {key : String}
    {Reads : Json → α → Prop} {held : Option α} (h : HeldAs raw key Reads held) (default : α) :
    InEffect raw key Reads default (held.getD default) := by
  cases h with
  | given hgives honly hreads =>
    obtain ⟨a, rfl, ha⟩ := hreads
    exact .given hgives honly ha
  | default hnothing => exact .default hnothing

/-- An optional field holds what is given under its name. -/
theorem heldAs_of_holds {α : Type} {key : String} {read : Scalar α}
    {Reads : Json → α → Prop} (hreads : ∀ raw a, read raw.head = .ok a → Reads raw a)
    {entries : List (String × Json)} {held : Option α}
    (h : (Field.optional key read).Holds entries held) :
    HeldAs (some (.object entries)) key Reads held := by
  rcases optional_holds h with ⟨rfl, hnothing⟩ | ⟨a, value, rfl, hgives, honly, hread⟩
  · exact .default hnothing
  · exact .given hgives honly ⟨a, rfl, hreads value a hread⟩

/-- An optional field sets what is in effect for its name. -/
theorem inEffect_of_holds {α : Type} {key : String} {read : Scalar α}
    {Reads : Json → α → Prop} (hreads : ∀ raw a, read raw.head = .ok a → Reads raw a)
    {entries : List (String × Json)} {held : Option α}
    (h : (Field.optional key read).Holds entries held) (default : α) :
    InEffect (some (.object entries)) key Reads default (held.getD default) :=
  inEffect_of_heldAs (heldAs_of_holds hreads h) default

theorem inEffect_none {α : Type} (key : String) (Reads : Json → α → Prop) (default : α) :
    InEffect none key Reads default default :=
  .default fun _ ⟨_, hnone, _⟩ => nomatch hnone

/-- What passes validation is an object that is read. -/
theorem validate_eq_ok {P : Type} [Policy P] {raw : Json} {given : Policy.Overrides P}
    (h : Policy.validate P raw = .ok given) :
    ∃ entries, raw = .object entries ∧ Policy.decode (.object entries) = .ok given := by
  rcases raw with _ | _ | _ | _ | _ | entries
  case object => exact ⟨entries, rfl, mapError_eq_ok_iff.mp h⟩
  all_goals cases h

theorem resolve_eq_ok {P : Type} [Policy P] {baseline p : P} {raw : Option Json}
    (h : Policy.resolve baseline raw = .ok (some p)) :
    ∃ entries given, raw = some (.object entries) ∧
      Policy.decode (.object entries) = .ok given ∧ p = Policy.overlay given baseline := by
  cases raw with
  | none => cases h
  | some raw =>
    obtain ⟨given, hvalid, hp⟩ := map_eq_ok_iff.mp h
    obtain ⟨entries, rfl, hdecode⟩ := validate_eq_ok hvalid
    exact ⟨entries, given, rfl, hdecode, (Option.some.inj hp).symm⟩

theorem isSome_of_resolve {P : Type} [Policy P] {baseline : P} {p : Option P}
    {raw : Option Json} (h : Policy.resolve baseline raw = .ok p) : p.isSome = raw.isSome := by
  cases raw with
  | none =>
    obtain rfl := Except.ok.inj h
    rfl
  | some raw =>
    obtain ⟨given, -, rfl⟩ := map_eq_ok_iff.mp h
    rfl

theorem parse_eq_ok {raw : Json} {o : ScanOptions} (h : ScanOptions.parse raw = .ok o) :
    ∃ entries values, raw = .object entries ∧
      ScanOptions.shape.decode (.object entries) = .ok values ∧
      ScanOptions.ofValues values = .ok o := by
  rcases raw with _ | _ | _ | _ | _ | entries
  case object =>
    cases hdecode : ScanOptions.shape.decode (.object entries) with
    | error e =>
      simp only [ScanOptions.parse, Json.entries?, hdecode] at h
      cases h
    | ok values =>
      simp only [ScanOptions.parse, Json.entries?, hdecode] at h
      exact ⟨entries, values, rfl, hdecode, h⟩
  all_goals cases h

/-- Options that are in their ranges are the values that were read, the priority by its
code. -/
theorem ofValues_eq_ok {percent : Option UInt8} {priority : Option Int64}
    {concurrent noBins : Option Bool} {o : ScanOptions}
    (h : ScanOptions.ofValues (percent, priority, concurrent, noBins, ()) = .ok o) :
    o.percent = percent ∧ ScanOptions.checkPriority priority = .ok o.priority ∧
      o.concurrent = concurrent ∧ o.noBins = noBins := by
  have hpercent {checked} (h : ScanOptions.checkPercent percent = .ok checked) :
      checked = percent := by
    unfold ScanOptions.checkPercent at h
    split at h
    · exact (Except.ok.inj h).symm
    · split at h
      · cases h
      · exact (Except.ok.inj h).symm
  unfold ScanOptions.ofValues at h
  dsimp only at h
  cases hchecked : ScanOptions.checkPercent percent with
  | error e =>
    rw [hchecked] at h
    cases h
  | ok checked =>
    rw [hchecked] at h
    cases hfound : ScanOptions.checkPriority priority with
    | error e =>
      rw [hfound] at h
      cases h
    | ok found =>
      rw [hfound] at h
      obtain rfl := Except.ok.inj h
      exact ⟨hpercent hchecked, rfl, rfl, rfl⟩

/-- The priority that is held is the one with the code that is given. -/
theorem heldAs_priority {entries : List (String × Json)} {code : Option Int64}
    {p : Option Priority} (h : (Field.optional "priority" Scalar.signed).Holds entries code)
    (hp : ScanOptions.checkPriority code = .ok p) :
    HeldAs (some (.object entries)) "priority" (fun value p => value.IsInteger p.code) p := by
  rcases optional_holds h with ⟨rfl, hnothing⟩ | ⟨a, value, rfl, hgives, honly, hread⟩
  · obtain rfl := Except.ok.inj hp
    exact .default hnothing
  · unfold ScanOptions.checkPriority at hp
    cases hcode : Priority.ofCode? a with
    | none =>
      simp only [hcode] at hp
      cases hp
    | some found =>
      simp only [hcode] at hp
      obtain rfl := Except.ok.inj hp
      refine .given hgives honly ⟨found, rfl, ?_⟩
      show value.IsInteger found.code
      rw [← code_of_ofCode? hcode]
      exact isInteger_of_signed hread

/-- The priority in effect is the one with the code that is given. -/
theorem inEffect_priority {entries : List (String × Json)} {code : Option Int64}
    {p : Option Priority} (h : (Field.optional "priority" Scalar.signed).Holds entries code)
    (hp : ScanOptions.checkPriority code = .ok p) (default : Priority) :
    InEffect (some (.object entries)) "priority" (fun value p => value.IsInteger p.code)
      default (p.getD default) :=
  inEffect_of_heldAs (heldAs_priority h hp) default

end OverrideLemmas

open OverrideLemmas

/-! ## 3. Policies and options in effect -/

/-- A policy in effect is the baseline with what the caller gives put on it. -/
theorem policy_inEffect {baseline p : ScanPolicy} {raw : Option Json}
    (h : Policy.resolve baseline raw = .ok (some p)) :
    InEffect raw "timeout" (fun value t => value.IsInteger t.toNat)
        baseline.timeoutMs p.timeoutMs ∧
      InEffect raw "fail_on_cluster_change" (fun value b => value = .bool b)
        baseline.failOnClusterChange p.failOnClusterChange := by
  obtain ⟨entries, given, rfl, hdecode, rfl⟩ := resolve_eq_ok h
  obtain ⟨⟨timeout, failOnClusterChange, ⟨⟩⟩, hvalues, rfl⟩ := map_eq_ok_iff.mp hdecode
  obtain ⟨⟨htimeout, hfail, -⟩, -⟩ := (decode_object_eq_ok_iff (by decide) entries _).mp hvalues
  exact ⟨inEffect_of_holds (fun _ _ => isInteger_of_word) htimeout _,
    inEffect_of_holds (fun _ _ => eq_bool_of_boolean) hfail _⟩

/-- The same for the policy of a status query. -/
theorem infoPolicy_inEffect {baseline p : InfoPolicy} {raw : Option Json}
    (h : Policy.resolve baseline raw = .ok (some p)) :
    InEffect raw "timeout" (fun value t => value.IsInteger t.toNat)
        baseline.timeoutMs p.timeoutMs ∧
      InEffect raw "send_as_is" (fun value b => value = .bool b) baseline.sendAsIs p.sendAsIs ∧
      InEffect raw "check_bounds" (fun value b => value = .bool b)
        baseline.checkBounds p.checkBounds := by
  obtain ⟨entries, given, rfl, hdecode, rfl⟩ := resolve_eq_ok h
  obtain ⟨⟨timeout, sendAsIs, checkBounds, ⟨⟩⟩, hvalues, rfl⟩ := map_eq_ok_iff.mp hdecode
  obtain ⟨⟨htimeout, hsend, hcheck, -⟩, -⟩ :=
    (decode_object_eq_ok_iff (by decide) entries _).mp hvalues
  exact ⟨inEffect_of_holds (fun _ _ => isInteger_of_word) htimeout _,
    inEffect_of_holds (fun _ _ => eq_bool_of_boolean) hsend _,
    inEffect_of_holds (fun _ _ => eq_bool_of_boolean) hcheck _⟩

/-- The options of a job are what the caller gives, or those the job had. -/
theorem options_inEffect {r : ScanRequest} {o : ScanOptions} (h : r.givenOptions = .ok o)
    (job : Job) :
    InEffect r.options "percent" (fun value n => value.IsInteger n.toNat)
        job.percent (job.withOptions o).percent ∧
      InEffect r.options "priority" (fun value p => value.IsInteger p.code)
        job.priority (job.withOptions o).priority ∧
      InEffect r.options "concurrent" (fun value b => value = .bool b)
        job.concurrent (job.withOptions o).concurrent ∧
      InEffect r.options "nobins" (fun value b => value = .bool b)
        job.noBins (job.withOptions o).noBins := by
  unfold ScanRequest.givenOptions at h
  cases hraw : r.options with
  | none =>
    rw [hraw] at h
    obtain rfl := Except.ok.inj h
    exact ⟨inEffect_none _ _ _, inEffect_none _ _ _, inEffect_none _ _ _, inEffect_none _ _ _⟩
  | some raw =>
    rw [hraw] at h
    obtain ⟨entries, ⟨percent, priority, concurrent, noBins, ⟨⟩⟩, rfl, hvalues, ho⟩ :=
      parse_eq_ok h
    obtain ⟨⟨hpercent, hpriority, hconcurrent, hnoBins, -⟩, -⟩ :=
      (decode_object_eq_ok_iff (by decide) entries _).mp hvalues
    obtain ⟨rfl, hfound, rfl, rfl⟩ := ofValues_eq_ok ho
    exact ⟨inEffect_of_holds (fun _ _ => isInteger_of_byte) hpercent _,
      inEffect_priority hpriority hfound _,
      inEffect_of_holds (fun _ _ => eq_bool_of_boolean) hconcurrent _,
      inEffect_of_holds (fun _ _ => eq_bool_of_boolean) hnoBins _⟩

end BackgroundScan
