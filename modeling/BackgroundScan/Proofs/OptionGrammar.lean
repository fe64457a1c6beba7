import BackgroundScan.Proofs.Grammar

/-!
# The grammar of scan options

Options are checked in three layers: that they are an object, that each of its entries fits into
its field, and that the percentage and the priority are in their ranges. Whether options are read
can be said of the entries alone, each by itself; in which layer they fail decides the error, and
the order of the entries matters in the second layer only.

1. `ScanOptions.grammar`: what may stand under a key. `ScanOptions.FailsWith`: why options are
   refused.
2. `held_eq_some_iff`: what an optional integer holds. `accepts_grammar_iff`: what the ranges add
   to what the fields hold.
3. `parse_ok_iff`, `parse_eq_error_iff`: when options are read, and with which error they fail.
   `reads_by_grammar`: the same with what is read.
-/

namespace BackgroundScan

/-! ## 1. Grammar and errors -/

/-- Whether an entry has an integer under a key. -/
def GivesInteger (entries : List (String × Json)) (key : String) (n : Int) : Prop :=
  ∃ h, (key, .number (.integer n h)) ∈ entries

namespace ScanOptions

/-- What may stand under the keys of options. -/
def grammar : Grammar :=
  [("percent", .integer .byte 0 100), ("priority", .integer .signed 0 3),
    ("concurrent", .boolean), ("nobins", .boolean)]

/-- What the fields of options have room for. -/
def fieldGrammar : Grammar :=
  [("percent", .integer .byte 0 0xFF),
    ("priority", .integer .signed (-0x8000000000000000) 0x7FFFFFFFFFFFFFFF),
    ("concurrent", .boolean), ("nobins", .boolean)]

/-- Why options are refused. What does not fit into a field comes first, then a percentage past
its range, then a priority that there is none of. -/
inductive FailsWith : Json → OptionsError → Prop
  | notAnObject {raw : Json} (h : ∀ entries, raw ≠ .object entries) : FailsWith raw .notAnObject
  | shape {entries : List (String × Json)} {cause : DecodeError}
      (h : fieldGrammar.FirstProblem entries cause) : FailsWith (.object entries) (.shape cause)
  | percentAbove {entries : List (String × Json)} {n : UInt8}
      (hfields : fieldGrammar.Accepts entries)
      (hpercent : GivesInteger entries "percent" n.toNat) (habove : 100 < n.toNat) :
      FailsWith (.object entries) (.percentAbove n)
  | unknownPriority {entries : List (String × Json)} {code : Int64}
      (hfields : fieldGrammar.Accepts entries)
      (hpercent : ∀ n, GivesInteger entries "percent" n → n ≤ 100)
      (hpriority : GivesInteger entries "priority" code.toInt)
      (hunknown : ¬ (0 ≤ code.toInt ∧ code.toInt ≤ 3)) :
      FailsWith (.object entries) (.unknownPriority code)

end ScanOptions

/-! ## 2. What the fields hold -/

namespace OptionLemmas

open ScanOptions OverrideLemmas GrammarLemmas

theorem givesInteger_iff {entries : List (String × Json)} {key : String} {n : Int} :
    GivesInteger entries key n ↔ ∃ value, (key, value) ∈ entries ∧ value.IsInteger n := by
  constructor
  · rintro ⟨h, hentry⟩
    exact ⟨_, hentry, h, rfl⟩
  · rintro ⟨_, hentry, h, rfl⟩
    exact ⟨h, hentry⟩

/-- An integer that a type holds is read as what is made of it. -/
theorem map_of_isInteger {α : Type} {kind : IntegerKind} {make : Int → α} {value : Json} {n : Int}
    (h : value.IsInteger n) (hlow : kind.low ≤ n) (hbound : n < kind.bound) :
    (Scalar.integer kind value.head).map make = .ok (make n) := by
  obtain ⟨hrange, rfl⟩ := h
  exact map_eq_ok_iff.mpr ⟨n, Scalar.integer_eq_ok_iff.mpr ⟨⟨hrange, rfl⟩, hlow, hbound⟩, rfl⟩

theorem byte_eq_ok_iff {value : Json} {n : UInt8} :
    Scalar.byte value.head = .ok n ↔ value.IsInteger n.toNat := by
  refine ⟨isInteger_of_byte, fun h => ?_⟩
  have hbound : (n.toNat : Int) < IntegerKind.byte.bound := Int.ofNat_lt.mpr n.toNat_lt
  have hlow : IntegerKind.byte.low ≤ (n.toNat : Int) := Int.natCast_nonneg _
  rw [Scalar.byte, map_of_isInteger h hlow hbound]
  exact congrArg Except.ok UInt8.ofNat_toNat

theorem signed_eq_ok_iff {value : Json} {n : Int64} :
    Scalar.signed value.head = .ok n ↔ value.IsInteger n.toInt := by
  refine ⟨isInteger_of_signed, fun h => ?_⟩
  have hlow : IntegerKind.signed.low ≤ n.toInt := n.le_toInt
  rw [Scalar.signed, map_of_isInteger h hlow n.toInt_lt]
  exact congrArg Except.ok (Int64.ofInt_toInt n)

/-- An optional integer is the one that the entries have under its key. -/
theorem held_eq_some_iff {α : Type} {key : String} {read : Scalar α} {integer : α → Int}
    (hread : ∀ (value : Json) a, read value.head = .ok a ↔ value.IsInteger (integer a))
    {entries : List (String × Json)} {held : Option α}
    (h : (Field.optional key read).Holds entries held) (a : α) :
    held = some a ↔ GivesInteger entries key (integer a) := by
  rw [givesInteger_iff]
  constructor
  · rintro rfl
    rcases optional_holds h with ⟨hnone, -⟩ | ⟨b, value, hb, ⟨_, hentries, hentry, -⟩, -, hvalue⟩
    · cases hnone
    · obtain rfl := Json.object.inj (Option.some.inj hentries)
      obtain rfl := Option.some.inj hb
      exact ⟨value, hentry, (hread value a).mp hvalue⟩
  · rintro ⟨value, hentry, hinteger⟩
    have hgives : Gives (some (.object entries)) key value := by
      refine ⟨entries, rfl, hentry, ?_⟩
      rintro rfl
      obtain ⟨_, ⟨⟩⟩ := hinteger
    rcases optional_holds h with ⟨-, hnothing⟩ | ⟨b, value', rfl, -, honly, hvalue⟩
    · exact absurd hgives (hnothing value)
    · obtain rfl := honly value hgives
      have ha := (hread value a).mpr hinteger
      rw [hvalue] at ha
      exact congrArg some (Except.ok.inj ha)

theorem shape_follows : ScanOptions.shape.Follows fieldGrammar := by
  refine ⟨rfl, by decide, .cons (integer_sets rfl rfl) (.cons (integer_sets rfl rfl) ?_)⟩
  exact .cons (boolean_sets _) (.cons (boolean_sets _) .nil)

/-- An integer that accepted entries have is in the range of its key. -/
theorem range_of_accepts {g : Grammar} {entries : List (String × Json)} {key : String}
    {kind : IntegerKind} {low high : Int} (hkeys : g.keys.Nodup)
    (hsetting : (key, .integer kind low high) ∈ g) (h : g.Accepts entries) {n : Int}
    (hn : GivesInteger entries key n) : low ≤ n ∧ n ≤ high := by
  obtain ⟨hrange, hentry⟩ := hn
  obtain ⟨setting, hmem, hallows⟩ := h.values _ hentry
  obtain rfl := setting_unique hkeys hmem hsetting
  exact range_of_allows hallows ⟨hrange, rfl⟩

/-- Options are as they should be if they fit into the fields, the percentage is at most 100 and
the priority has a code. -/
theorem accepts_grammar_iff {entries : List (String × Json)} :
    grammar.Accepts entries ↔ fieldGrammar.Accepts entries ∧
      (∀ n, GivesInteger entries "percent" n → n ≤ 100) ∧
      ∀ n, GivesInteger entries "priority" n → 0 ≤ n ∧ n ≤ 3 := by
  constructor
  · intro h
    refine ⟨⟨h.keys, ?_⟩, ?_, ?_⟩
    · rintro ⟨key, value⟩ hentry
      obtain ⟨setting, hsetting, hallows⟩ := h.values _ hentry
      simp only [grammar, List.mem_cons, Prod.mk.injEq, List.not_mem_nil, or_false] at hsetting
      rcases hsetting with ⟨rfl, rfl⟩ | ⟨rfl, rfl⟩ | ⟨rfl, rfl⟩ | ⟨rfl, rfl⟩
      · exact ⟨_, .head _, allows_widen (by decide) (by decide) hallows⟩
      · exact ⟨_, .tail _ (.head _), allows_widen (by decide) (by decide) hallows⟩
      · exact ⟨_, .tail _ (.tail _ (.head _)), hallows⟩
      · exact ⟨_, .tail _ (.tail _ (.tail _ (.head _))), hallows⟩
    · intro n hn
      exact (range_of_accepts (by decide) (.head _) h hn).2
    · intro n hn
      exact range_of_accepts (by decide) (.tail _ (.head _)) h hn
  · rintro ⟨h, hpercent, hpriority⟩
    refine ⟨h.keys, ?_⟩
    rintro ⟨key, value⟩ hentry
    obtain ⟨setting, hsetting, hallows⟩ := h.values _ hentry
    simp only [fieldGrammar, List.mem_cons, Prod.mk.injEq, List.not_mem_nil, or_false] at hsetting
    rcases hsetting with ⟨rfl, rfl⟩ | ⟨rfl, rfl⟩ | ⟨rfl, rfl⟩ | ⟨rfl, rfl⟩
    · refine ⟨_, .head _, allows_narrow hallows fun n hn => ⟨?_, ?_⟩⟩
      · exact (range_of_allows hallows hn).1
      · exact hpercent n (givesInteger_iff.mpr ⟨value, hentry, hn⟩)
    · refine ⟨_, .tail _ (.head _), allows_narrow hallows fun n hn => ?_⟩
      exact hpriority n (givesInteger_iff.mpr ⟨value, hentry, hn⟩)
    · exact ⟨_, .tail _ (.tail _ (.head _)), hallows⟩
    · exact ⟨_, .tail _ (.tail _ (.tail _ (.head _))), hallows⟩

theorem code_range (p : Priority) : 0 ≤ p.code ∧ p.code ≤ 3 := by
  cases p <;> decide

theorem ofCode?_of_code {code : Int64} {p : Priority} (h : code.toInt = p.code) :
    Priority.ofCode? code = some p := by
  obtain rfl : code = Int64.ofInt p.code := by rw [← h, Int64.ofInt_toInt]
  cases p <;> rfl

/-- There is a priority for every code from 0 to 3. -/
theorem ofCode?_isSome_iff {code : Int64} :
    (∃ p, Priority.ofCode? code = some p) ↔ 0 ≤ code.toInt ∧ code.toInt ≤ 3 := by
  constructor
  · rintro ⟨p, hp⟩
    rw [code_of_ofCode? hp]
    exact code_range p
  · rintro ⟨hlow, hhigh⟩
    have hcode : code.toInt = 0 ∨ code.toInt = 1 ∨ code.toInt = 2 ∨ code.toInt = 3 := by omega
    rcases hcode with h | h | h | h
    · exact ⟨.auto, ofCode?_of_code h⟩
    · exact ⟨.low, ofCode?_of_code h⟩
    · exact ⟨.medium, ofCode?_of_code h⟩
    · exact ⟨.high, ofCode?_of_code h⟩

/-! The ranges of what was read, in the order in which they are checked. -/

section Ranges

variable {percent : Option UInt8} {priority : Option Int64} {concurrent noBins : Option Bool}

theorem ofValues_percentAbove {n : UInt8} (hpercent : percent = some n) (habove : 100 < n.toNat) :
    ofValues (percent, priority, concurrent, noBins, ()) = .error (.percentAbove n) := by
  subst hpercent
  have hlt : 100 < n := UInt8.lt_iff_toNat_lt.mpr (show 100 < n.toNat from habove)
  have hcheck : checkPercent (some n) = .error (.percentAbove n) := if_pos hlt
  unfold ofValues
  simp only [hcheck]

theorem checkPercent_of_le (hpercent : ∀ n, percent = some n → (n.toNat : Int) ≤ 100) :
    checkPercent percent = .ok percent := by
  cases percent with
  | none => rfl
  | some n =>
    have hle : ¬ 100 < n := by
      rw [UInt8.lt_iff_toNat_lt]
      exact Nat.not_lt.mpr (Int.ofNat_le.mp (hpercent n rfl))
    exact if_neg hle

theorem ofValues_unknownPriority (hpercent : ∀ n, percent = some n → (n.toNat : Int) ≤ 100)
    {code : Int64} (hpriority : priority = some code)
    (hunknown : ¬ (0 ≤ code.toInt ∧ code.toInt ≤ 3)) :
    ofValues (percent, priority, concurrent, noBins, ()) = .error (.unknownPriority code) := by
  subst hpriority
  have hnone : Priority.ofCode? code = none := by
    rw [← ofCode?_isSome_iff] at hunknown
    cases hcode : Priority.ofCode? code with
    | none => rfl
    | some p => exact absurd ⟨p, hcode⟩ hunknown
  unfold ofValues
  simp only [checkPercent_of_le hpercent, checkPriority, hnone]

theorem ofValues_ok (hpercent : ∀ n, percent = some n → (n.toNat : Int) ≤ 100)
    (hpriority : ∀ code, priority = some code → 0 ≤ code.toInt ∧ code.toInt ≤ 3) :
    ∃ o, ofValues (percent, priority, concurrent, noBins, ()) = .ok o := by
  unfold ofValues
  simp only [checkPercent_of_le hpercent]
  cases priority with
  | none => exact ⟨_, rfl⟩
  | some code =>
    obtain ⟨p, hp⟩ := ofCode?_isSome_iff.mpr (hpriority code rfl)
    simp only [checkPriority, hp]
    exact ⟨_, rfl⟩

/-- What passes the checks is in its ranges. -/
theorem ranges_of_ofValues {o : ScanOptions}
    (h : ofValues (percent, priority, concurrent, noBins, ()) = .ok o) :
    (∀ n, percent = some n → (n.toNat : Int) ≤ 100) ∧
      ∀ code, priority = some code → 0 ≤ code.toInt ∧ code.toInt ≤ 3 := by
  have hpercent : ∀ n, percent = some n → (n.toNat : Int) ≤ 100 := by
    intro n hheld
    refine Int.not_lt.mp fun habove => ?_
    rw [ofValues_percentAbove hheld (Int.ofNat_lt.mp habove)] at h
    cases h
  refine ⟨hpercent, ?_⟩
  intro code hheld
  refine Decidable.byContradiction fun hunknown => ?_
  rw [ofValues_unknownPriority hpercent hheld hunknown] at h
  cases h

end Ranges

/-- What holds of every integer that is held holds of every one that is given, if each of these
is one that can be held. -/
theorem forall_held_iff {α : Type} {entries : List (String × Json)} {key : String}
    {held : Option α} {integer : α → Int}
    (hheld : ∀ a, held = some a ↔ GivesInteger entries key (integer a))
    (honto : ∀ n, GivesInteger entries key n → ∃ a, integer a = n) (P : Int → Prop) :
    (∀ a, held = some a → P (integer a)) ↔ ∀ n, GivesInteger entries key n → P n := by
  constructor
  · intro h n hn
    obtain ⟨a, rfl⟩ := honto n hn
    exact h a ((hheld a).mpr hn)
  · intro h a ha
    exact h (integer a) ((hheld a).mp ha)

theorem byte_onto {n : Int} (hrange : 0 ≤ n ∧ n ≤ 0xFF) : ∃ a : UInt8, (a.toNat : Int) = n := by
  refine ⟨UInt8.ofNat n.toNat, ?_⟩
  rw [UInt8.toNat_ofNat']
  omega

theorem signed_onto {n : Int} (hrange : -0x8000000000000000 ≤ n ∧ n ≤ 0x7FFFFFFFFFFFFFFF) :
    ∃ a : Int64, a.toInt = n :=
  ⟨Int64.ofInt n, Int64.toInt_ofInt_of_le (by omega) (by omega)⟩

/-- What the fields hold of entries that were read: the percentage and the priority are those of
the entries. -/
structure FieldsOf (entries : List (String × Json)) (percent : Option UInt8)
    (priority : Option Int64) : Prop where
  accepted : fieldGrammar.Accepts entries
  percent : ∀ n, percent = some n ↔ GivesInteger entries "percent" n.toNat
  priority : ∀ code, priority = some code ↔ GivesInteger entries "priority" code.toInt

theorem fields_of_decode {entries : List (String × Json)} {percent : Option UInt8}
    {priority : Option Int64} {concurrent noBins : Option Bool}
    (h : ScanOptions.shape.decode (.object entries) =
      .ok (percent, priority, concurrent, noBins, ())) : FieldsOf entries percent priority := by
  have haccepts := (decode_ok_iff shape_follows entries).mp ⟨_, h⟩
  obtain ⟨⟨hpercent, hpriority, -⟩, -⟩ := (decode_object_eq_ok_iff (by decide) entries _).mp h
  exact ⟨haccepts, held_eq_some_iff (fun _ _ => byte_eq_ok_iff) hpercent,
    held_eq_some_iff (fun _ _ => signed_eq_ok_iff) hpriority⟩

/-- The percentage that is held is in its range if the one that is given is. -/
theorem percent_le_iff {entries : List (String × Json)} {percent : Option UInt8}
    {priority : Option Int64} (h : FieldsOf entries percent priority) :
    (∀ n, percent = some n → (n.toNat : Int) ≤ 100) ↔
      ∀ n, GivesInteger entries "percent" n → n ≤ 100 :=
  forall_held_iff h.percent
    (fun _ hn => byte_onto (range_of_accepts (by decide) (.head _) h.accepted hn)) (· ≤ 100)

/-- The priority that is held has a code if the one that is given has. -/
theorem priority_range_iff {entries : List (String × Json)} {percent : Option UInt8}
    {priority : Option Int64} (h : FieldsOf entries percent priority) :
    (∀ code, priority = some code → 0 ≤ code.toInt ∧ code.toInt ≤ 3) ↔
      ∀ n, GivesInteger entries "priority" n → 0 ≤ n ∧ n ≤ 3 :=
  forall_held_iff h.priority
    (fun _ hn => signed_onto (range_of_accepts (by decide) (.tail _ (.head _)) h.accepted hn))
    fun n => 0 ≤ n ∧ n ≤ 3

theorem parse_of_decode {entries : List (String × Json)} {values : Values ScanOptions.shape.fields}
    (h : ScanOptions.shape.decode (.object entries) = .ok values) :
    parse (.object entries) = ofValues values := by
  simp only [parse, Json.entries?, h]

theorem parse_of_decode_error {entries : List (String × Json)} {cause : DecodeError}
    (h : ScanOptions.shape.decode (.object entries) = .error cause) :
    parse (.object entries) = .error (.shape cause) := by
  simp only [parse, Json.entries?, h]

/-- The entries of refused options that were read are past a range. -/
theorem failsWith_of_fields {entries : List (String × Json)} {percent : Option UInt8}
    {priority : Option Int64} {concurrent noBins : Option Bool} {e : OptionsError}
    (hread : FieldsOf entries percent priority)
    (h : ofValues (percent, priority, concurrent, noBins, ()) = .error e) :
    FailsWith (.object entries) e := by
  by_cases hpercent : ∀ n, percent = some n → (n.toNat : Int) ≤ 100
  · by_cases hpriority : ∀ code, priority = some code → 0 ≤ code.toInt ∧ code.toInt ≤ 3
    · obtain ⟨o, ho⟩ := ofValues_ok hpercent hpriority
      rw [ho] at h
      cases h
    · obtain ⟨code, hcode⟩ := Classical.not_forall.mp hpriority
      obtain ⟨hheld, hunknown⟩ := Classical.not_imp.mp hcode
      obtain rfl := Except.error.inj
        ((ofValues_unknownPriority hpercent hheld hunknown).symm.trans h)
      exact .unknownPriority hread.accepted ((percent_le_iff hread).mp hpercent)
        ((hread.priority code).mp hheld) hunknown
  · obtain ⟨n, hn⟩ := Classical.not_forall.mp hpercent
    obtain ⟨hheld, habove⟩ := Classical.not_imp.mp hn
    have hlt : 100 < n.toNat := Int.ofNat_lt.mp (Int.not_le.mp habove)
    obtain rfl := Except.error.inj ((ofValues_percentAbove hheld hlt).symm.trans h)
    exact .percentAbove hread.accepted ((hread.percent n).mp hheld) hlt

end OptionLemmas

/-! ## 3. Options -/

namespace ScanOptions

open OptionLemmas OverrideLemmas

/-- Options are refused for the first layer that fails. -/
theorem parse_eq_error_iff {raw : Json} {e : OptionsError} :
    parse raw = .error e ↔ FailsWith raw e := by
  constructor
  · intro h
    rcases raw with _ | _ | _ | _ | _ | entries
    case object =>
      cases hdecode : shape.decode (.object entries) with
      | error cause =>
        rw [parse_of_decode_error hdecode] at h
        obtain rfl := Except.error.inj h
        exact .shape ((decode_eq_error_iff shape_follows entries cause).mp hdecode)
      | ok values =>
        rw [parse_of_decode hdecode] at h
        exact failsWith_of_fields (fields_of_decode hdecode) h
    all_goals
      obtain rfl := Except.error.inj h
      exact .notAnObject nofun
  · intro h
    cases h with
    | notAnObject hraw =>
      cases raw with
      | object entries => exact absurd rfl (hraw entries)
      | _ => rfl
    | shape hfirst =>
      exact parse_of_decode_error ((decode_eq_error_iff shape_follows _ _).mpr hfirst)
    | percentAbove hfields hpercent habove =>
      obtain ⟨values, hdecode⟩ := (decode_ok_iff shape_follows _).mpr hfields
      rw [parse_of_decode hdecode]
      exact ofValues_percentAbove (((fields_of_decode hdecode).percent _).mpr hpercent) habove
    | unknownPriority hfields hpercent hpriority hunknown =>
      obtain ⟨values, hdecode⟩ := (decode_ok_iff shape_follows _).mpr hfields
      have hread := fields_of_decode hdecode
      rw [parse_of_decode hdecode]
      exact ofValues_unknownPriority ((percent_le_iff hread).mpr hpercent)
        ((hread.priority _).mpr hpriority) hunknown

/-- Options are read exactly when the grammar accepts them. -/
theorem parse_ok_iff {raw : Json} :
    (∃ o, parse raw = .ok o) ↔ ∃ entries, raw = .object entries ∧ grammar.Accepts entries := by
  constructor
  · rintro ⟨o, h⟩
    obtain ⟨entries, values, rfl, hdecode, ho⟩ := parse_eq_ok h
    have hread := fields_of_decode hdecode
    obtain ⟨hpercent, hpriority⟩ := ranges_of_ofValues ho
    exact ⟨entries, rfl, accepts_grammar_iff.mpr ⟨hread.accepted,
      (percent_le_iff hread).mp hpercent, (priority_range_iff hread).mp hpriority⟩⟩
  · rintro ⟨entries, rfl, haccepts⟩
    obtain ⟨hfields, hpercent, hpriority⟩ := accepts_grammar_iff.mp haccepts
    obtain ⟨values, hdecode⟩ := (decode_ok_iff shape_follows entries).mpr hfields
    have hread := fields_of_decode hdecode
    rw [parse_of_decode hdecode]
    exact ofValues_ok ((percent_le_iff hread).mpr hpercent)
      ((priority_range_iff hread).mpr hpriority)

/-- What was read is what the object holds, the priority by its code. -/
theorem heldAs_of_parse {raw : Json} {o : ScanOptions} (h : parse raw = .ok o) :
    HeldAs (some raw) "percent" (fun value n => value.IsInteger n.toNat) o.percent ∧
      HeldAs (some raw) "priority" (fun value p => value.IsInteger p.code) o.priority ∧
      HeldAs (some raw) "concurrent" (fun value b => value = .bool b) o.concurrent ∧
      HeldAs (some raw) "nobins" (fun value b => value = .bool b) o.noBins := by
  obtain ⟨entries, ⟨percent, priority, concurrent, noBins, ⟨⟩⟩, rfl, hdecode, ho⟩ :=
    parse_eq_ok h
  obtain ⟨⟨hpercent, hpriority, hconcurrent, hnoBins, -⟩, -⟩ :=
    (decode_object_eq_ok_iff (by decide) entries _).mp hdecode
  obtain ⟨rfl, hfound, rfl, rfl⟩ := ofValues_eq_ok ho
  exact ⟨heldAs_of_holds (fun _ _ => isInteger_of_byte) hpercent,
    heldAs_priority hpriority hfound, heldAs_of_holds (fun _ _ => eq_bool_of_boolean) hconcurrent,
    heldAs_of_holds (fun _ _ => eq_bool_of_boolean) hnoBins⟩

/-- Entries in another order are read as the same options. -/
theorem parse_perm {entries entries' : List (String × Json)} (hperm : entries.Perm entries')
    {o : ScanOptions} (h : parse (.object entries) = .ok o) :
    parse (.object entries') = .ok o := by
  obtain ⟨_, values, ⟨⟩, hdecode, ho⟩ := parse_eq_ok h
  rw [parse_of_decode (decode_object_perm (by decide) hperm hdecode)]
  exact ho

/-- Options are read exactly when they are an object of the known keys, each at most once, with
null or a value of its range. What is read is then what is given, in whichever order, and without
null. Otherwise the first layer that fails decides the error, which is always one of validation. -/
theorem reads_by_grammar (raw : Json) :
    ((∃ o, parse raw = .ok o) ↔
        ∃ entries, raw = .object entries ∧ grammar.Accepts entries) ∧
      (∀ o, parse raw = .ok o →
        HeldAs (some raw) "percent" (fun value n => value.IsInteger n.toNat) o.percent ∧
        HeldAs (some raw) "priority" (fun value p => value.IsInteger p.code) o.priority ∧
        HeldAs (some raw) "concurrent" (fun value b => value = .bool b) o.concurrent ∧
        HeldAs (some raw) "nobins" (fun value b => value = .bool b) o.noBins) ∧
      (∀ e, parse raw = .error e ↔ FailsWith raw e) ∧
      (∀ e, parse raw = .error e → e.failure.kind = .validation) ∧
      ∀ entries entries', raw = .object entries → entries.Perm entries' →
        ∀ o, parse raw = .ok o ↔ parse (.object entries') = .ok o := by
  refine ⟨parse_ok_iff, fun o => heldAs_of_parse, fun e => parse_eq_error_iff, fun _ _ => rfl, ?_⟩
  rintro entries entries' rfl hperm o
  exact ⟨parse_perm hperm, parse_perm hperm.symm⟩

/-- The highest priority is read before and after a percentage that is null. A percentage past its
range is reported although a priority that there is none of comes first. -/
theorem reads_by_grammar_reordered :
    let high : Json := .number (.integer 3 (by decide))
    let seven : Json := .number (.integer 7 (by decide))
    let hundredOne : Json := .number (.integer 101 (by decide))
    let unknown : Json := .object [("priority", seven), ("percent", hundredOne)]
    (∃ o, parse (.object [("priority", high), ("percent", .null)]) = .ok o ∧
      parse (.object [("percent", .null), ("priority", high)]) = .ok o ∧
      HeldAs (some (.object [("priority", high), ("percent", .null)])) "priority"
        (fun value p => value.IsInteger p.code) o.priority) ∧
      parse unknown = .error (.percentAbove 101) ∧
      (OptionsError.percentAbove 101).failure.kind = .validation := by
  intro high seven hundredOne unknown
  have haccepts : grammar.Accepts [("priority", high), ("percent", .null)] := by
    refine ⟨by decide, List.forall_mem_cons.mpr ⟨?_, List.forall_mem_singleton.mpr ?_⟩⟩
    · exact ⟨_, .tail _ (.head _), .integer (by decide) (by decide)⟩
    · exact ⟨_, .head _, .null⟩
  have hfits : fieldGrammar.Accepts [("priority", seven), ("percent", hundredOne)] := by
    refine ⟨by decide, List.forall_mem_cons.mpr ⟨?_, List.forall_mem_singleton.mpr ?_⟩⟩
    · exact ⟨_, .tail _ (.head _), .integer (by decide) (by decide)⟩
    · exact ⟨_, .head _, .integer (by decide) (by decide)⟩
  obtain ⟨hok, hheld, -, -, hperm⟩ :=
    reads_by_grammar (.object [("priority", high), ("percent", .null)])
  obtain ⟨-, -, hfails, hkind, -⟩ := reads_by_grammar unknown
  obtain ⟨o, ho⟩ := hok.mpr ⟨_, rfl, haccepts⟩
  have hunknown : parse unknown = .error (.percentAbove 101) := by
    refine (hfails _).mpr (.percentAbove hfits ⟨by decide, .tail _ (.head _)⟩ ?_)
    decide
  exact ⟨⟨o, ho, (hperm _ _ rfl (.swap _ _ []) o).mp ho, (hheld o ho).2.1⟩, hunknown,
    hkind _ hunknown⟩

end ScanOptions

end BackgroundScan
