import BackgroundScan.Proofs.FirstFailure
import BackgroundScan.Proofs.OpenRecords

/-!
# Requests from objects

A request is read from an object by its keys: four names, the first of which has two keys, the
arguments, and a policy and options that may be absent. What else the object holds is ignored.

1. `ScanRequest.Complete` and `ScanRequest.GivenBy`: what an object must give, and the request
   that it then gives. Both look up keys and say nothing of an order.
2. `decode_iff_givenBy`: an object is read as the request that it gives.
3. `nulls_refused`: a policy or options that a caller sets to null are refused.
4. `decodes_by_keys`: all of this. Null is the same as nothing in an object, and only there.
-/

namespace BackgroundScan

/-! ## 1. What an object gives -/

/-- The entries under other keys than this one. -/
def Json.without (key : String) (entries : List (String × Json)) : List (String × Json) :=
  entries.filter fun e => e.1 != key

namespace ScanRequest

/-- The keys that a request is read from. -/
def keys : List String :=
  ["namespace", "ns", "set", "module", "function", "args", "policy", "options"]

/-- The entries under the keys of a request. -/
def recognised (entries : List (String × Json)) : List (String × Json) :=
  entries.filter fun e => keys.contains e.1

/-- Whether one of the two keys of the namespace is there and holds this string, and the other is
not there. -/
inductive SpaceGiven (entries : List (String × Json)) (space : String) : Prop
  | named (h : Json.find? "namespace" entries = some (.string space))
      (hother : Json.find? "ns" entries = none)
  | abbreviated (h : Json.find? "ns" entries = some (.string space))
      (hother : Json.find? "namespace" entries = none)

/-- Whether an object has all that a request needs. -/
structure Complete (entries : List (String × Json)) : Prop where
  space : ∃ space, SpaceGiven entries space
  set : ∃ set, Json.find? "set" entries = some (.string set)
  moduleName : ∃ name, Json.find? "module" entries = some (.string name)
  functionName : ∃ name, Json.find? "function" entries = some (.string name)
  args : ∃ args, Json.find? "args" entries = some args

/-- What is under a key that may be absent, where null is the same as nothing. -/
def optionAt (key : String) (entries : List (String × Json)) : Option Json :=
  match Json.find? key entries with
  | some .null => none
  | found => found

/-- Whether a request has just what an object gives. -/
structure GivenBy (r : ScanRequest) (entries : List (String × Json)) : Prop where
  space : SpaceGiven entries r.space
  set : Json.find? "set" entries = some (.string r.set)
  moduleName : Json.find? "module" entries = some (.string r.moduleName)
  functionName : Json.find? "function" entries = some (.string r.functionName)
  args : Json.find? "args" entries = some r.args
  policy : r.policy = optionAt "policy" entries
  options : r.options = optionAt "options" entries

end ScanRequest

/-! ## 2. Reading the object -/

namespace RequestObjectLemmas

open ScanRequest

theorem keys_shape : ScanRequest.shape.keys = ScanRequest.keys := rfl

theorem string_eq_ok_iff {raw : Json} {s : String} :
    Scalar.string raw.head = .ok s ↔ raw = .string s := by
  rcases raw with _ | _ | _ | found | _ | _
  case string =>
    rw [Json.string.injEq]
    exact ⟨Except.ok.inj, congrArg _⟩
  all_goals exact ⟨nofun, nofun⟩

theorem nullable_eq_ok_iff {raw : Json} {held : Option Json} :
    nullable raw = .ok held ↔
      held = match some raw with
        | some .null => none
        | found => found := by
  cases raw <;> exact ⟨fun h => (Except.ok.inj h).symm, fun h => congrArg _ h.symm⟩

theorem single_name {f : Field} (h : f.secondName = none) : f.secondName ≠ some f.name := by
  rw [h]
  nofun

/-- Under its one name a field finds one value or none. -/
theorem found_single {f : Field} (h : f.secondName = none) (entries : List (String × Json)) :
    f.found entries = (Json.find? f.name entries).toList := by
  rw [Field.found, h]
  exact List.append_nil _

/-- A name that must be given is the string under its key. -/
theorem holds_string {key : String} {entries : List (String × Json)}
    (hkeys : (Json.keys entries).Nodup) (value : String) :
    (Field.required key Scalar.string).Holds entries value ↔
      Json.find? key entries = some (.string value) := by
  refine (holds_iff_find? (f := .required key Scalar.string) (single_name rfl) hkeys value).trans ?_
  have hfound : (Field.required key Scalar.string).found entries =
      (Json.find? key entries).toList := found_single rfl entries
  rw [hfound]
  cases Json.find? key entries with
  | none => exact ⟨nofun, nofun⟩
  | some raw =>
    rw [Option.some.injEq]
    exact string_eq_ok_iff

/-- The field of the namespace. -/
def spaceField : Field := { Field.required "namespace" Scalar.string with secondName := some "ns" }

theorem holds_space {entries : List (String × Json)} (hkeys : (Json.keys entries).Nodup)
    (value : String) : spaceField.Holds entries value ↔ SpaceGiven entries value := by
  refine (holds_iff_find? (f := spaceField) (by decide) hkeys value).trans ?_
  have hfound : spaceField.found entries =
      (Json.find? "namespace" entries).toList ++ (Json.find? "ns" entries).toList := rfl
  rw [hfound]
  constructor
  · intro h
    cases hname : Json.find? "namespace" entries with
    | none =>
      cases hother : Json.find? "ns" entries with
      | none =>
        rw [hname, hother] at h
        cases h
      | some raw =>
        rw [hname, hother] at h
        exact .abbreviated (hother.trans (congrArg some (string_eq_ok_iff.mp h))) hname
    | some raw =>
      cases hother : Json.find? "ns" entries with
      | none =>
        rw [hname, hother] at h
        exact .named (hname.trans (congrArg some (string_eq_ok_iff.mp h))) hother
      | some more =>
        rw [hname, hother] at h
        exact h.elim
  · rintro (⟨hname, hother⟩ | ⟨hother, hname⟩)
    · rw [hname, hother]
      rfl
    · rw [hname, hother]
      rfl

theorem holds_args {entries : List (String × Json)} (hkeys : (Json.keys entries).Nodup)
    (value : Json) :
    (⟨"args", none, Json, .tree .ok, none⟩ : Field).Holds entries value ↔
      Json.find? "args" entries = some value := by
  rw [holds_iff_find? (single_name rfl) hkeys, found_single rfl]
  cases Json.find? "args" entries with
  | none => exact Iff.rfl
  | some raw =>
    exact ⟨fun h => congrArg some (Except.ok.inj h), fun h => congrArg _ (Option.some.inj h)⟩

/-- What may be absent is what is under its key, where null is nothing. -/
theorem holds_nullable {key : String} {entries : List (String × Json)}
    (hkeys : (Json.keys entries).Nodup) (value : Option Json) :
    (⟨key, none, Option Json, .tree nullable, some none⟩ : Field).Holds entries value ↔
      value = optionAt key entries := by
  rw [holds_iff_find? (single_name rfl) hkeys, found_single rfl, optionAt]
  cases Json.find? key entries with
  | none => exact ⟨fun h => (Option.some.inj h).symm, fun h => congrArg some h.symm⟩
  | some raw => exact nullable_eq_ok_iff

end RequestObjectLemmas

open RequestObjectLemmas

theorem ScanRequest.separateNames : SeparateNames ScanRequest.shape.fields := by decide

/-- An object is read as the request that it gives. -/
theorem decode_iff_givenBy {entries : List (String × Json)} (hkeys : (Json.keys entries).Nodup)
    (r : ScanRequest) : ScanRequest.decode (.object entries) = .ok r ↔ r.GivenBy entries := by
  have hvalues (values : Values ScanRequest.shape.fields) :
      ScanRequest.shape.decode (.object entries) = .ok values ↔ values.Match entries :=
    (decode_object_eq_ok_iff ScanRequest.separateNames entries values).trans
      (and_iff_left nofun)
  unfold ScanRequest.decode
  rw [map_eq_ok_iff]
  constructor
  · rintro ⟨⟨space, set, moduleName, functionName, args, policy, options, ⟨⟩⟩, hdecode, rfl⟩
    obtain ⟨hspace, hset, hmodule, hfunction, hargs, hpolicy, hoptions, -⟩ :=
      (hvalues _).mp hdecode
    exact ⟨(holds_space hkeys _).mp hspace, (holds_string hkeys _).mp hset,
      (holds_string hkeys _).mp hmodule, (holds_string hkeys _).mp hfunction,
      (holds_args hkeys _).mp hargs, (holds_nullable hkeys _).mp hpolicy,
      (holds_nullable hkeys _).mp hoptions⟩
  · intro h
    refine ⟨(r.space, r.set, r.moduleName, r.functionName, r.args, r.policy, r.options, ()),
      (hvalues _).mpr ?_, rfl⟩
    exact ⟨(holds_space hkeys _).mpr h.space, (holds_string hkeys _).mpr h.set,
      (holds_string hkeys _).mpr h.moduleName, (holds_string hkeys _).mpr h.functionName,
      (holds_args hkeys _).mpr h.args, (holds_nullable hkeys _).mpr h.policy,
      (holds_nullable hkeys _).mpr h.options, trivial⟩

namespace RequestObjectLemmas

open ScanRequest

theorem complete_iff {entries : List (String × Json)} :
    Complete entries ↔ ∃ r : ScanRequest, r.GivenBy entries := by
  constructor
  · rintro ⟨⟨space, hspace⟩, ⟨set, hset⟩, ⟨moduleName, hmodule⟩, ⟨functionName, hfunction⟩,
      ⟨args, hargs⟩⟩
    exact ⟨⟨space, set, moduleName, functionName, args, _, _⟩, hspace, hset, hmodule, hfunction,
      hargs, rfl, rfl⟩
  · rintro ⟨r, h⟩
    exact ⟨⟨_, h.space⟩, ⟨_, h.set⟩, ⟨_, h.moduleName⟩, ⟨_, h.functionName⟩, ⟨_, h.args⟩⟩

theorem find?_without (key other : String) (entries : List (String × Json)) :
    Json.find? other (Json.without key entries) =
      if other = key then none else Json.find? other entries := by
  induction entries with
  | nil => exact (ite_self none).symm
  | cons entry rest ih =>
    obtain ⟨first, value⟩ := entry
    rw [Json.without] at ih ⊢
    rw [List.filter_cons]
    by_cases hfirst : first = key
    · subst hfirst
      rw [if_neg (by simp), ih, Json.find?]
      by_cases hother : other = first
      · rw [if_pos hother, if_pos hother]
      · rw [if_neg hother, if_neg hother, if_neg (Ne.symm hother)]
    · rw [if_pos (bne_iff_ne.mpr hfirst), Json.find?, Json.find?, ih]
      by_cases hother : first = other
      · rw [if_pos hother, if_pos hother, if_neg (hother ▸ hfirst)]
      · rw [if_neg hother, if_neg hother]

theorem nodup_without {entries : List (String × Json)} (h : (Json.keys entries).Nodup)
    (key : String) : (Json.keys (Json.without key entries)).Nodup :=
  h.sublist (List.filter_sublist.map Prod.fst)

theorem optionAt_null {key : String} {entries : List (String × Json)}
    (h : Json.find? key entries = some .null) : optionAt key entries = none := by
  rw [optionAt, h]

/-- Objects that give the same under all keys, as far as that matters, give the same request. -/
theorem givenBy_of_same {entries entries' : List (String × Json)}
    (hfind : ∀ key, key ≠ "policy" → key ≠ "options" →
      Json.find? key entries' = Json.find? key entries)
    (hoption : ∀ key, optionAt key entries' = optionAt key entries) {r : ScanRequest}
    (h : r.GivenBy entries) : r.GivenBy entries' where
  space := by
    have hname := hfind "namespace" (by decide) (by decide)
    have hshort := hfind "ns" (by decide) (by decide)
    cases h.space with
    | named hspace hother => exact .named (hname.trans hspace) (hshort.trans hother)
    | abbreviated hspace hother => exact .abbreviated (hshort.trans hspace) (hname.trans hother)
  set := (hfind "set" (by decide) (by decide)).trans h.set
  moduleName := (hfind "module" (by decide) (by decide)).trans h.moduleName
  functionName := (hfind "function" (by decide) (by decide)).trans h.functionName
  args := (hfind "args" (by decide) (by decide)).trans h.args
  policy := h.policy.trans (hoption "policy").symm
  options := h.options.trans (hoption "options").symm

/-- A policy or options that are null may as well be left out. -/
theorem givenBy_without {entries : List (String × Json)} {key : String}
    (hkey : key = "policy" ∨ key = "options") (hnull : Json.find? key entries = some .null)
    (r : ScanRequest) : r.GivenBy (Json.without key entries) ↔ r.GivenBy entries := by
  have hfind (other : String) (hne : other ≠ key) :
      Json.find? other (Json.without key entries) = Json.find? other entries :=
    (find?_without key other entries).trans (if_neg hne)
  have hneeded (other : String) (hpolicy : other ≠ "policy") (hoptions : other ≠ "options") :
      Json.find? other (Json.without key entries) = Json.find? other entries := by
    refine hfind other fun heq => ?_
    rcases hkey with h | h
    · exact hpolicy (heq.trans h)
    · exact hoptions (heq.trans h)
  have hoption (other : String) :
      optionAt other (Json.without key entries) = optionAt other entries := by
    by_cases hne : other = key
    · subst hne
      rw [optionAt_null hnull, optionAt, find?_without, if_pos rfl]
    · rw [optionAt, optionAt, hfind other hne]
  exact ⟨givenBy_of_same (fun other h h' => (hneeded other h h').symm) fun other =>
    (hoption other).symm, givenBy_of_same hneeded hoption⟩

end RequestObjectLemmas

/-! ## 3. Null in a request made by hand -/

namespace RequestObjectLemmas

open SubmissionCheck

theorem verdict_policy_null (c : Client) (s : Store) {r : ScanRequest}
    (h : r.policy = some .null) :
    SubmissionCheck.policy.verdict c s r =
      some ⟨.validation, "scan policy should be an object"⟩ := by
  rw [verdict, h]
  rfl

theorem verdict_options_null (c : Client) (s : Store) {r : ScanRequest}
    (h : r.options = some .null) :
    SubmissionCheck.options.verdict c s r =
      some ⟨.validation, "scan options should be an object"⟩ := by
  rw [verdict, h]
  rfl

/-- Whatever is wrong with a policy, it is found to be invalid. -/
theorem kind_of_verdict_policy {c : Client} {s : Store} {r : ScanRequest} {f : Failure}
    (h : SubmissionCheck.policy.verdict c s r = some f) : f.kind = .validation := by
  rw [verdict] at h
  split at h
  · cases h
  · next raw _ =>
    cases hvalidate : Policy.validate ScanPolicy raw with
    | ok given =>
      rw [hvalidate] at h
      cases h
    | error e =>
      rw [hvalidate] at h
      obtain rfl := Option.some.inj h
      rfl

/-- Of the checks of the policy and the options one finds null to be invalid. -/
theorem findSome?_null (c : Client) (s : Store) {r : ScanRequest}
    (h : r.policy = some .null ∨ r.options = some .null) :
    ∃ f, [SubmissionCheck.policy, .options].findSome? (verdict c s r) = some f ∧
      f.kind = .validation := by
  rw [List.findSome?_cons]
  cases hpolicy : SubmissionCheck.policy.verdict c s r with
  | some f => exact ⟨f, rfl, kind_of_verdict_policy hpolicy⟩
  | none =>
    rcases h with h | h
    · rw [verdict_policy_null c s h] at hpolicy
      cases hpolicy
    · exact ⟨_, by rw [List.findSome?_singleton, verdict_options_null c s h], rfl⟩

theorem check_eq_ok_iff (r : ScanRequest) (isOpen : Bool) :
    r.check isOpen = .ok () ↔
      isOpen = true ∧ "" ∉ r.names ∧ ∃ items, r.args = .array items := by
  rw [ScanRequest.check, ← r.checkNames_eq_ok_iff]
  cases isOpen with
  | false => exact ⟨nofun, nofun⟩
  | true => exact (and_iff_right rfl).symm

/-- What comes before the policy and the options are the checks made before any work is done. -/
theorem findSome?_order (c : Client) (s : Store) (r : ScanRequest) :
    order.findSome? (verdict c s r) =
      (refusal RequestError.failure (r.check c.isOpen)).or
        (([SubmissionCheck.policy, .options].findSome? (verdict c s r)).or
          ([arguments, namesFit, storeUnarmed].findSome? (verdict c s r))) := by
  rw [← FirstFailureLemmas.findSome?_check, ← List.findSome?_append, ← List.findSome?_append]
  rfl

end RequestObjectLemmas

/-- A request with a policy or options set to null is never accepted. It is found to be invalid
exactly if nothing is wrong with the client, the names and the arguments, which are looked at
first. -/
theorem nulls_refused (c : Client) (s : Store) {r : ScanRequest}
    (h : r.policy = some .null ∨ r.options = some .null) :
    ∃ report, (c.scanApply s r).outcome = .ok (.error report) ∧
      (report.kind = .validation ↔
        c.isOpen = true ∧ "" ∉ r.names ∧ ∃ items, r.args = .array items) := by
  obtain ⟨f, hfound, hkind⟩ := findSome?_null c s h
  have hends := scanApply_endsBy c s r
  rw [findSome?_order, hfound, Option.some_or] at hends
  simp only [← check_eq_ok_iff]
  cases hcheck : r.check c.isOpen with
  | error e =>
    rw [hcheck] at hends
    exact ⟨_, hends, iff_of_false nofun nofun⟩
  | ok _ =>
    rw [hcheck] at hends
    exact ⟨_, hends, iff_of_true hkind rfl⟩

/-! ## 4. Requests from objects -/

open ScanRequest in
/-- An object is read as a request exactly when it has all that a request needs, and then as the
request that it gives. In which order its entries come and what is under other keys makes no
difference, the latter not even to an error. A policy or options that are null are as if they were
left out; in a request made by hand they are not, and it is refused. -/
theorem decodes_by_keys {entries : List (String × Json)} (hkeys : (Json.keys entries).Nodup) :
    ((∃ r, ScanRequest.decode (.object entries) = .ok r) ↔ Complete entries) ∧
      (∀ r, ScanRequest.decode (.object entries) = .ok r ↔ r.GivenBy entries) ∧
      (∀ entries', (recognised entries').Perm (recognised entries) → ∀ r,
        ScanRequest.decode (.object entries') = .ok r ↔
          ScanRequest.decode (.object entries) = .ok r) ∧
      (∀ entries', recognised entries' = recognised entries →
        ScanRequest.decode (.object entries') = ScanRequest.decode (.object entries)) ∧
      (∀ key, key = "policy" ∨ key = "options" → Json.find? key entries = some .null → ∀ r,
        ScanRequest.decode (.object (Json.without key entries)) = .ok r ↔
          ScanRequest.decode (.object entries) = .ok r) ∧
      ∀ (c : Client) (s : Store) (r : ScanRequest),
        r.policy = some .null ∨ r.options = some .null →
          ∃ report, (c.scanApply s r).outcome = .ok (.error report) ∧
            (report.kind = .validation ↔
              c.isOpen = true ∧ "" ∉ r.names ∧ ∃ items, r.args = .array items) := by
  have hreads := decode_iff_givenBy hkeys
  refine ⟨?_, hreads, ?_, ?_, ?_, fun c s r => nulls_refused c s⟩
  · rw [complete_iff]
    exact exists_congr hreads
  · intro entries' hperm r
    have hvalues := decode_known_perm separateNames rfl hperm
    rw [ScanRequest.decode, ScanRequest.decode, map_eq_ok_iff, map_eq_ok_iff]
    exact exists_congr fun values => and_congr_left fun _ => hvalues values
  · intro entries' hsame
    have hknown : shape.known entries' = shape.known entries := hsame
    rw [ScanRequest.decode, ScanRequest.decode, ← decode_known rfl entries', hknown,
      decode_known rfl entries]
  · intro key hkey hnull r
    rw [decode_iff_givenBy (nodup_without hkeys key), hreads]
    exact givenBy_without hkey hnull r

/-- A request with the short key of the namespace, arguments and policy that are null, and two
keys that are none of a request. Without the policy it is the same one; by hand it is refused. -/
theorem decodes_by_keys_abbreviated :
    let entries : List (String × Json) := [("retries", .null), ("function", .string "fn"),
      ("ns", .string "test"), ("policy", .null), ("set", .string "demo"), ("args", .null),
      ("Options", .bool true), ("module", .string "mod")]
    let r : ScanRequest := ⟨"test", "demo", "mod", "fn", .null, none, none⟩
    let byHand : ScanRequest := ⟨"test", "demo", "mod", "fn", .array [], some .null, none⟩
    (Json.keys entries).Nodup ∧
      ScanRequest.decode (.object entries) = .ok r ∧
      ScanRequest.decode (.object entries.reverse) = .ok r ∧
      ScanRequest.decode (.object (ScanRequest.recognised entries)) = .ok r ∧
      ScanRequest.decode (.object (Json.without "policy" entries)) = .ok r ∧
      ∃ report, ((Client.new .standard).scanApply Store.standard byHand).outcome =
        .ok (.error report) ∧ report.kind = .validation := by
  intro entries r byHand
  have hkeys : (Json.keys entries).Nodup := by decide
  obtain ⟨-, hreads, hperm, hignored, hnull, hhand⟩ := decodes_by_keys hkeys
  have hdecode : ScanRequest.decode (.object entries) = .ok r :=
    (hreads r).mpr ⟨.abbreviated rfl rfl, rfl, rfl, rfl, rfl, rfl, rfl⟩
  obtain ⟨report, hrefused, hkind⟩ := hhand (.new .standard) .standard byHand (.inl rfl)
  refine ⟨hkeys, hdecode, ?_, ?_, ?_, report, hrefused, hkind.mpr ⟨rfl, by decide, [], rfl⟩⟩
  · exact (hperm _ ((List.reverse_perm entries).filter _) r).mpr hdecode
  · exact (hignored (ScanRequest.recognised entries) rfl).trans hdecode
  · exact (hnull "policy" (.inl rfl) rfl r).mpr hdecode

end BackgroundScan
