import BackgroundScan.Proofs.FirstFailure
import BackgroundScan.Proofs.Overrides

/-!
# What an accepted request leaves in the store

A request goes through the client, the readers of its policy, its options and its
arguments, the job and the store before there is a record of it. This module says
from the request alone when it is accepted and what the record holds.

1. `Acceptable`: when a request is accepted. `acceptable_iff`: that is when no check
   finds a failure.
2. `Recorded`: what a record holds of a request. `recorded_of_prepared`: the record of
   the job that a client prepares.
3. `submits_what_was_asked`: the acceptable requests are accepted, each with one
   record more.
-/

namespace BackgroundScan

/-! ## 1. Acceptance -/

/-- What a request, the client and the store must be like for the request to be
accepted. -/
structure Acceptable (c : Client) (s : Store) (r : ScanRequest) : Prop where
  clientOpen : c.isOpen = true
  namesGiven : r.space ≠ "" ∧ r.set ≠ "" ∧ r.moduleName ≠ "" ∧ r.functionName ≠ ""
  namesFit : r.moduleName.utf8ByteSize ≤ 63 ∧ r.functionName.utf8ByteSize ≤ 63
  arguments : ∃ items args, r.args = .array items ∧
    convertArguments c.settings.limits r.args = .ok args
  policy : ∀ raw, r.policy = some raw → ∃ given, Policy.validate ScanPolicy raw = .ok given
  options : ∀ raw, r.options = some raw → ∃ given, ScanOptions.parse raw = .ok given
  storeUnarmed : s.submitFailure = none

namespace SubmissionLemmas

theorem refusal_eq_none_iff {ε α : Type} {failure : ε → Failure} {x : Except ε α} :
    refusal failure x = none ↔ ∃ a, x = .ok a := by
  cases x <;> simp [refusal]

theorem argumentsAreList_iff (c : Client) (s : Store) (r : ScanRequest) :
    SubmissionCheck.verdict c s r .argumentsAreList = none ↔ ∃ items, r.args = .array items := by
  cases hargs : r.args <;> simp [SubmissionCheck.verdict, hargs]

theorem policy_iff (c : Client) (s : Store) (r : ScanRequest) :
    SubmissionCheck.verdict c s r .policy = none ↔
      ∀ raw, r.policy = some raw → ∃ given, Policy.validate ScanPolicy raw = .ok given := by
  cases hpolicy : r.policy with
  | none => simp [SubmissionCheck.verdict, hpolicy]
  | some raw => simp [SubmissionCheck.verdict, hpolicy, refusal_eq_none_iff]

theorem options_iff (c : Client) (s : Store) (r : ScanRequest) :
    SubmissionCheck.verdict c s r .options = none ↔
      ∀ raw, r.options = some raw → ∃ given, ScanOptions.parse raw = .ok given := by
  cases hoptions : r.options with
  | none => simp [SubmissionCheck.verdict, hoptions]
  | some raw => simp [SubmissionCheck.verdict, hoptions, refusal_eq_none_iff]

open SubmissionCheck in
/-- A request is acceptable exactly when no check finds a failure. -/
theorem acceptable_iff (c : Client) (s : Store) (r : ScanRequest) :
    Acceptable c s r ↔ order.findSome? (verdict c s r) = none := by
  rw [List.findSome?_eq_none_iff]
  constructor
  · rintro ⟨hopen, hnames, hfit, ⟨items, args, hitems, hargs⟩, hpolicy, hoptions, hunarmed⟩
    intro check _
    cases check with
    | clientOpen => exact if_pos hopen
    | namesGiven => exact if_neg (by simpa only [not_or] using hnames)
    | argumentsAreList => exact (argumentsAreList_iff c s r).mpr ⟨items, hitems⟩
    | policy => exact (policy_iff c s r).mpr hpolicy
    | options => exact (options_iff c s r).mpr hoptions
    | arguments => exact refusal_eq_none_iff.mpr ⟨args, hargs⟩
    | namesFit => exact if_pos hfit
    | storeUnarmed => simp only [SubmissionCheck.verdict, hunarmed, Option.map_none]
  · intro h
    -- the list check and the conversion both speak of the arguments, so they are joined
    obtain ⟨items, hitems⟩ :=
      (argumentsAreList_iff c s r).mp (h .argumentsAreList (by decide))
    obtain ⟨args, hargs⟩ := refusal_eq_none_iff.mp (h .arguments (by decide))
    exact {
      clientOpen := by simpa [SubmissionCheck.verdict] using h .clientOpen (by decide)
      namesGiven := by simpa [SubmissionCheck.verdict] using h .namesGiven (by decide)
      namesFit := by simpa [SubmissionCheck.verdict] using h .namesFit (by decide)
      arguments := ⟨items, args, hitems, hargs⟩
      policy := (policy_iff c s r).mp (h .policy (by decide))
      options := (options_iff c s r).mp (h .options (by decide))
      storeUnarmed := by simpa [SubmissionCheck.verdict] using h .storeUnarmed (by decide) }

/-- Arguments that are converted are converted one by one. -/
theorem convertFrom_eq_ok {limits : Limits} {index : Nat} {items : List Json}
    {args : List Value} (h : convertFrom limits index items = .ok args) :
    items.map (convertValue limits 1) = args.map .ok := by
  induction items generalizing index args with
  | nil =>
    obtain rfl := Except.ok.inj h
    rfl
  | cons item rest ih =>
    unfold convertFrom at h
    cases hitem : convertValue limits 1 item with
    | error e =>
      rw [hitem] at h
      cases h
    | ok v =>
      rw [hitem] at h
      obtain ⟨vs, hrest, rfl⟩ := map_eq_ok_iff.mp h
      rw [List.map_cons, List.map_cons, hitem, ih hrest]

theorem convertArguments_eq_ok {limits : Limits} {raw : Json} {args : List Value}
    (h : convertArguments limits raw = .ok args) :
    ∃ items, raw = .array items ∧ items.map (convertValue limits 1) = args.map .ok := by
  rcases raw with _ | _ | _ | _ | items | _
  case array =>
    refine ⟨items, rfl, ?_⟩
    unfold convertArguments at h
    simp only [Json.items?] at h
    split at h
    · cases h
    · exact convertFrom_eq_ok h
  all_goals cases h

end SubmissionLemmas

open OverrideLemmas SubmissionLemmas

/-! ## 2. The record -/

/-- Whether a record holds what a request asks for at a client with these settings. -/
structure Recorded (settings : Settings) (r : ScanRequest) (record : Submission) : Prop where
  names : record.space = r.space ∧ record.set = r.set ∧
    record.moduleName = r.moduleName ∧ record.functionName = r.functionName
  /-- The arguments one by one, in their order. -/
  args : convertArguments settings.limits r.args = .ok record.args ∧
    ∃ items, r.args = .array items ∧
      items.map (convertValue settings.limits 1) = record.args.map .ok
  policyGiven : record.policy.isSome = r.policy.isSome
  /-- The baseline with what is given put on it. -/
  policy : ∀ p, record.policy = some p →
    InEffect r.policy "timeout" (fun value t => value.IsInteger t.toNat)
        settings.scanPolicy.timeoutMs p.timeoutMs ∧
      InEffect r.policy "fail_on_cluster_change" (fun value b => value = .bool b)
        settings.scanPolicy.failOnClusterChange p.failOnClusterChange
  percent : InEffect r.options "percent" (fun value n => value.IsInteger n.toNat)
    100 record.percent
  priority : InEffect r.options "priority" (fun value p => value.IsInteger p.code)
    .auto record.priority
  concurrent : InEffect r.options "concurrent" (fun value b => value = .bool b)
    false record.concurrent
  noBins : InEffect r.options "nobins" (fun value b => value = .bool b) false record.noBins

/-- The job that a client prepares has a function, and its record holds what the
request asks for. -/
theorem recorded_of_prepared {c : Client} {r : ScanRequest} {job : Job}
    (h : c.preparedJob r = .ok job) (id : JobId) :
    ∃ udf, job.udf = some udf ∧ Recorded c.settings r (Store.record id job.policy job udf) := by
  obtain ⟨policy, options, args, hpolicy, hoptions, hargs, rfl⟩ := preparedJob_eq_ok h
  obtain ⟨items, hitems, hone⟩ := convertArguments_eq_ok hargs
  obtain ⟨hpercent, hpriority, hconcurrent, hnoBins⟩ :=
    options_inEffect hoptions { Job.new r.space r.set with policy }
  refine ⟨⟨r.moduleName, r.functionName, args⟩, rfl, ?_⟩
  exact {
    names := ⟨rfl, rfl, rfl, rfl⟩
    args := ⟨hargs, items, hitems, hone⟩
    policyGiven := isSome_of_resolve hpolicy
    policy := by
      rintro p rfl
      exact policy_inEffect hpolicy
    percent := hpercent
    priority := hpriority
    concurrent := hconcurrent
    noBins := hnoBins }

/-! ## 3. The whole submission -/

/-- A request is accepted exactly when it is acceptable. It then has the next id of the
store, and nothing happens to the store but that the call and the id are counted, the
job is known as one that begins, and the log has at its end one record more, which holds
what the request asks for. -/
theorem submits_what_was_asked (c : Client) (s : Store) (r : ScanRequest) :
    ((∃ id, (c.scanApply s r).outcome = .ok (.ok id)) ↔ Acceptable c s r) ∧
      ∀ id, (c.scanApply s r).outcome = .ok (.ok id) →
        ∃ record, record.jobId = id ∧ Recorded c.settings r record ∧
          id = s.nextJobId ∧
          (c.scanApply s r).store = { s with
            submitCalls := s.submitCalls + 1
            nextJobId := s.nextJobId + 1
            jobs := s.jobs.insert id ⟨0, 0, 1⟩
            submissions := s.submissions ++ [record] } := by
  have hends := scanApply_endsBy c s r
  have haccepted : (∃ id, (c.scanApply s r).outcome = .ok (.ok id)) ↔ Acceptable c s r := by
    rw [acceptable_iff]
    cases hfirst : SubmissionCheck.order.findSome? (SubmissionCheck.verdict c s r) with
    | some f =>
      rw [hfirst] at hends
      refine ⟨?_, nofun⟩
      rintro ⟨id, hid⟩
      cases hends.symm.trans hid
    | none =>
      rw [hfirst] at hends
      exact ⟨fun _ => rfl, fun _ => hends⟩
  refine ⟨haccepted, ?_⟩
  intro id hid
  have hunarmed := (haccepted.mp ⟨id, hid⟩).storeUnarmed
  obtain ⟨houtcome, hstore⟩ := scanApply_seen c s r
  rw [houtcome] at hid
  rw [hstore]
  cases hjob : c.preparedJob r with
  | error f =>
    rw [hjob] at hid
    cases hid
  | ok job =>
    obtain ⟨udf, hudf, hrecorded⟩ := recorded_of_prepared hjob s.nextJobId
    have hsubmit := Store.submit_accepted hunarmed job.policy hudf
    rw [hjob, dispatch, Store.askToSubmit, hsubmit] at hid
    obtain rfl : s.nextJobId = id := Except.ok.inj (Except.ok.inj hid)
    refine ⟨Store.record s.nextJobId job.policy job udf, rfl, hrecorded, rfl, ?_⟩
    rw [dispatch, Store.askToSubmit, hsubmit]
    rfl

/-- A request that overrides a part of the baseline and of the options. -/
theorem submits_what_was_asked_overridden :
    let c : Client := .new { Settings.standard with scanPolicy := ⟨5, true⟩, maxArgDepth := 1 }
    let s := (Store.new 41 0).insertJob 3 ⟨7, 9, 3⟩
    let r : ScanRequest :=
      ⟨"test", "demo", "geo", "move", .array [.null, .array [.bool true]],
        some (.object [("timeout", .number (.integer 250 (by decide)))]),
        some (.object [("priority", .number (.integer 3 (by decide))), ("nobins", .bool true)])⟩
    (c.scanApply s r).outcome = .ok (.ok 41) ∧
      ∃ record, record.jobId = 41 ∧ Recorded c.settings r record ∧
        (c.scanApply s r).store.submissions = [record] := by
  intro c s r
  have hid : (c.scanApply s r).outcome = .ok (.ok 41) := by rfl
  obtain ⟨-, hrecorded⟩ := submits_what_was_asked c s r
  obtain ⟨record, hjob, hrecord, -, hstore⟩ := hrecorded 41 hid
  exact ⟨hid, record, hjob, hrecord, by rw [hstore]; rfl⟩

end BackgroundScan
