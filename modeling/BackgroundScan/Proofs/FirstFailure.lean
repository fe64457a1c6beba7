import BackgroundScan.Proofs.Calls

/-!
# The first failure is the one reported

A call makes its checks in a fixed order, in different places: at the client, in
the readers of what the caller gave, at the job, and at the store. This module
lists the checks of either call with the failure that each of them finds by
itself (`verdict`), and shows that the caller always gets the report of the first
check of the list that finds one.

1. `SubmissionCheck` and `StatusCheck`: the checks, their order and verdicts.
   The messages are written out here and not taken from the call.
2. `preparedJob_checked` and `preparedQuery_checked`: the checks that a client
   makes before it asks the store.
3. `reports_first_failure`: both calls end by their first failure; and calls that
   agree on what the first `k` checks look at, of which one fails, get the same
   report whatever else they are about.
-/

namespace BackgroundScan

/-! ## 1. Checks and verdicts -/

/-- The failure of a reader, if it refuses. -/
def refusal {ε α : Type} (failure : ε → Failure) : Except ε α → Option Failure
  | .error e => some (failure e)
  | .ok _ => none

/-- What is checked when a request is submitted. -/
inductive SubmissionCheck
  | clientOpen
  | namesGiven
  | argumentsAreList
  | policy
  | options
  | arguments
  | namesFit
  | storeUnarmed
  deriving DecidableEq, Repr

namespace SubmissionCheck

/-- The checks of the client. -/
def ofClient : List SubmissionCheck :=
  [clientOpen, namesGiven, argumentsAreList, policy, options, arguments, namesFit]

/-- All checks in their order. -/
def order : List SubmissionCheck := ofClient ++ [storeUnarmed]

/-- The failure that a check finds by itself, whatever the other checks find. -/
def verdict (c : Client) (s : Store) (r : ScanRequest) : SubmissionCheck → Option Failure
  | clientOpen => if c.isOpen then none else some ⟨.invalidParam, "invalid client object"⟩
  | namesGiven =>
    if r.space = "" ∨ r.set = "" ∨ r.moduleName = "" ∨ r.functionName = "" then
      some ⟨.invalidParam, "parameter should not be null"⟩
    else none
  | argumentsAreList =>
    match r.args with
    | .array _ => none
    | _ => some ⟨.invalidParam, "arguments should be a list"⟩
  | policy =>
    match r.policy with
    | none => none
    | some raw => refusal PolicyError.failure (Policy.validate ScanPolicy raw)
  | options =>
    match r.options with
    | none => none
    | some raw => refusal OptionsError.failure (ScanOptions.parse raw)
  | arguments =>
    refusal ConversionError.failure
      (convertArguments ⟨c.settings.maxArgDepth, c.settings.maxArgs⟩ r.args)
  | namesFit =>
    if r.moduleName.utf8ByteSize ≤ 63 ∧ r.functionName.utf8ByteSize ≤ 63 then none
    else some ⟨.invalidParam, "unable to apply UDF on the scan"⟩
  | storeUnarmed => s.submitFailure.map StoreError.failure

/-- Whether two submissions agree on what a check looks at. -/
def SameInput (c c' : Client) (s s' : Store) (r r' : ScanRequest) : SubmissionCheck → Prop
  | clientOpen => c.isOpen = c'.isOpen
  | namesGiven => r.names = r'.names
  | argumentsAreList => r.args = r'.args
  | policy => r.policy = r'.policy
  | options => r.options = r'.options
  | arguments =>
    r.args = r'.args ∧ c.settings.maxArgDepth = c'.settings.maxArgDepth ∧
      c.settings.maxArgs = c'.settings.maxArgs
  | namesFit => r.moduleName = r'.moduleName ∧ r.functionName = r'.functionName
  | storeUnarmed => s.submitFailure = s'.submitFailure

end SubmissionCheck

/-- What is checked when a status is asked for. -/
inductive StatusCheck
  | clientOpen
  | policy
  | storeUnarmed
  | jobKnown
  | codeFits
  deriving DecidableEq, Repr

namespace StatusCheck

/-- The checks of the client. -/
def ofClient : List StatusCheck := [clientOpen, policy]

/-- All checks in their order. -/
def order : List StatusCheck := ofClient ++ [storeUnarmed, jobKnown, codeFits]

/-- The failure that a check finds by itself, whatever the other checks find. -/
def verdict (c : Client) (s : Store) (id : JobId) (given : Option Json) :
    StatusCheck → Option Failure
  | clientOpen => if c.isOpen then none else some ⟨.invalidParam, "invalid client object"⟩
  | policy =>
    match given with
    | none => none
    | some raw => refusal PolicyError.failure (Policy.validate InfoPolicy raw)
  | storeUnarmed => s.statusFailure.map StoreError.failure
  | jobKnown =>
    match s.jobs.find? id with
    | none => some ⟨.store 2, "job " ++ toString id.toNat ++ " not found"⟩
    | some _ => none
  | codeFits =>
    match s.jobs.find? id with
    | none => none
    | some info =>
      if -0x8000000000000000 ≤ info.status.toInt + s.statusOffset.toInt ∧
          info.status.toInt + s.statusOffset.toInt < 0x8000000000000000 then none
      else some ⟨.protocol, "raw status " ++ toString info.status.toInt
        ++ " out of range for base offset " ++ toString s.statusOffset.toInt⟩

/-- Whether two status queries agree on what a check looks at. -/
def SameInput (c c' : Client) (s s' : Store) (id id' : JobId) (given given' : Option Json) :
    StatusCheck → Prop
  | clientOpen => c.isOpen = c'.isOpen
  | policy => given = given'
  | storeUnarmed => s.statusFailure = s'.statusFailure
  | jobKnown => id = id' ∧ (s.jobs.find? id).isSome = (s'.jobs.find? id').isSome
  | codeFits => s.jobs.find? id = s'.jobs.find? id' ∧ s.statusOffset = s'.statusOffset

end StatusCheck

/-- A call that fails with the kind and the message of `first`, or has a value if that
is none. -/
def EndsBy {α : Type} (first : Option Failure) (outcome : Except Fault (Except Report α)) : Prop :=
  match first with
  | some f => outcome = .ok (.error ⟨f.kind, f.kind.resultCode, f.message⟩)
  | none => ∃ value, outcome = .ok (.ok value)

namespace FirstFailureLemmas

/-- Checks that agree on a prefix of the order, one of which fails there, have
the same first failure. -/
theorem findSome?_of_take {κ : Type} {order : List κ} {k : Nat} {v v' : κ → Option Failure}
    {f : Failure} (hagree : ∀ check ∈ order.take k, v check = v' check)
    (hfails : (order.take k).findSome? v = some f) :
    order.findSome? v = some f ∧ order.findSome? v' = some f := by
  have hsame : (order.take k).findSome? v' = some f := by
    rw [← hfails]
    -- only the prefix matters here, and it may be any list
    generalize order.take k = checks at hagree
    induction checks with
    | nil => rfl
    | cons check rest ih =>
      have hrest := ih fun other hm => hagree other (List.mem_cons_of_mem _ hm)
      rw [List.findSome?_cons, List.findSome?_cons, ← hagree check List.mem_cons_self, hrest]
  have hsplit (w : κ → Option Failure) (h : (order.take k).findSome? w = some f) :
      order.findSome? w = some f := by
    rw [← List.take_append_drop k order, List.findSome?_append, h]
    rfl
  exact ⟨hsplit v hfails, hsplit v' hsame⟩

theorem submission_verdict_congr {c c' : Client} {s s' : Store} {r r' : ScanRequest}
    {check : SubmissionCheck} (h : check.SameInput c c' s s' r r') :
    check.verdict c s r = check.verdict c' s' r' := by
  cases check with
  | clientOpen => rw [SubmissionCheck.verdict, SubmissionCheck.verdict, h]
  | namesGiven =>
    obtain ⟨hspace, hset, hmodule, hfunction, -⟩ : r.space = r'.space ∧ r.set = r'.set ∧
        r.moduleName = r'.moduleName ∧ r.functionName = r'.functionName ∧ True := by
      simpa [SubmissionCheck.SameInput, ScanRequest.names] using h
    rw [SubmissionCheck.verdict, SubmissionCheck.verdict, hspace, hset, hmodule, hfunction]
  | argumentsAreList => rw [SubmissionCheck.verdict, SubmissionCheck.verdict, h]
  | policy => rw [SubmissionCheck.verdict, SubmissionCheck.verdict, h]
  | options => rw [SubmissionCheck.verdict, SubmissionCheck.verdict, h]
  | arguments =>
    rw [SubmissionCheck.verdict, SubmissionCheck.verdict, h.1, h.2.1, h.2.2]
  | namesFit => rw [SubmissionCheck.verdict, SubmissionCheck.verdict, h.1, h.2]
  | storeUnarmed => rw [SubmissionCheck.verdict, SubmissionCheck.verdict, h]

theorem status_verdict_congr {c c' : Client} {s s' : Store} {id id' : JobId}
    {given given' : Option Json} {check : StatusCheck}
    (h : check.SameInput c c' s s' id id' given given') :
    check.verdict c s id given = check.verdict c' s' id' given' := by
  cases check with
  | clientOpen => rw [StatusCheck.verdict, StatusCheck.verdict, h]
  | policy =>
    obtain rfl : given = given' := h
    rfl
  | storeUnarmed => rw [StatusCheck.verdict, StatusCheck.verdict, h]
  | jobKnown =>
    obtain ⟨rfl, hknown⟩ := h
    unfold StatusCheck.verdict
    cases hf : s.jobs.find? id <;> cases hf' : s'.jobs.find? id <;> simp_all
  | codeFits => rw [StatusCheck.verdict, StatusCheck.verdict, h.1, h.2]

open SubmissionCheck in
/-- The first three checks are those made before any work is done. -/
theorem findSome?_check (c : Client) (s : Store) (r : ScanRequest) :
    [clientOpen, namesGiven, argumentsAreList].findSome? (verdict c s r) =
      refusal RequestError.failure (r.check c.isOpen) := by
  have hnames : (r.names.any (· == "") = true) ↔
      r.space = "" ∨ r.set = "" ∨ r.moduleName = "" ∨ r.functionName = "" := by
    simp [ScanRequest.names]
  unfold ScanRequest.check ScanRequest.checkNames
  simp only [List.findSome?_cons, List.findSome?_nil, SubmissionCheck.verdict]
  cases c.isOpen with
  | false => rfl
  | true =>
    by_cases hempty : r.space = "" ∨ r.set = "" ∨ r.moduleName = "" ∨ r.functionName = ""
    · rw [if_pos hempty, if_pos (hnames.mpr hempty)]
      rfl
    · rw [if_neg hempty, if_neg (mt hnames.mp hempty)]
      cases r.args <;> rfl

theorem verdict_policy (c : Client) (s : Store) (r : ScanRequest) (baseline : ScanPolicy) :
    SubmissionCheck.verdict c s r .policy =
      refusal PolicyError.failure (Policy.resolve baseline r.policy) := by
  unfold SubmissionCheck.verdict Policy.resolve
  cases r.policy with
  | none => rfl
  | some raw => dsimp only; cases Policy.validate ScanPolicy raw <;> rfl

theorem verdict_options (c : Client) (s : Store) (r : ScanRequest) :
    SubmissionCheck.verdict c s r .options = refusal OptionsError.failure r.givenOptions := by
  unfold SubmissionCheck.verdict ScanRequest.givenOptions
  cases r.options <;> rfl

theorem names_of_check {r : ScanRequest} {isOpen : Bool} (h : r.check isOpen = .ok ()) :
    "" ∉ r.names := by
  unfold ScanRequest.check at h
  split at h
  · exact (r.checkNames_eq_ok_iff.mp h).1
  · cases h

/-- Names that are given fit exactly when they are not too long. -/
theorem verdict_namesFit (c : Client) (s : Store) {r : ScanRequest} (h : "" ∉ r.names) :
    SubmissionCheck.verdict c s r .namesFit =
      if nameFits r.moduleName && nameFits r.functionName then none
      else some RequestError.functionNotAttached.failure := by
  have hgiven : r.moduleName ≠ "" ∧ r.functionName ≠ "" := by
    simp only [ScanRequest.names, List.mem_cons, not_or] at h
    exact ⟨Ne.symm h.2.2.1, Ne.symm h.2.2.2.1⟩
  have hfits : (nameFits r.moduleName && nameFits r.functionName) = true ↔
      r.moduleName.utf8ByteSize ≤ 63 ∧ r.functionName.utf8ByteSize ≤ 63 := by
    simp only [nameFits, hgiven, bne_iff_ne, ne_eq, not_false_eq_true, Bool.and_eq_true,
      decide_eq_true_eq, true_and]
    rfl
  unfold SubmissionCheck.verdict
  by_cases hle : r.moduleName.utf8ByteSize ≤ 63 ∧ r.functionName.utf8ByteSize ≤ 63
  · rw [if_pos hle, if_pos (hfits.mpr hle)]
  · rw [if_neg hle, if_neg (mt hfits.mp hle)]
    rfl

end FirstFailureLemmas

open FirstFailureLemmas

/-! ## 2. The checks of the client -/

open SubmissionCheck in
/-- The client fails by the first of its own checks that fails, and otherwise has
a job with a function. -/
theorem preparedJob_checked (c : Client) (s : Store) (r : ScanRequest) :
    match ofClient.findSome? (verdict c s r) with
    | some f => c.preparedJob r = .error f
    | none => ∃ job udf, c.preparedJob r = .ok job ∧ job.udf = some udf := by
  have hsplit : ofClient.findSome? (verdict c s r) =
      (refusal RequestError.failure (r.check c.isOpen)).or
        ([policy, options, arguments, namesFit].findSome? (verdict c s r)) := by
    rw [← findSome?_check c s r, ← List.findSome?_append]
    rfl
  rw [hsplit]
  unfold Client.preparedJob ScanRequest.buildEnd
  cases hcheck : r.check c.isOpen with
  | error e => rfl
  | ok _ =>
    -- the job refuses empty names too, but here there are none left
    have hnames := names_of_check hcheck
    simp only [refusal, Option.none_or, List.findSome?_cons, List.findSome?_nil,
      verdict_policy c s r c.settings.scanPolicy, verdict_options, verdict_namesFit c s hnames]
    cases Policy.resolve c.settings.scanPolicy r.policy with
    | error e => rfl
    | ok policy =>
      cases r.givenOptions with
      | error e => rfl
      | ok options =>
        simp only [refusal, SubmissionCheck.verdict, Settings.limits]
        cases convertArguments ⟨c.settings.maxArgDepth, c.settings.maxArgs⟩ r.args with
        | error e => rfl
        | ok args =>
          dsimp only
          cases nameFits r.moduleName && nameFits r.functionName with
          | false => rfl
          | true => exact ⟨_, _, rfl, rfl⟩

/-- The same for a status query, for which the client has no more than a policy to
prepare. -/
theorem preparedQuery_checked (c : Client) (s : Store) (id : JobId) (given : Option Json) :
    match StatusCheck.ofClient.findSome? (StatusCheck.verdict c s id given) with
    | some f => c.preparedQuery given = .error f
    | none => ∃ policy, c.preparedQuery given = .ok policy := by
  unfold Client.preparedQuery StatusCheck.ofClient
  simp only [List.findSome?_cons, List.findSome?_nil, StatusCheck.verdict]
  cases c.isOpen with
  | false => rfl
  | true =>
    cases given with
    | none => exact ⟨none, rfl⟩
    | some raw =>
      simp only [Policy.resolve]
      cases Policy.validate InfoPolicy raw with
      | error e => rfl
      | ok overrides => exact ⟨_, rfl⟩

/-! ## 3. The whole call -/

/-- A submission ends by its first failure. -/
theorem scanApply_endsBy (c : Client) (s : Store) (r : ScanRequest) :
    EndsBy (SubmissionCheck.order.findSome? (SubmissionCheck.verdict c s r))
      (c.scanApply s r).outcome := by
  have hclient := preparedJob_checked c s r
  rw [(scanApply_seen c s r).1, SubmissionCheck.order, List.findSome?_append]
  cases hfirst : SubmissionCheck.ofClient.findSome? (SubmissionCheck.verdict c s r) with
  | some f =>
    rw [hfirst] at hclient
    rw [hclient]
    rfl
  | none =>
    rw [hfirst] at hclient
    obtain ⟨job, udf, hjob, hudf⟩ := hclient
    rw [hjob, Option.none_or, List.findSome?_singleton, SubmissionCheck.verdict]
    simp only [dispatch, Store.askToSubmit]
    cases harmed : s.submitFailure with
    | some e =>
      rw [Store.submit_of_armed harmed]
      rfl
    | none =>
      rw [Store.submit_accepted harmed _ hudf]
      exact ⟨_, rfl⟩

/-- A status query ends by its first failure. -/
theorem scanInfo_endsBy (c : Client) (s : Store) (id : JobId) (given : Option Json) :
    EndsBy (StatusCheck.order.findSome? (StatusCheck.verdict c s id given))
      (c.scanInfo s id given).outcome := by
  have hclient := preparedQuery_checked c s id given
  rw [(scanInfo_seen c s id given).1, StatusCheck.order, List.findSome?_append]
  cases hfirst : StatusCheck.ofClient.findSome? (StatusCheck.verdict c s id given) with
  | some f =>
    rw [hfirst] at hclient
    rw [hclient]
    rfl
  | none =>
    rw [hfirst] at hclient
    obtain ⟨policy, hpolicy⟩ := hclient
    rw [hpolicy, Option.none_or]
    simp only [dispatch, Store.askForStatus, List.findSome?_cons, List.findSome?_nil,
      StatusCheck.verdict]
    cases harmed : s.statusFailure with
    | some e =>
      rw [Store.query_of_armed harmed]
      rfl
    | none =>
      cases hfind : s.jobs.find? id with
      | none =>
        rw [Store.query_of_unknown harmed _ hfind]
        rfl
      | some info =>
        rw [Store.query_of_known harmed _ hfind]
        simp only [Snapshot.ofInfo, signedWord?]
        by_cases hfits : -0x8000000000000000 ≤ info.status.toInt + s.statusOffset.toInt ∧
            info.status.toInt + s.statusOffset.toInt < 0x8000000000000000
        · rw [if_pos hfits, if_pos hfits]
          exact ⟨_, rfl⟩
        · rw [if_neg hfits, if_neg hfits]
          rfl

/-- A call always ends by the first of its checks that fails, each of which is
evaluated by itself. So of two calls that agree on what the first `k` checks look
at, and of which one fails there, both get the same report. -/
theorem reports_first_failure (c c' : Client) (s s' : Store) (r r' : ScanRequest)
    (id id' : JobId) (given given' : Option Json) :
    EndsBy (SubmissionCheck.order.findSome? (SubmissionCheck.verdict c s r))
        (c.scanApply s r).outcome ∧
      EndsBy (StatusCheck.order.findSome? (StatusCheck.verdict c s id given))
        (c.scanInfo s id given).outcome ∧
      (∀ k f, (∀ check ∈ SubmissionCheck.order.take k, check.SameInput c c' s s' r r') →
        (SubmissionCheck.order.take k).findSome? (SubmissionCheck.verdict c s r) = some f →
        (c.scanApply s r).outcome = .ok (.error ⟨f.kind, f.kind.resultCode, f.message⟩) ∧
          (c'.scanApply s' r').outcome = (c.scanApply s r).outcome) ∧
      (∀ k f, (∀ check ∈ StatusCheck.order.take k,
          check.SameInput c c' s s' id id' given given') →
        (StatusCheck.order.take k).findSome? (StatusCheck.verdict c s id given) = some f →
        (c.scanInfo s id given).outcome = .ok (.error ⟨f.kind, f.kind.resultCode, f.message⟩) ∧
          (c'.scanInfo s' id' given').outcome = (c.scanInfo s id given).outcome) := by
  refine ⟨scanApply_endsBy c s r, scanInfo_endsBy c s id given, ?_, ?_⟩
  · intro k f hsame hfails
    obtain ⟨hfirst, hfirst'⟩ := findSome?_of_take
      (fun check hm => submission_verdict_congr (hsame check hm)) hfails
    have hends := scanApply_endsBy c s r
    have hends' := scanApply_endsBy c' s' r'
    rw [hfirst] at hends
    rw [hfirst'] at hends'
    exact ⟨hends, hends'.trans hends.symm⟩
  · intro k f hsame hfails
    obtain ⟨hfirst, hfirst'⟩ := findSome?_of_take
      (fun check hm => status_verdict_congr (hsame check hm)) hfails
    have hends := scanInfo_endsBy c s id given
    have hends' := scanInfo_endsBy c' s' id' given'
    rw [hfirst] at hends
    rw [hfirst'] at hends'
    exact ⟨hends, hends'.trans hends.symm⟩

/-- The empty set is reported whatever is wrong with arguments, policy, options and
store; and so is a status code that the offset moves out of range, whatever else the
stores hold. -/
theorem reports_first_failure_empty_set :
    let c : Client := .new .standard
    let armed : Store := Store.standard.failNextSubmit (.timeout "late")
    let r : ScanRequest := ⟨"ns", "", "m", "f", .null, some .null, none⟩
    let r' : ScanRequest := ⟨"ns", "", "m", "f", .array [], none, some (.bool true)⟩
    let s := (Store.new 1 0x7fffffffffffffff).insertJob 7 ⟨0, 0, 1⟩
    (c.scanApply armed r).outcome =
        .ok (.error ⟨.invalidParam, -2, "parameter should not be null"⟩) ∧
      (c.scanApply s r').outcome = (c.scanApply armed r).outcome ∧
      (c.scanInfo s 7 none).outcome =
        .ok (.error ⟨.protocol, 4,
          "raw status 1 out of range for base offset 9223372036854775807"⟩) ∧
      (c.scanInfo (s.insertJob 8 ⟨0, 0, 0⟩) 7 none).outcome = (c.scanInfo s 7 none).outcome := by
  intro c armed r r' s
  obtain ⟨-, -, hsubmit, -⟩ := reports_first_failure c c armed s r r' 7 7 none none
  obtain ⟨-, -, -, hstatus⟩ :=
    reports_first_failure c c s (s.insertJob 8 ⟨0, 0, 0⟩) r r' 7 7 none none
  obtain ⟨hfirst, hsame⟩ := hsubmit 2 ⟨.invalidParam, "parameter should not be null"⟩
    (List.forall_mem_cons.mpr ⟨rfl, List.forall_mem_singleton.mpr rfl⟩) rfl
  obtain ⟨hfirst', hsame'⟩ := hstatus 5 ⟨.protocol,
    "raw status 1 out of range for base offset 9223372036854775807"⟩
    (by
      intro check _
      cases check with
      | clientOpen | policy | storeUnarmed => rfl
      | jobKnown | codeFits => exact ⟨rfl, rfl⟩)
    (by decide +kernel)
  exact ⟨hfirst, hsame, hfirst', hsame'⟩

end BackgroundScan
