import BackgroundScan.Client.Basic

/-!
# What a call comes to

A call of a client has two parts. The client prepares the request by itself, and
if nothing is refused it asks the store, once. Neither part looks at the journal
or at the stage of the call, so both can be said without them.

1. `BuildEnd` says how far the build of a request gets. `build_eq`: outcome,
   stage and journal of a build are those of its end.
2. `endCall_outcome`: a call that is in its work stage, or fails while it
   validates, ends in no fault.
3. `scanApply_seen` and `scanInfo_seen`: what the caller and the store see of a
   call is `dispatch`, the prepared request handed to the store.
-/

namespace BackgroundScan

/-! ## 1. How far a build gets -/

/-- The options that a request gives, which are none where it has no options. -/
def ScanRequest.givenOptions (r : ScanRequest) : Except OptionsError ScanOptions :=
  match r.options with
  | none => .ok ⟨none, none, none, none⟩
  | some raw => ScanOptions.parse raw

/-- The job with the options that are given. -/
def Job.withOptions (job : Job) (o : ScanOptions) : Job :=
  { job with
    percent := o.percent.getD job.percent
    priority := o.priority.getD job.priority
    concurrent := o.concurrent.getD job.concurrent
    noBins := o.noBins.getD job.noBins }

/-- Where the build of a request ends. -/
inductive BuildEnd
  /-- The client or the request is refused before any work is done. -/
  | refused (e : RequestError)
  | policyRefused (e : PolicyError)
  | optionsRefused (e : OptionsError)
  | argumentsRefused (e : ConversionError)
  /-- The arguments are converted and the job does not take the function. -/
  | notAttached
  | built (job : Job)

namespace BuildEnd

/-- The job, or the failure of the step that was refused. -/
def outcome : BuildEnd → Except Failure Job
  | refused e => .error e.failure
  | policyRefused e => .error e.failure
  | optionsRefused e => .error e.failure
  | argumentsRefused e => .error e.failure
  | notAttached => .error RequestError.functionNotAttached.failure
  | built job => .ok job

/-- The stage in which the build leaves its call. -/
def stage : BuildEnd → Stage
  | refused _ => .validating
  | _ => .building

/-- The journal when the work on the job begins. -/
def opened (j : Journal) : Journal := (j.note (.moved .scanApply .validating .building)).openJob

/-- The journal when a job without a function is given up. -/
def dropped (j : Journal) : Journal := (j.note (.abandoned true false)).release .descriptor

/-- The journal that the build leaves. -/
def leave (b : BuildEnd) (j : Journal) : Journal :=
  match b with
  | refused _ => j
  | policyRefused e => dropped ((opened j).noteIfAny e.event)
  | optionsRefused e => dropped ((opened j).noteIfAny e.event)
  | argumentsRefused _ => dropped (opened j)
  | notAttached =>
    ((((opened j).acquire .argList).note (.abandoned true true)).release .descriptor).release
      .argList
  | built _ => (opened j).acquire .argList

end BuildEnd

/-- How far the build of a request gets at a client with the given settings. -/
def ScanRequest.buildEnd (r : ScanRequest) (settings : Settings) (isOpen : Bool) : BuildEnd :=
  match r.check isOpen with
  | .error e => .refused e
  | .ok () =>
    match Policy.resolve settings.scanPolicy r.policy with
    | .error e => .policyRefused e
    | .ok policy =>
      match r.givenOptions with
      | .error e => .optionsRefused e
      | .ok options =>
        match convertArguments settings.limits r.args with
        | .error e => .argumentsRefused e
        | .ok args =>
          if nameFits r.moduleName && nameFits r.functionName then
            .built { Job.withOptions { Job.new r.space r.set with policy } options with
              udf := some ⟨r.moduleName, r.functionName, args⟩ }
          else .notAttached

namespace CallLemmas

/-- Options with a percentage in range never make a job fault. -/
theorem apply_of_le {o : ScanOptions} (h : ∀ percent, o.percent = some percent → percent ≤ 100)
    (job : Job) : job.apply o = .ok (job.withOptions o) := by
  cases hp : o.percent with
  | none => simp [Job.apply, Job.withOptions, hp]
  | some percent =>
    have hle : ¬ 100 < percent := UInt8.not_lt.mpr (h percent hp)
    simp [Job.apply, Job.withOptions, Job.setPercent?, hp, hle]

theorem apply_of_parse {raw : Json} {o : ScanOptions} (h : ScanOptions.parse raw = .ok o)
    (job : Job) : job.apply o = .ok (job.withOptions o) :=
  apply_of_le (fun _ => ScanOptions.percent_le_of_parse h) job

theorem applyOptions_eq (r : ScanRequest) (job : Job) (j : Journal) :
    r.applyOptions job j =
      match r.givenOptions with
      | .error e => (.error (.failure e.failure), j.noteIfAny e.event)
      | .ok options => (.ok (job.withOptions options), j) := by
  unfold ScanRequest.applyOptions ScanRequest.givenOptions
  cases r.options with
  | none => rfl
  | some raw =>
    simp only [Job.applyOptions]
    cases h : ScanOptions.parse raw with
    | error e => rfl
    | ok o =>
      simp only [apply_of_parse h]
      rfl

theorem attach?_eq (job : Job) (udf : Udf) (h : job.udf = none) :
    job.attach? udf =
      if nameFits udf.moduleName && nameFits udf.functionName then
        some { job with udf := some udf }
      else none := by
  unfold Job.attach?
  cases nameFits udf.moduleName <;> cases nameFits udf.functionName <;> simp [h]

end CallLemmas

open CallLemmas

/-- A build leaves the outcome, the stage and the journal of its end. -/
theorem build_eq (r : ScanRequest) (settings : Settings) (isOpen : Bool) (j : Journal) :
    r.build settings isOpen ⟨.scanApply, .validating⟩ j =
      ⟨(r.buildEnd settings isOpen).outcome.mapError .failure,
        ⟨.scanApply, (r.buildEnd settings isOpen).stage⟩,
        (r.buildEnd settings isOpen).leave j⟩ := by
  unfold ScanRequest.build ScanRequest.buildEnd
  cases r.check isOpen with
  | error e => rfl
  | ok _ =>
    -- a call that validates may always begin its work, so this is no further case
    have hbegin : (⟨.scanApply, .validating⟩ : Call).beginWork j =
        .ok (⟨.scanApply, .building⟩, j.note (.moved .scanApply .validating .building)) := rfl
    simp only [hbegin, ScanRequest.assemble, applyOptions_eq]
    cases Policy.resolve settings.scanPolicy r.policy with
    | error e => rfl
    | ok policy =>
      cases r.givenOptions with
      | error e => rfl
      | ok options =>
        simp only [Journal.convert]
        cases convertArguments settings.limits r.args with
        | error e => rfl
        | ok args =>
          simp only
          rw [attach?_eq _ _ rfl]
          simp only
          cases nameFits r.moduleName && nameFits r.functionName <;> rfl

/-! ## 2. The end of a call -/

theorem endCall_store {α : Type} (c : Client) (s : Store) (call : Call) (j : Journal)
    (outcome : Except Stop α) : (c.endCall s call j outcome).store = s := by
  rcases outcome with (f | f) | value <;> rfl

theorem enter_of_canAdvanceTo {call : Call} {target : Stage}
    (h : call.stage.canAdvanceTo target = true) (j : Journal) :
    call.enter target j =
      .ok (⟨call.operation, target⟩, j.note (.moved call.operation call.stage target)) := by
  rw [Call.enter, if_pos h]

/-- A call that may still fail ends with the report of its failure. -/
theorem endCall_failed {α : Type} (c : Client) (s : Store) {call : Call} (j : Journal)
    (f : Failure) (h : call.stage.canAdvanceTo .failed = true) :
    (c.endCall s call j (.error (.failure f)) : Ended α).outcome = .ok (.error f.report) := by
  show (call.finish (.error f) j).1 = _
  unfold Call.finish Call.enterAll
  simp only [enter_of_canAdvanceTo h]
  rfl

/-- A call in its work stage ends with its outcome, reported if it is a failure. -/
theorem endCall_outcome {α : Type} (c : Client) (s : Store) (operation : Operation) (j : Journal)
    (outcome : Except Failure α) :
    (c.endCall s ⟨operation, operation.workStage⟩ j (outcome.mapError .failure)).outcome =
      .ok (outcome.mapError Failure.report) := by
  cases outcome with
  | error f => exact endCall_failed c s j f (by cases operation <;> rfl)
  | ok value => cases operation <;> rfl

/-! ## 3. What the caller and the store see -/

/-- Hands what was prepared to the store, or reports why nothing was. -/
def dispatch {α β : Type} (s : Store) (prepared : Except Failure α)
    (ask : α → Except Failure β × Store) : Except Report β × Store :=
  match prepared with
  | .error f => (.error f.report, s)
  | .ok a => ((ask a).1.mapError Failure.report, (ask a).2)

/-- The job of a request, or why the client does not get as far. -/
def Client.preparedJob (c : Client) (r : ScanRequest) : Except Failure Job :=
  (r.buildEnd c.settings c.isOpen).outcome

/-- The policy of a status query, or why the client does not get as far. -/
def Client.preparedQuery (c : Client) (policy : Option Json) :
    Except Failure (Option InfoPolicy) :=
  if c.isOpen then (Policy.resolve c.settings.infoPolicy policy).mapError PolicyError.failure
  else .error RequestError.closedClient.failure

/-- Submits a job with its own policy. -/
def Store.askToSubmit (s : Store) (job : Job) : Except Failure JobId × Store :=
  ((s.submit job.policy job).1.mapError StoreError.failure, (s.submit job.policy job).2)

/-- Queries the status of a job and moves its code. -/
def Store.askForStatus (s : Store) (id : JobId) (policy : Option InfoPolicy) :
    Except Failure Snapshot × Store :=
  (match (s.query policy id).1 with
    | .error e => .error e.failure
    | .ok info => (Snapshot.ofInfo info s.statusOffset).mapError RemapError.failure,
    (s.query policy id).2)

namespace CallLemmas

theorem statusOffset_query (s : Store) (policy : Option InfoPolicy) (id : JobId) :
    (s.query policy id).2.statusOffset = s.statusOffset := by
  rcases s.query_cases policy id with ⟨e, -, h⟩ | ⟨-, -, h⟩ | ⟨info, -, -, h⟩
  all_goals exact congrArg (fun answer => answer.2.statusOffset) h

theorem submitJob_fst (s : Store) (policy : Option ScanPolicy) (job : Job) (j : Journal) :
    (submitJob s policy job j).1 = (s.submit policy job).1.mapError StoreError.failure := by
  unfold submitJob
  rcases s.submit policy job with ⟨e | id, s'⟩ <;> rfl

theorem submitJob_store (s : Store) (policy : Option ScanPolicy) (job : Job) (j : Journal) :
    (submitJob s policy job j).2.1 = (s.submit policy job).2 := by
  unfold submitJob
  rcases s.submit policy job with ⟨e | id, s'⟩ <;> rfl

theorem queryStatus_fst (s : Store) (policy : Option InfoPolicy) (id : JobId) (j : Journal) :
    (queryStatus s policy id j).1 = (s.askForStatus id policy).1 := by
  -- the code is moved by the offset of the store after the query, which is the one before
  have hoffset := statusOffset_query s policy id
  unfold queryStatus Store.askForStatus
  rcases hq : s.query policy id with ⟨e | info, s'⟩
  · rfl
  · rw [hq] at hoffset
    simp only [← hoffset]
    cases Snapshot.ofInfo info s'.statusOffset <;> rfl

theorem queryStatus_store (s : Store) (policy : Option InfoPolicy) (id : JobId) (j : Journal) :
    (queryStatus s policy id j).2.1 = (s.askForStatus id policy).2 := by
  unfold queryStatus Store.askForStatus
  rcases s.query policy id with ⟨e | info, s'⟩
  · rfl
  · dsimp only
    cases Snapshot.ofInfo info s'.statusOffset <;> rfl

theorem preparePolicy_fst (baseline : InfoPolicy) (policy : Option Json) (j : Journal) :
    (preparePolicy baseline policy j).1 =
      (Policy.resolve baseline policy).mapError PolicyError.failure := by
  unfold preparePolicy
  cases Policy.resolve baseline policy <;> rfl

end CallLemmas

/-- A job that was prepared has the names of its request, with the policy, the options
and the arguments that were read. -/
theorem preparedJob_eq_ok {c : Client} {r : ScanRequest} {job : Job}
    (h : c.preparedJob r = .ok job) :
    ∃ policy options args,
      Policy.resolve c.settings.scanPolicy r.policy = .ok policy ∧
        r.givenOptions = .ok options ∧
        convertArguments c.settings.limits r.args = .ok args ∧
        job = { Job.withOptions { Job.new r.space r.set with policy } options with
          udf := some ⟨r.moduleName, r.functionName, args⟩ } := by
  revert h
  unfold Client.preparedJob ScanRequest.buildEnd
  cases r.check c.isOpen with
  | error e => exact nofun
  | ok _ =>
    cases Policy.resolve c.settings.scanPolicy r.policy with
    | error e => exact nofun
    | ok policy =>
      cases r.givenOptions with
      | error e => exact nofun
      | ok options =>
        cases convertArguments c.settings.limits r.args with
        | error e => exact nofun
        | ok args =>
          dsimp only
          cases nameFits r.moduleName && nameFits r.functionName with
          | false => exact nofun
          | true => exact fun h => ⟨policy, options, args, rfl, rfl, rfl, (Except.ok.inj h).symm⟩

/-- Submitting a request is handing the job that was prepared to the store. -/
theorem scanApply_seen (c : Client) (s : Store) (r : ScanRequest) :
    (c.scanApply s r).outcome = .ok (dispatch s (c.preparedJob r) s.askToSubmit).1 ∧
      (c.scanApply s r).store = (dispatch s (c.preparedJob r) s.askToSubmit).2 := by
  unfold Client.scanApply Client.preparedJob
  simp only [Call.start, build_eq]
  cases r.buildEnd c.settings c.isOpen with
  | built job =>
    refine ⟨(endCall_outcome _ _ .scanApply _ _).trans ?_, (endCall_store _ _ _ _ _).trans ?_⟩
    · rw [submitJob_fst]
      rfl
    · rw [submitJob_store]
      rfl
  | refused e | policyRefused e | optionsRefused e | argumentsRefused e | notAttached =>
    exact ⟨endCall_failed _ _ _ _ rfl, endCall_store _ _ _ _ _⟩

/-- Asking for a status is handing the policy that was prepared to the store. -/
theorem scanInfo_seen (c : Client) (s : Store) (id : JobId) (policy : Option Json) :
    (c.scanInfo s id policy).outcome =
        .ok (dispatch s (c.preparedQuery policy) (s.askForStatus id)).1 ∧
      (c.scanInfo s id policy).store =
        (dispatch s (c.preparedQuery policy) (s.askForStatus id)).2 := by
  unfold Client.scanInfo Client.preparedQuery
  cases c.isOpen with
  | false =>
    simp only [Call.start, Bool.false_eq_true, ↓reduceIte]
    exact ⟨endCall_failed _ _ _ _ rfl, endCall_store _ _ _ _ _⟩
  | true =>
    simp only [Call.start, ↓reduceIte]
    rw [← preparePolicy_fst]
    rcases preparePolicy c.settings.infoPolicy policy _ with ⟨f | prepared, j⟩
    · exact ⟨endCall_failed _ _ _ _ rfl, endCall_store _ _ _ _ _⟩
    · refine ⟨(endCall_outcome _ _ .scanInfo _ _).trans ?_, (endCall_store _ _ _ _ _).trans ?_⟩
      · rw [queryStatus_fst]
        rfl
      · rw [queryStatus_store]
        rfl

end BackgroundScan
