import BackgroundScan.Proofs.FirstFailure
import BackgroundScan.Proofs.Fleet

/-!
# Every lease is given back

A call may take two leases: one when it opens its job, and one when the arguments are
converted. From then on there are several places at which it can end, and each has to
give back what was taken until then. The ledger of a client counts both sides, so what
a call leaves there is the same number on either side: the ledger is turned over.

1. `BuildEnd.leases` and `Client.leases`: how many leases a build takes, by where it
   ends, and an action.
2. `ledger_leave` and `endCall_client`: the ledger at the end of a build and of a call.
3. `step_client`: the client after an action.
4. `buildEnd_leases`: the same number, from the first check of the submission that
   fails.
5. `gives_back_every_lease`: ledgers are balanced after any run; each call turns over
   as many leases as its first failure says; and a build by itself holds two until its
   job is dropped, or none if it fails.
-/

namespace BackgroundScan

/-! ## 1. How many leases are taken -/

/-- The ledger with that many leases more on either side. -/
def Ledger.turnOver (l : Ledger) (n : Nat) : Ledger := ⟨l.acquired + n, l.released + n⟩

/-- The client with its ledger turned over. -/
def Client.turnOver (c : Client) (n : Nat) : Client := { c with ledger := c.ledger.turnOver n }

/-- How many leases a build takes that ends here. -/
def BuildEnd.leases : BuildEnd → Nat
  | refused _ => 0
  | policyRefused _ => 1
  | optionsRefused _ => 1
  | argumentsRefused _ => 1
  | notAttached => 2
  | built _ => 2

/-- How many leases a job holds. -/
def Job.leases (job : Job) : Nat := if job.udf.isSome then 2 else 1

/-- How many leases a job takes that is made by hand. -/
def JobInput.leases (input : JobInput) (limits : Limits) : Nat :=
  match input.udf with
  | none => 1
  | some udf =>
    match convertArguments limits udf.args with
    | .error _ => 1
    | .ok _ => 2

namespace Client

/-- How many leases an action takes. -/
def leases (c : Client) : SessionAction → Nat
  | .scanApply request => (request.buildEnd c.settings c.isOpen).leases
  | .scanApplyDecoded raw =>
    match ScanRequest.decode raw with
    | .error _ => 0
    | .ok request => (request.buildEnd c.settings c.isOpen).leases
  | .submit input _ => input.leases c.settings.limits
  | _ => 0

/-- The client after an action. -/
def after (c : Client) : SessionAction → Client
  | .close => c.close
  | .newClient settings => .new settings
  | action => c.turnOver (c.leases action)

end Client

/-! ## 2. The ledger at the end of a build and of a call -/

namespace LeaseLemmas

open CallLemmas

theorem ledger_dropped (j : Journal) : (BuildEnd.dropped j).ledger = j.ledger.release := rfl

theorem ledger_closeJob (j : Journal) (job : Job) :
    (j.closeJob job).ledger = ⟨j.ledger.acquired, j.ledger.released + job.leases⟩ := by
  unfold Journal.closeJob Job.leases
  cases job.udf <;> rfl

theorem ledger_enterAll (call : Call) (j : Journal) (targets : List Stage) :
    (call.enterAll j targets).2.ledger = j.ledger := by
  induction targets generalizing call j with
  | nil => rfl
  | cons target rest ih =>
    unfold Call.enterAll Call.enter
    cases call.stage.canAdvanceTo target with
    | false => rfl
    | true => exact ih _ _

theorem ledger_finish {α : Type} (call : Call) (outcome : Except Failure α) (j : Journal) :
    (call.finish outcome j).2.ledger = j.ledger := by
  cases outcome with
  | error f =>
    exact ledger_enterAll call (j.note (.callFailed call.operation call.stage f))
      [.failed, .cleanup, .done]
  | ok value => exact ledger_enterAll call j [.success, .cleanup, .done]

theorem ledger_submitJob (s : Store) (policy : Option ScanPolicy) (job : Job) (j : Journal) :
    (submitJob s policy job j).2.2.ledger = j.ledger := by
  unfold submitJob
  rcases s.submit policy job with ⟨e | id, s'⟩ <;> rfl

theorem ledger_queryStatus (s : Store) (policy : Option InfoPolicy) (id : JobId) (j : Journal) :
    (queryStatus s policy id j).2.2.ledger = j.ledger := by
  unfold queryStatus
  rcases s.query policy id with ⟨e | info, s'⟩
  · rfl
  · dsimp only
    cases Snapshot.ofInfo info s'.statusOffset <;> rfl

theorem ledger_preparePolicy (baseline : InfoPolicy) (policy : Option Json) (j : Journal) :
    (preparePolicy baseline policy j).2.ledger = j.ledger := by
  unfold preparePolicy
  cases Policy.resolve baseline policy with
  | error e => exact Journal.ledger_noteIfAny j e.event
  | ok prepared => rfl

theorem ledger_readStatus (s : Store) (baseline : InfoPolicy) (id : JobId)
    (policy : Option Json) (j : Journal) :
    (readStatus s baseline id policy j).2.2.ledger = j.ledger := by
  have hprepared := ledger_preparePolicy baseline policy j
  unfold readStatus
  rcases hp : preparePolicy baseline policy j with ⟨f | prepared, j'⟩ <;> rw [hp] at hprepared
  · exact hprepared
  · exact (ledger_queryStatus s prepared id j').trans hprepared

theorem ledger_submitTimes (policy : Option ScanPolicy) (job : Job) (times : Nat) (s : Store)
    (j : Journal) : (Session.submitTimes policy job times s j).2.2.ledger = j.ledger := by
  induction times generalizing s j with
  | zero => rfl
  | succ times ih => exact (ih _ _).trans (ledger_submitJob s policy job j)

end LeaseLemmas

open LeaseLemmas

/-- A build that ends without a job turns the ledger over. -/
theorem ledger_leave {b : BuildEnd} (h : ∀ job, b ≠ .built job) (j : Journal) :
    (b.leave j).ledger = j.ledger.turnOver b.leases := by
  cases b with
  | policyRefused e | optionsRefused e =>
    rw [BuildEnd.leave, ledger_dropped, Journal.ledger_noteIfAny]
    rfl
  | refused _ | argumentsRefused _ | notAttached => rfl
  | built job => exact absurd rfl (h job)

/-- The end of a call only notes what happens. -/
theorem endCall_client {α : Type} (c : Client) (s : Store) (call : Call) (j : Journal)
    (outcome : Except Stop α) :
    (c.endCall s call j outcome).client = { c with ledger := j.ledger } := by
  rcases outcome with (f | f) | value
  · exact congrArg (Client.mk c.settings c.isOpen) (@ledger_finish α call (.error f) j)
  · rfl
  · exact congrArg (Client.mk c.settings c.isOpen) (ledger_finish call (.ok value) j)

/-! ## 3. The client after an action -/

namespace LeaseLemmas

/-- A job that is built has a function, and so holds two leases. -/
theorem leases_of_built {r : ScanRequest} {settings : Settings} {isOpen : Bool} {job : Job}
    (h : r.buildEnd settings isOpen = .built job) : job.leases = 2 := by
  have hprepared : Client.preparedJob ⟨settings, isOpen, .empty⟩ r = .ok job := by
    rw [Client.preparedJob, h]
    rfl
  obtain ⟨policy, options, args, -, -, -, rfl⟩ := preparedJob_eq_ok hprepared
  rfl

theorem scanApply_client (c : Client) (s : Store) (r : ScanRequest) :
    (c.scanApply s r).client = c.turnOver (r.buildEnd c.settings c.isOpen).leases := by
  unfold Client.scanApply
  simp only [Call.start, build_eq]
  cases hend : r.buildEnd c.settings c.isOpen with
  | built job =>
    -- the job holds both leases while the store is asked
    refine (endCall_client _ _ _ _ _).trans (congrArg (Client.mk c.settings c.isOpen) ?_)
    rw [ledger_closeJob, ledger_submitJob, leases_of_built hend]
    rfl
  | refused e | policyRefused e | optionsRefused e | argumentsRefused e | notAttached =>
    refine (endCall_client _ _ _ _ _).trans (congrArg (Client.mk c.settings c.isOpen) ?_)
    exact ledger_leave (by intro job hbuilt; cases hbuilt) _

theorem scanInfo_client (c : Client) (s : Store) (id : JobId) (policy : Option Json) :
    (c.scanInfo s id policy).client = c := by
  unfold Client.scanInfo
  cases c.isOpen with
  | false =>
    simp only [Call.start, Bool.false_eq_true, ↓reduceIte]
    exact endCall_client _ _ _ _ _
  | true =>
    simp only [Call.start, ↓reduceIte]
    have hprepared := ledger_preparePolicy c.settings.infoPolicy policy
      ((Journal.start c.ledger).note (.moved .scanInfo .start .validating))
    rcases hp : preparePolicy c.settings.infoPolicy policy
      ((Journal.start c.ledger).note (.moved .scanInfo .start .validating)) with
      ⟨f | prepared, j⟩ <;> rw [hp] at hprepared
    · exact (endCall_client _ _ _ _ _).trans
        (congrArg (Client.mk c.settings c.isOpen) hprepared)
    · refine (endCall_client _ _ _ _ _).trans
        (congrArg (Client.mk c.settings c.isOpen) ?_)
      exact (ledger_queryStatus s prepared id _).trans hprepared

/-- What a job by hand takes goes back when it is dropped. -/
theorem ledger_attachInput (limits : Limits) (input : JobInput) (j : Journal) :
    let made := Session.attachInput limits (.new input.space input.set) j.openJob input.udf
    (made.2.closeJob made.1).ledger = j.ledger.turnOver (input.leases limits) := by
  unfold Session.attachInput JobInput.leases
  cases input.udf with
  | none => rfl
  | some udf =>
    simp only [Journal.convert]
    cases convertArguments limits udf.args with
    | error e => rfl
    | ok args =>
      dsimp only
      cases hattach : (Job.new input.space input.set).attach?
          ⟨udf.moduleName, udf.functionName, args⟩ with
      | none => rfl
      | some job =>
        obtain ⟨-, -, -, rfl⟩ := Job.attach?_eq_some_iff.mp hattach
        rfl

theorem submitByHand_client (s : Session) (input : JobInput) (times : Nat) :
    (s.submitByHand input times).2.client =
      s.client.turnOver (input.leases s.client.settings.limits) := by
  have hmade := ledger_attachInput s.client.settings.limits input s.journal
  unfold Session.submitByHand
  generalize Session.attachInput s.client.settings.limits (.new input.space input.set)
    s.journal.openJob input.udf = made at hmade ⊢
  obtain ⟨job, j⟩ := made
  have hdropped : ((Session.submitTimes input.policy job times s.store j).2.2.closeJob job).ledger =
      (j.closeJob job).ledger := by
    rw [ledger_closeJob, ledger_closeJob, ledger_submitTimes]
  exact congrArg (Client.mk s.client.settings s.client.isOpen) (hdropped.trans hmade)

end LeaseLemmas

/-- The client after an action is as `after` says, whatever the store holds. -/
theorem step_client (s : Session) (action : SessionAction) :
    (s.step action).2.client = s.client.after action := by
  cases action with
  | scanApply request => exact scanApply_client s.client s.store request
  | scanApplyDecoded raw =>
    simp only [Session.step, Client.after, Client.leases]
    cases ScanRequest.decode raw with
    | error e => rfl
    | ok request => exact scanApply_client s.client s.store request
  | scanInfo id policy => exact scanInfo_client s.client s.store id policy
  | read id policy =>
    exact congrArg (Client.mk s.client.settings s.client.isOpen)
      (ledger_readStatus s.store s.client.settings.infoPolicy id policy s.journal)
  | prepare policy =>
    exact congrArg (Client.mk s.client.settings s.client.isOpen)
      (ledger_preparePolicy s.client.settings.infoPolicy policy s.journal)
  | submit input times => exact submitByHand_client s input times
  | insertJob _ _ | setProgress _ _ _ _ | expireJob _ | hasUpdateTime _ | failNextSubmit _
  | failNextStatus _ | submissions | settings | close | newClient _ => rfl

/-! ## 4. How far a submission gets -/

namespace SubmissionCheck

/-- How many leases a submission takes that fails in this check. -/
def leases : SubmissionCheck → Nat
  | clientOpen => 0
  | namesGiven => 0
  | argumentsAreList => 0
  | policy => 1
  | options => 1
  | arguments => 1
  | namesFit => 2
  | storeUnarmed => 2

/-- The first check of a submission that fails. -/
def firstFailing (c : Client) (s : Store) (r : ScanRequest) : Option SubmissionCheck :=
  order.find? fun check => (check.verdict c s r).isSome

/-- How many leases a submission takes, from its first failure; one without takes two. -/
def leasesUntil : Option SubmissionCheck → Nat
  | none => 2
  | some check => check.leases

end SubmissionCheck

namespace LeaseLemmas

open SubmissionCheck FirstFailureLemmas

theorem findSome?_eq_bind_find? {κ : Type} (order : List κ) (v : κ → Option Failure) :
    order.findSome? v = (order.find? fun check => (v check).isSome).bind v := by
  induction order with
  | nil => rfl
  | cons check rest ih =>
    rw [List.findSome?_cons, List.find?_cons]
    cases hv : v check with
    | none => exact ih
    | some f => exact hv.symm

/-- If all of the first checks stand for the same number of leases, that is the number
of a submission that fails in one of them. -/
theorem leasesUntil_append (v : SubmissionCheck → Option Failure) {checks : List SubmissionCheck}
    {n : Nat} (h : ∀ check ∈ checks, check.leases = n) (rest : List SubmissionCheck) :
    leasesUntil ((checks ++ rest).find? fun check => (v check).isSome) =
      match checks.findSome? v with
      | some _ => n
      | none => leasesUntil (rest.find? fun check => (v check).isSome) := by
  rw [List.find?_append, findSome?_eq_bind_find?]
  cases hfirst : checks.find? fun check => (v check).isSome with
  | none => rfl
  | some check =>
    have hfails : (v check).isSome = true := List.find?_some (p := fun c => (v c).isSome) hfirst
    obtain ⟨f, hf⟩ := Option.isSome_iff_exists.mp hfails
    rw [Option.some_or, Option.bind_some, hf]
    exact h check (List.mem_of_find?_eq_some hfirst)

theorem leasesUntil_firstFailing (c : Client) (s : Store) (r : ScanRequest) :
    leasesUntil (firstFailing c s r) =
      match [clientOpen, namesGiven, argumentsAreList].findSome? (verdict c s r) with
      | some _ => 0
      | none =>
        match [policy, options, arguments].findSome? (verdict c s r) with
        | some _ => 1
        | none => 2 := by
  have hlast : leasesUntil
      ([namesFit, storeUnarmed].find? fun check => (verdict c s r check).isSome) = 2 := by
    have hattached := leasesUntil_append (verdict c s r)
      (by decide : ∀ check ∈ [namesFit, storeUnarmed], check.leases = 2) []
    rw [List.append_nil] at hattached
    rw [hattached]
    cases [namesFit, storeUnarmed].findSome? (verdict c s r) <;> rfl
  rw [← hlast,
    ← leasesUntil_append (verdict c s r)
      (by decide : ∀ check ∈ [policy, options, arguments], check.leases = 1),
    ← leasesUntil_append (verdict c s r)
      (by decide : ∀ check ∈ [clientOpen, namesGiven, argumentsAreList], check.leases = 0)]
  rfl

/-- A build takes as many leases as the first failure of its submission says. -/
theorem buildEnd_leases (c : Client) (s : Store) (r : ScanRequest) :
    (r.buildEnd c.settings c.isOpen).leases = leasesUntil (firstFailing c s r) := by
  rw [leasesUntil_firstFailing, findSome?_check]
  unfold ScanRequest.buildEnd
  cases r.check c.isOpen with
  | error e => rfl
  | ok _ =>
    simp only [refusal, List.findSome?_cons, List.findSome?_nil,
      verdict_policy c s r c.settings.scanPolicy, verdict_options]
    cases Policy.resolve c.settings.scanPolicy r.policy with
    | error e => rfl
    | ok policy =>
      cases r.givenOptions with
      | error e => rfl
      | ok options =>
        simp only [refusal, SubmissionCheck.verdict, Settings.limits]
        cases convertArguments ⟨c.settings.maxArgDepth, c.settings.maxArgs⟩ r.args with
        | error e => rfl
        | ok args =>
          dsimp only
          cases nameFits r.moduleName && nameFits r.functionName <;> rfl

end LeaseLemmas

/-! ## 5. No leak -/

/-- What a build that began with the ledger `l` leaves in it. A job holds two leases
until it is dropped, at whatever time that is. -/
structure BalancesFrom (l : Ledger) (b : Built) : Prop where
  holdsTwo : ∀ job, b.outcome = .ok job → b.journal.ledger = ⟨l.acquired + 2, l.released⟩
  dropsTwo : ∀ job, b.outcome = .ok job → ∀ j : Journal,
    (j.closeJob job).ledger = ⟨j.ledger.acquired, j.ledger.released + 2⟩
  holdsNone : ∀ stop, b.outcome = .error stop → ∃ n, b.journal.ledger = l.turnOver n
  validating : b.call.stage = .validating ↔ b.journal.ledger.acquired = l.acquired
  building : b.call.stage = .building ↔ b.journal.ledger.acquired ≠ l.acquired
  /-- Words show as outstanding what they showed before, and two more while there is a job, as
  long as they can count what is taken. -/
  inWords : l.released ≤ l.acquired → l.acquired + 2 < UInt64.size →
    (∀ job, b.outcome = .ok job →
      b.journal.ledger.inWords.outstanding = l.inWords.outstanding + 2 ∧
        (b.journal.closeJob job).ledger.inWords.outstanding = l.inWords.outstanding) ∧
    ∀ stop, b.outcome = .error stop →
      b.journal.ledger.inWords.outstanding = l.inWords.outstanding

namespace LeaseLemmas

theorem after_balanced {c : Client} (h : c.ledger.released = c.ledger.acquired)
    (action : SessionAction) :
    (c.after action).ledger.released = (c.after action).ledger.acquired := by
  cases action with
  | close => exact h
  | newClient settings => rfl
  | scanApply _ | scanApplyDecoded _ | scanInfo _ _ | read _ _ | prepare _ | submit _ _
  | insertJob _ _ | setProgress _ _ _ _ | expireJob _ | hasUpdateTime _ | failNextSubmit _
  | failNextStatus _ | submissions | settings => exact congrArg (· + c.leases _) h

/-- A ledger that is turned over shows what it showed before, as long as words can count. -/
theorem outstanding_turnOver {l : Ledger} {n : Nat} (hle : l.released ≤ l.acquired)
    (hsize : l.acquired + n < UInt64.size) :
    (l.turnOver n).inWords.outstanding = l.inWords.outstanding := by
  have hbefore := (Ledger.seenExactly hle (by omega)).outstanding
  have hafter := (Ledger.seenExactly (l := l.turnOver n) (Nat.add_le_add_right hle n)
    hsize).outstanding
  refine UInt64.toNat.inj ?_
  rw [hbefore, hafter]
  exact Nat.add_sub_add_right _ _ _

/-- Two leases more are two more that are shown, as long as words can count. -/
theorem outstanding_holdsTwo {l : Ledger} (hle : l.released ≤ l.acquired)
    (hsize : l.acquired + 2 < UInt64.size) :
    (Ledger.mk (l.acquired + 2) l.released).inWords.outstanding = l.inWords.outstanding + 2 := by
  have hbefore := (Ledger.seenExactly hle (by omega)).outstanding
  have hafter := (Ledger.seenExactly (l := ⟨l.acquired + 2, l.released⟩)
    (Nat.le_trans hle (Nat.le_add_right _ _)) hsize).outstanding
  have htwo : (2 : UInt64).toNat = 2 := rfl
  have hfits : l.acquired - l.released + 2 < UInt64.size := by omega
  refine UInt64.toNat.inj ?_
  rw [UInt64.toNat_add, hbefore, hafter, htwo, Ledger.outstanding, Ledger.outstanding,
    Nat.mod_eq_of_lt hfits]
  exact Nat.sub_add_comm hle

theorem leases_le (b : BuildEnd) : b.leases ≤ 2 := by
  cases b <;> simp [BuildEnd.leases]

theorem acquired_leave (b : BuildEnd) (j : Journal) :
    (b.leave j).ledger.acquired = j.ledger.acquired + b.leases := by
  cases b with
  | built job => rfl
  | _ => rw [ledger_leave (by intro job hbuilt; cases hbuilt)]; rfl

theorem stage_validating_iff (b : BuildEnd) : b.stage = .validating ↔ b.leases = 0 := by
  cases b <;> simp [BuildEnd.stage, BuildEnd.leases]

theorem stage_building_iff (b : BuildEnd) : b.stage = .building ↔ b.leases ≠ 0 := by
  cases b <;> simp [BuildEnd.stage, BuildEnd.leases]

theorem eq_built_of_outcome {b : BuildEnd} {job : Job}
    (h : (b.outcome.mapError .failure : Except Stop Job) = .ok job) : b = .built job := by
  cases b <;> cases h
  rfl

theorem ne_built_of_outcome {b : BuildEnd} {stop : Stop}
    (h : (b.outcome.mapError .failure : Except Stop Job) = .error stop) (job : Job) :
    b ≠ .built job := by
  rintro rfl
  cases h

theorem ledger_leave_built {b : BuildEnd} {job : Job} (h : b = .built job) (j : Journal) :
    (b.leave j).ledger = ⟨j.ledger.acquired + 2, j.ledger.released⟩ := by
  subst h
  rfl

theorem balancesFrom_build (r : ScanRequest) (settings : Settings) (isOpen : Bool) (j : Journal) :
    BalancesFrom j.ledger (r.build settings isOpen ⟨.scanApply, .validating⟩ j) := by
  rw [build_eq]
  have hacquired := acquired_leave (r.buildEnd settings isOpen) j
  exact {
    holdsTwo := fun job hjob => ledger_leave_built (eq_built_of_outcome hjob) j
    dropsTwo := by
      intro job hjob j
      rw [ledger_closeJob, leases_of_built (eq_built_of_outcome hjob)]
    holdsNone := fun stop hstop => ⟨_, ledger_leave (ne_built_of_outcome hstop) j⟩
    validating := by
      rw [hacquired, stage_validating_iff]
      omega
    building := by
      rw [hacquired, stage_building_iff]
      omega
    inWords := by
      intro hle hsize
      refine ⟨fun job hjob => ⟨?_, ?_⟩, fun stop hstop => ?_⟩
      · rw [ledger_leave_built (eq_built_of_outcome hjob)]
        exact outstanding_holdsTwo hle hsize
      · rw [ledger_closeJob, leases_of_built (eq_built_of_outcome hjob),
          ledger_leave_built (eq_built_of_outcome hjob)]
        exact outstanding_turnOver hle hsize
      · have htaken := leases_le (r.buildEnd settings isOpen)
        rw [ledger_leave (ne_built_of_outcome hstop)]
        exact outstanding_turnOver hle (by omega) }

end LeaseLemmas

/-- No lease is lost, and none is given back twice. After any run of clients that began
with new ledgers, all their ledgers are balanced, in words too. A submission turns its
ledger over by none, one or two leases, as the first check says that fails, by which it
also ends; a status query takes none. And a build in a call that has just begun keeps two
leases with its job, or none. -/
theorem gives_back_every_lease (settings : List Settings) (store : Store)
    (actions : List FleetAction) (c : Client) (s : Store) (r : ScanRequest) (id : JobId)
    (given : Option Json) (l : Ledger) :
    (∀ client ∈ ((Fleet.mk (settings.map .new) store).run actions).2.clients,
        client.ledger.released = client.ledger.acquired ∧ client.ledger.outstanding = 0 ∧
        client.ledger.inWords.released = client.ledger.inWords.acquired ∧
        client.ledger.inWords.outstanding = 0) ∧
      EndsBy ((SubmissionCheck.firstFailing c s r).bind (SubmissionCheck.verdict c s r))
        (c.scanApply s r).outcome ∧
      (c.scanApply s r).client =
        c.turnOver (SubmissionCheck.leasesUntil (SubmissionCheck.firstFailing c s r)) ∧
      WordGrows (SubmissionCheck.leasesUntil (SubmissionCheck.firstFailing c s r))
        c.ledger.acquired (c.scanApply s r).client.ledger.acquired ∧
      WordGrows (SubmissionCheck.leasesUntil (SubmissionCheck.firstFailing c s r))
        c.ledger.released (c.scanApply s r).client.ledger.released ∧
      (c.scanInfo s id given).client = c ∧
      let started := Call.start .scanApply (.start l)
      BalancesFrom l (r.build c.settings c.isOpen started.1 started.2) := by
  have hclient : (c.scanApply s r).client =
      c.turnOver (SubmissionCheck.leasesUntil (SubmissionCheck.firstFailing c s r)) := by
    rw [scanApply_client, buildEnd_leases c s]
  refine ⟨?_, ?_, hclient, wordGrows (by rw [hclient]; rfl), wordGrows (by rw [hclient]; rfl),
    scanInfo_client c s id given, ?_⟩
  · intro client hclient
    have hbalanced : client.ledger.released = client.ledger.acquired := by
      refine run_clients (P := fun c => c.ledger.released = c.ledger.acquired) (fun _ => rfl) ?_
        (Fleet.mk (settings.map .new) store) actions ?_ client hclient
      · intro c s action h
        rw [step_client]
        exact after_balanced h action
      · intro c hc
        obtain ⟨given, -, rfl⟩ := List.mem_map.mp hc
        rfl
    have hwords : client.ledger.inWords.released = client.ledger.inWords.acquired :=
      congrArg wordCount hbalanced
    refine ⟨hbalanced, ?_, hwords, ?_⟩
    · rw [Ledger.outstanding, hbalanced, Nat.sub_self]
    · rw [WordLedger.outstanding, hwords, if_pos (UInt64.le_refl _), UInt64.sub_self]
  · have hends := scanApply_endsBy c s r
    rwa [findSome?_eq_bind_find?] at hends
  · exact balancesFrom_build r c.settings c.isOpen
      ((Journal.start l).note (.moved .scanApply .start .validating))

/-- A client that had one request accepted and another refused for its policy has taken
three leases and given them back; and a build that goes through holds two more than
were held before, on a ledger that others use too. -/
theorem gives_back_every_lease_refused_policy :
    let r : ScanRequest := ⟨"test", "demo", "geo", "move", .array [.null], none, none⟩
    let refused : ScanRequest := { r with policy := some .null }
    let c : Client := .new .standard
    let run := (Fleet.mk ([Settings.standard].map .new) .standard).run
      [.act 0 (.scanApply r), .act 0 (.scanApply refused)]
    let started := Call.start .scanApply (.start ⟨7, 5⟩)
    let b := r.build c.settings c.isOpen started.1 started.2
    (∃ client ∈ run.2.clients, client.ledger.acquired = 3 ∧ client.ledger.released = 3) ∧
      (c.scanApply .standard refused).client.ledger = ⟨1, 1⟩ ∧
      ∃ job, b.outcome = .ok job ∧ b.journal.ledger.outstanding = 4 ∧
        b.journal.ledger.inWords.outstanding = 4 ∧
        (b.journal.closeJob job).ledger.outstanding = 2 := by
  intro r refused c run started b
  obtain ⟨hbalanced, -, hrefused, -⟩ := gives_back_every_lease [.standard] .standard
    [.act 0 (.scanApply r), .act 0 (.scanApply refused)] c .standard refused 1 none ⟨7, 5⟩
  obtain ⟨-, -, -, -, -, -, hbuilt⟩ :=
    gives_back_every_lease [] .standard [] c .standard r 1 none ⟨7, 5⟩
  have hclient : run.2.clients[0]? = some (c.turnOver 3) := by rfl
  have hmem := List.mem_of_getElem? hclient
  obtain ⟨job, hjob⟩ : ∃ job, b.outcome = .ok job := ⟨_, rfl⟩
  obtain ⟨hwords, -⟩ := hbuilt.inWords (by decide) (by decide)
  refine ⟨⟨c.turnOver 3, hmem, rfl, (hbalanced _ hmem).1⟩, ?_, job, hjob, ?_,
    (hwords job hjob).1, ?_⟩
  · rw [hrefused]
    rfl
  · rw [hbuilt.holdsTwo job hjob]
    rfl
  · rw [hbuilt.dropsTwo job hjob, hbuilt.holdsTwo job hjob]
    rfl

end BackgroundScan
