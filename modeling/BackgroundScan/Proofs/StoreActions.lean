import BackgroundScan.Client.Session
import BackgroundScan.Proofs.Calls

/-!
# What an action asks of the store

Whatever happens in a session reaches the store as a list of primitive actions: the
two calls of a store, and what is done to it by hand. The list depends on the client
and on the input alone, and not on the store.

1. `StoreAction`, `Store.act` and `Store.acts`: the primitives, one and several.
2. `Client.asks`: what an action of a session asks of the store. `step_store`: the
   store that a step leaves is the one that was asked.
3. `submitCalls_acts` and `statusCalls_acts`: the store counts the calls that it gets,
   and nothing else. `statusOffset_acts`: its offset never changes.
-/

namespace BackgroundScan

/-! ## 1. Primitives of a store -/

/-- One thing that is asked of a store or done to it by hand. -/
inductive StoreAction
  | submit (policy : Option ScanPolicy) (job : Job)
  | query (policy : Option InfoPolicy) (id : JobId)
  | insertJob (id : JobId) (info : JobInfo)
  | setProgress (id : JobId) (progressPct : UInt32) (recordsScanned : UInt64)
      (status : JobStatus)
  | expireJob (id : JobId)
  | failNextSubmit (error : StoreError)
  | failNextStatus (error : StoreError)

/-- Whether an action is a submission. -/
def StoreAction.isSubmit : StoreAction → Bool
  | submit _ _ => true
  | _ => false

/-- Whether an action is a status query. -/
def StoreAction.isQuery : StoreAction → Bool
  | query _ _ => true
  | _ => false

namespace Store

/-- The store after an action. -/
def act (s : Store) : StoreAction → Store
  | .submit policy job => (s.submit policy job).2
  | .query policy id => (s.query policy id).2
  | .insertJob id info => s.insertJob id info
  | .setProgress id progressPct recordsScanned status =>
    (s.setProgress id progressPct recordsScanned status).2
  | .expireJob id => (s.expireJob id).2
  | .failNextSubmit e => s.failNextSubmit e
  | .failNextStatus e => s.failNextStatus e

/-- The store after several actions. -/
def acts (s : Store) (actions : List StoreAction) : Store := actions.foldl act s

end Store

/-! ## 2. What is asked -/

/-- The job that is made by hand. What it does not take is left out. -/
def JobInput.job (input : JobInput) (limits : Limits) : Job :=
  match input.udf with
  | none => .new input.space input.set
  | some udf =>
    match convertArguments limits udf.args with
    | .error _ => .new input.space input.set
    | .ok args =>
      ((Job.new input.space input.set).attach? ⟨udf.moduleName, udf.functionName, args⟩).getD
        (.new input.space input.set)

/-- What is asked of the store for what was prepared, which is nothing after a failure. -/
def askFor {α : Type} (ask : α → StoreAction) : Except Failure α → List StoreAction
  | .error _ => []
  | .ok a => [ask a]

namespace Client

/-- What a request asks of the store. -/
def asksToSubmit (c : Client) (r : ScanRequest) : List StoreAction :=
  askFor (fun job => .submit job.policy job) (c.preparedJob r)

/-- What an action asks of the store. -/
def asks (c : Client) : SessionAction → List StoreAction
  | .scanApply request => c.asksToSubmit request
  | .scanApplyDecoded raw =>
    match ScanRequest.decode raw with
    | .error _ => []
    | .ok request => c.asksToSubmit request
  | .scanInfo id policy => askFor (.query · id) (c.preparedQuery policy)
  | .read id policy =>
    askFor (.query · id)
      ((Policy.resolve c.settings.infoPolicy policy).mapError PolicyError.failure)
  | .submit input times =>
    List.replicate times (.submit input.policy (input.job c.settings.limits))
  | .insertJob id info => [.insertJob id info]
  | .setProgress id progressPct recordsScanned status =>
    [.setProgress id progressPct recordsScanned status]
  | .expireJob id => [.expireJob id]
  | .failNextSubmit e => [.failNextSubmit e]
  | .failNextStatus e => [.failNextStatus e]
  | .prepare _ => []
  | .hasUpdateTime _ => []
  | .submissions => []
  | .settings => []
  | .close => []
  | .newClient _ => []

end Client

namespace StoreActionLemmas

open CallLemmas

theorem acts_append (s : Store) (before after : List StoreAction) :
    s.acts (before ++ after) = (s.acts before).acts after :=
  List.foldl_append

/-- A call asks the store for what was prepared. -/
theorem dispatch_store {α β : Type} (s : Store) (prepared : Except Failure α)
    {ask : α → Except Failure β × Store} {action : α → StoreAction}
    (h : ∀ a, (ask a).2 = s.act (action a)) :
    (dispatch s prepared ask).2 = s.acts (askFor action prepared) := by
  cases prepared with
  | error f => rfl
  | ok a => exact h a

theorem scanApply_store (c : Client) (s : Store) (r : ScanRequest) :
    (c.scanApply s r).store = s.acts (c.asksToSubmit r) :=
  (scanApply_seen c s r).2.trans (dispatch_store s _ fun _ => rfl)

theorem scanInfo_store (c : Client) (s : Store) (id : JobId) (policy : Option Json) :
    (c.scanInfo s id policy).store = s.acts (askFor (.query · id) (c.preparedQuery policy)) :=
  (scanInfo_seen c s id policy).2.trans (dispatch_store s _ fun _ => rfl)

theorem readStatus_seen (s : Store) (baseline : InfoPolicy) (id : JobId)
    (policy : Option Json) (j : Journal) :
    (readStatus s baseline id policy j).2.1 =
      s.acts (askFor (.query · id)
        ((Policy.resolve baseline policy).mapError PolicyError.failure)) := by
  unfold readStatus
  rw [← preparePolicy_fst baseline policy j]
  rcases preparePolicy baseline policy j with ⟨f | prepared, j⟩
  · rfl
  · exact queryStatus_store s prepared id j

/-- The job that is made by hand does not depend on the journal. -/
theorem attachInput_fst (limits : Limits) (input : JobInput) (j : Journal) :
    (Session.attachInput limits (.new input.space input.set) j input.udf).1 =
      input.job limits := by
  unfold Session.attachInput JobInput.job
  cases input.udf with
  | none => rfl
  | some udf =>
    simp only [Journal.convert]
    cases convertArguments limits udf.args with
    | error e => rfl
    | ok args =>
      dsimp only
      cases (Job.new input.space input.set).attach?
        ⟨udf.moduleName, udf.functionName, args⟩ <;> rfl

theorem submitTimes_store (policy : Option ScanPolicy) (job : Job) (times : Nat) (s : Store)
    (j : Journal) :
    (Session.submitTimes policy job times s j).2.1 =
      s.acts (List.replicate times (.submit policy job)) := by
  induction times generalizing s j with
  | zero => rfl
  | succ times ih =>
    -- the first submission goes to `s`, and the others to what it leaves
    rw [Session.submitTimes, List.replicate_succ]
    show (Session.submitTimes policy job times (submitJob s policy job j).2.1 _).2.1 = _
    rw [ih, submitJob_store]
    rfl

end StoreActionLemmas

open CallLemmas StoreActionLemmas

/-- The store that a step leaves is the one that was asked. -/
theorem step_store (s : Session) (action : SessionAction) :
    (s.step action).2.store = s.store.acts (s.client.asks action) := by
  cases action with
  | scanApply request => exact scanApply_store s.client s.store request
  | scanApplyDecoded raw =>
    simp only [Session.step, Client.asks]
    cases ScanRequest.decode raw with
    | error e => rfl
    | ok request => exact scanApply_store s.client s.store request
  | scanInfo id policy => exact scanInfo_store s.client s.store id policy
  | read id policy => exact readStatus_seen s.store s.client.settings.infoPolicy id policy s.journal
  | submit input times =>
    rw [Client.asks, ← attachInput_fst _ _ s.journal.openJob, ← submitTimes_store]
    rfl
  | prepare policy => rfl
  | insertJob id info => rfl
  | setProgress id progressPct recordsScanned status => rfl
  | expireJob id => rfl
  | hasUpdateTime id => rfl
  | failNextSubmit e => rfl
  | failNextStatus e => rfl
  | submissions => rfl
  | settings => rfl
  | close => rfl
  | newClient settings => rfl

/-! ## 3. Counters and the offset -/

namespace StoreActionLemmas

theorem calls_submit (s : Store) (policy : Option ScanPolicy) (job : Job) :
    (s.submit policy job).2.submitCalls = s.submitCalls + 1 ∧
      (s.submit policy job).2.statusCalls = s.statusCalls := by
  rcases s.submit_cases policy job with ⟨e, -, h⟩ | ⟨-, -, h⟩ | ⟨udf, -, -, h⟩
  all_goals
    rw [h]
    exact ⟨rfl, rfl⟩

theorem calls_query (s : Store) (policy : Option InfoPolicy) (id : JobId) :
    (s.query policy id).2.submitCalls = s.submitCalls ∧
      (s.query policy id).2.statusCalls = s.statusCalls + 1 := by
  rcases s.query_cases policy id with ⟨e, -, h⟩ | ⟨-, -, h⟩ | ⟨info, -, -, h⟩
  all_goals
    rw [h]
    exact ⟨rfl, rfl⟩

/-- What one action counts for. -/
theorem calls_act (s : Store) (action : StoreAction) :
    (s.act action).submitCalls = s.submitCalls + (if action.isSubmit then 1 else 0) ∧
      (s.act action).statusCalls = s.statusCalls + (if action.isQuery then 1 else 0) := by
  cases action with
  | submit policy job => exact calls_submit s policy job
  | query policy id => exact calls_query s policy id
  | setProgress id progressPct recordsScanned status =>
    simp only [Store.act, Store.setProgress]
    cases s.jobs.find? id <;> exact ⟨rfl, rfl⟩
  | insertJob id info => exact ⟨rfl, rfl⟩
  | expireJob id => exact ⟨rfl, rfl⟩
  | failNextSubmit e => exact ⟨rfl, rfl⟩
  | failNextStatus e => exact ⟨rfl, rfl⟩

theorem statusOffset_act (s : Store) (action : StoreAction) :
    (s.act action).statusOffset = s.statusOffset := by
  cases action with
  | submit policy job =>
    show (s.submit policy job).2.statusOffset = _
    rcases s.submit_cases policy job with ⟨e, -, h⟩ | ⟨-, -, h⟩ | ⟨udf, -, -, h⟩
    all_goals exact congrArg (fun answer => answer.2.statusOffset) h
  | query policy id => exact statusOffset_query s policy id
  | setProgress id progressPct recordsScanned status =>
    simp only [Store.act, Store.setProgress]
    cases s.jobs.find? id <;> rfl
  | insertJob id info => rfl
  | expireJob id => rfl
  | failNextSubmit e => rfl
  | failNextStatus e => rfl

end StoreActionLemmas

/-- A store counts the submissions that it gets. -/
theorem submitCalls_acts (s : Store) (actions : List StoreAction) :
    (s.acts actions).submitCalls = s.submitCalls + actions.countP StoreAction.isSubmit := by
  induction actions generalizing s with
  | nil => rfl
  | cons action rest ih =>
    show ((s.act action).acts rest).submitCalls = _
    rw [ih, (calls_act s action).1, List.countP_cons, Nat.add_assoc, Nat.add_comm (ite ..)]

/-- A store counts the status queries that it gets. -/
theorem statusCalls_acts (s : Store) (actions : List StoreAction) :
    (s.acts actions).statusCalls = s.statusCalls + actions.countP StoreAction.isQuery := by
  induction actions generalizing s with
  | nil => rfl
  | cons action rest ih =>
    show ((s.act action).acts rest).statusCalls = _
    rw [ih, (calls_act s action).2, List.countP_cons, Nat.add_assoc, Nat.add_comm (ite ..)]

/-- The offset of a store never changes. -/
theorem statusOffset_acts (s : Store) (actions : List StoreAction) :
    (s.acts actions).statusOffset = s.statusOffset := by
  induction actions generalizing s with
  | nil => rfl
  | cons action rest ih => exact (ih (s.act action)).trans (statusOffset_act s action)

end BackgroundScan
