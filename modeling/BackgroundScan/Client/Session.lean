import BackgroundScan.Client.Basic

/-!
# Sessions

A session is a client at work with a store, and the events of the current step. `Session.step`
carries out one action: a call of the client, a part of a call by itself, or something that
happens to the store or the client from outside.
-/

namespace BackgroundScan

/-- A client and a store. -/
structure Session where
  client : Client
  store : Store
  /-- The events since the last step. -/
  events : List Event

/-- A function as it is given by hand. -/
structure UdfInput where
  moduleName : String
  functionName : String
  args : Json

/-- A job as it is given by hand, with the policy that goes to the store with it. -/
structure JobInput where
  space : String
  set : String
  udf : Option UdfInput
  policy : Option ScanPolicy

/-- One action of a session. -/
inductive SessionAction
  | scanApply (request : ScanRequest)
  /-- Decodes a request and submits its job. -/
  | scanApplyDecoded (raw : Json)
  | scanInfo (id : JobId) (policy : Option Json)
  /-- Reads a status without a look at whether the client is open. -/
  | read (id : JobId) (policy : Option Json)
  /-- Finds the policy of a status query. -/
  | prepare (policy : Option Json)
  /-- Makes a job by hand and submits it several times. -/
  | submit (job : JobInput) (times : Nat)
  | insertJob (id : JobId) (info : JobInfo)
  | setProgress (id : JobId) (progressPct : UInt32) (recordsScanned : UInt64)
      (status : JobStatus)
  | expireJob (id : JobId)
  /-- Asks whether a job is known, and so has a time of its last change. -/
  | hasUpdateTime (id : JobId)
  | failNextSubmit (error : StoreError)
  | failNextStatus (error : StoreError)
  | submissions
  | settings
  | close
  /-- Puts a new client in place of the client. -/
  | newClient (settings : Settings)

/-- The answer to an action. -/
inductive SessionAnswer
  | nothing
  | flag (b : Bool)
  | applied (outcome : Except Fault (Except Report JobId))
  | undecodable (cause : DecodeError)
  | polled (outcome : Except Fault (Except Report Snapshot))
  | status (outcome : Except Failure Snapshot)
  | policy (outcome : Except Failure (Option InfoPolicy))
  | submitted (outcomes : List (Except Failure JobId))
  | submissions (all : List Submission)
  | settings (s : Settings)

namespace Session

/-- A new client at a store. -/
def start (settings : Settings) (store : Store) : Session := ⟨.new settings, store, []⟩

/-- What is left of a session when a call has ended. -/
def after {α : Type} (e : Ended α) : Session := ⟨e.client, e.store, e.events⟩

/-- The journal of an action outside a call. -/
def journal (s : Session) : Journal := .start s.client.ledger

/-- What is left of a session after an action outside a call. -/
def record (s : Session) (store : Store) (j : Journal) : Session :=
  ⟨{ s.client with ledger := j.ledger }, store, j.events⟩

/-- Submits a job several times. -/
def submitTimes (policy : Option ScanPolicy) (job : Job) :
    Nat → Store → Journal → List (Except Failure JobId) × Store × Journal
  | 0, store, j => ([], store, j)
  | times + 1, store, j =>
    let (outcome, store, j) := submitJob store policy job j
    let (outcomes, store, j) := submitTimes policy job times store j
    (outcome :: outcomes, store, j)

/-- Attaches a function by hand, as far as its arguments and names allow; what the job refuses is
given back. -/
def attachInput (limits : Limits) (job : Job) (j : Journal) : Option UdfInput → Job × Journal
  | none => (job, j)
  | some udf =>
    match j.convert limits udf.args with
    | (.error _, j) => (job, j)
    | (.ok args, j) =>
      match job.attach? ⟨udf.moduleName, udf.functionName, args⟩ with
      | none => (job, j.release .argList)
      | some job => (job, j)

/-- Makes a job by hand, submits it several times and drops it. -/
def submitByHand (s : Session) (input : JobInput) (times : Nat) :
    List (Except Failure JobId) × Session :=
  let (job, j) := attachInput s.client.settings.limits (.new input.space input.set)
    s.journal.openJob input.udf
  let (outcomes, store, j) := submitTimes input.policy job times s.store j
  (outcomes, s.record store (j.closeJob job))

/-- Carries out an action. -/
def step (s : Session) : SessionAction → SessionAnswer × Session
  | .scanApply request =>
    let ended := s.client.scanApply s.store request
    (.applied ended.outcome, after ended)
  | .scanApplyDecoded raw =>
    match ScanRequest.decode raw with
    | .error e => (.undecodable e, s.record s.store s.journal)
    | .ok request =>
      let ended := s.client.scanApply s.store request
      (.applied ended.outcome, after ended)
  | .scanInfo id policy =>
    let ended := s.client.scanInfo s.store id policy
    (.polled ended.outcome, after ended)
  | .read id policy =>
    let (outcome, store, j) := readStatus s.store s.client.settings.infoPolicy id policy s.journal
    (.status outcome, s.record store j)
  | .prepare policy =>
    let (outcome, j) := preparePolicy s.client.settings.infoPolicy policy s.journal
    (.policy outcome, s.record s.store j)
  | .submit job times =>
    let (outcomes, s) := s.submitByHand job times
    (.submitted outcomes, s)
  | .insertJob id info => (.nothing, s.record (s.store.insertJob id info) s.journal)
  | .setProgress id progressPct recordsScanned status =>
    let (known, store) := s.store.setProgress id progressPct recordsScanned status
    (.flag known, s.record store s.journal)
  | .expireJob id =>
    let (known, store) := s.store.expireJob id
    (.flag known, s.record store s.journal)
  | .hasUpdateTime id => (.flag (s.store.jobs.find? id).isSome, s.record s.store s.journal)
  | .failNextSubmit e => (.nothing, s.record (s.store.failNextSubmit e) s.journal)
  | .failNextStatus e => (.nothing, s.record (s.store.failNextStatus e) s.journal)
  | .submissions => (.submissions s.store.submissions, s.record s.store s.journal)
  | .settings => (.settings s.client.settings, s.record s.store s.journal)
  | .close => (.nothing, ⟨s.client.close, s.store, [.clientClosed]⟩)
  | .newClient settings => (.nothing, .start settings s.store)

end Session

end BackgroundScan
