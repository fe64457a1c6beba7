import BackgroundScan.Client.Assembly
import BackgroundScan.Store.Basic

/-!
# Clients

A client has settings, a ledger, and is open until it is closed. `Client.scanApply` submits the job
of a request to a store, and `Client.scanInfo` asks the store for the status of a job. Each is one
call: it goes through its stages, asks the store at most once, gives back every lease before it
ends, and reports the first failure.

The parts can be used by themselves: `submitJob` hands a job to the store, and `readStatus` asks
for a status without a look at the client.
-/

namespace BackgroundScan

/-- A client. -/
structure Client where
  settings : Settings
  isOpen : Bool
  ledger : Ledger

/-- How a call ended: its outcome, and what it left behind. A fault is no outcome of a call. -/
structure Ended (α : Type) where
  outcome : Except Fault (Except Report α)
  client : Client
  store : Store
  events : List Event

/-! ## At the store -/

/-- Hands a job to the store. -/
def submitJob (store : Store) (policy : Option ScanPolicy) (job : Job) (j : Journal) :
    Except Failure JobId × Store × Journal :=
  match store.submit policy job with
  | (.error e, store) => (.error e.failure, store, j.note (.submitFailed job.space job.set e))
  | (.ok id, store) => (.ok id, store, j.note (.accepted id job.space job.set))

/-- Asks the store for the status of a job, once, and moves the code by the offset of the store. -/
def queryStatus (store : Store) (policy : Option InfoPolicy) (id : JobId) (j : Journal) :
    Except Failure Snapshot × Store × Journal :=
  match store.query policy id with
  | (.error e, store) => (.error e.failure, store, j.note (.queryFailed id e))
  | (.ok info, store) =>
    match Snapshot.ofInfo info store.statusOffset with
    | .error e => (.error e.failure, store, j.note (.remapFailed id e))
    | .ok snapshot => (.ok snapshot, store, j.note (.statusRead id info snapshot))

/-- The policy of a status query in effect; the store is not asked. -/
def preparePolicy (baseline : InfoPolicy) (policy : Option Json) (j : Journal) :
    Except Failure (Option InfoPolicy) × Journal :=
  match Policy.resolve baseline policy with
  | .error e => (.error e.failure, j.noteIfAny e.event)
  | .ok policy => (.ok policy, j)

/-- Reads the status of a job with a policy of the caller. -/
def readStatus (store : Store) (baseline : InfoPolicy) (id : JobId) (policy : Option Json)
    (j : Journal) : Except Failure Snapshot × Store × Journal :=
  match preparePolicy baseline policy j with
  | (.error f, j) => (.error f, store, j)
  | (.ok policy, j) => queryStatus store policy id j

namespace Client

/-- An open client on a new ledger. -/
def new (settings : Settings) : Client := ⟨settings, true, .empty⟩

/-- Closes the client. Jobs at a store go on. -/
def close (c : Client) : Client := { c with isOpen := false }

/-- The end of a call that stops with a failure or a fault, or has a value. -/
def endCall {α : Type} (c : Client) (store : Store) (call : Call) (j : Journal)
    (outcome : Except Stop α) : Ended α :=
  match outcome with
  | .error (.fault f) => ⟨.error f, { c with ledger := j.ledger }, store, j.events⟩
  | .error (.failure f) =>
    let (outcome, j) := call.finish (.error f) j
    ⟨outcome, { c with ledger := j.ledger }, store, j.events⟩
  | .ok value =>
    let (outcome, j) := call.finish (.ok value) j
    ⟨outcome, { c with ledger := j.ledger }, store, j.events⟩

/-- Submits the job of a request. -/
def scanApply (c : Client) (store : Store) (request : ScanRequest) : Ended JobId :=
  let (call, j) := Call.start .scanApply (.start c.ledger)
  let built := request.build c.settings c.isOpen call j
  match built.outcome with
  | .error stop => c.endCall store built.call built.journal (.error stop)
  | .ok job =>
    let (outcome, store, j) := submitJob store job.policy job built.journal
    c.endCall store built.call (j.closeJob job) (outcome.mapError .failure)

/-- Asks for the status of a job. -/
def scanInfo (c : Client) (store : Store) (id : JobId) (policy : Option Json) :
    Ended Snapshot :=
  let (call, j) := Call.start .scanInfo (.start c.ledger)
  if c.isOpen then
    match preparePolicy c.settings.infoPolicy policy j with
    | (.error f, j) => c.endCall store call j (.error (.failure f))
    | (.ok policy, j) =>
      match call.beginWork j with
      | .error f => c.endCall store call j (.error (.fault f))
      | .ok (call, j) =>
        let (outcome, store, j) := queryStatus store policy id j
        c.endCall store call j (outcome.mapError .failure)
  else c.endCall store call j (.error (.failure RequestError.closedClient.failure))

end Client

end BackgroundScan
