import BackgroundScan.JobId
import BackgroundScan.JobStatus
import BackgroundScan.Lease.Ledger

/-!
# Events

What a call reports while it runs, for whoever follows it. An event has a level, a message and
named fields; `Event` holds what the fields are made of.
-/

namespace BackgroundScan

/-- How much an event matters. -/
inductive Level
  | trace
  | debug
  | warn
  deriving DecidableEq, Repr

/-- The name of a level. -/
def Level.text : Level → String
  | .trace => "TRACE"
  | .debug => "DEBUG"
  | .warn => "WARN"

/-- The value of a field. -/
inductive FieldValue
  | flag (b : Bool)
  | integer (n : Int)
  | text (s : String)
  deriving DecidableEq, Repr

/-- Something that happened in a call. -/
inductive Event
  /-- A lease was taken from a ledger. -/
  | acquired (resource : Resource)
  /-- A lease was given back. -/
  | released (resource : Resource)
  /-- A call moved from one stage to another. -/
  | moved (operation : Operation) (origin target : Stage)
  /-- A call failed in a stage. -/
  | callFailed (operation : Operation) (stage : Stage) (failure : Failure)
  /-- A policy of a caller has the wrong shape. -/
  | policyRejected (policy : String) (cause : DecodeError)
  /-- Options of a caller have the wrong shape. -/
  | optionsRejected (cause : DecodeError)
  /-- A build that failed gives up what it holds. -/
  | abandoned (descriptor args : Bool)
  /-- The store accepted a job. -/
  | accepted (jobId : JobId) (space set : String)
  /-- The store refused a job. -/
  | submitFailed (space set : String) (error : StoreError)
  /-- The store refused a status query. -/
  | queryFailed (jobId : JobId) (error : StoreError)
  /-- The store answered with a status code that cannot be moved by its offset. -/
  | remapFailed (jobId : JobId) (error : RemapError)
  /-- The store answered a status query. -/
  | statusRead (jobId : JobId) (info : JobInfo) (snapshot : Snapshot)
  /-- A client was closed. -/
  | clientClosed
  deriving DecidableEq

namespace Event

/-- The level of an event. -/
def level : Event → Level
  | acquired _ => .trace
  | released _ => .trace
  | abandoned _ _ => .trace
  | moved _ _ _ => .debug
  | accepted _ _ _ => .debug
  | statusRead _ _ _ => .debug
  | clientClosed => .debug
  | callFailed _ _ _ => .warn
  | policyRejected _ _ => .warn
  | optionsRejected _ => .warn
  | submitFailed _ _ _ => .warn
  | queryFailed _ _ => .warn
  | remapFailed _ _ => .warn

/-- The message of an event. -/
def message : Event → String
  | acquired _ => "resource acquired"
  | released _ => "resource released"
  | abandoned _ _ => "releasing untransferred scan resources"
  | moved _ _ _ => "stage"
  | accepted _ _ _ => "background scan accepted"
  | statusRead _ _ _ => "scan status read"
  | clientClosed => "client closed"
  | callFailed _ _ _ => "call failed"
  | policyRejected _ _ => "rejected policy"
  | optionsRejected _ => "rejected scan options"
  | submitFailed _ _ _ => "background scan submission failed"
  | queryFailed _ _ => "scan status query failed"
  | remapFailed _ _ => "scan status could not be remapped"

/-- The fields of an event. -/
def fields : Event → List (String × FieldValue)
  | acquired resource => [("kind", .text resource.text)]
  | released resource => [("kind", .text resource.text)]
  | abandoned descriptor args => [("descriptor", .flag descriptor), ("args", .flag args)]
  | moved operation origin target =>
    [("operation", .text operation.text), ("from", .text origin.text), ("to", .text target.text)]
  | accepted jobId space set =>
    [("job_id", .integer jobId.toNat), ("namespace", .text space), ("set", .text set)]
  | statusRead jobId info snapshot =>
    [("job_id", .integer jobId.toNat), ("progress_pct", .integer snapshot.progressPct.toNat),
      ("records_scanned", .integer snapshot.recordsScanned.toNat),
      ("raw_status", .integer info.status.toInt), ("status", .integer snapshot.status.toInt)]
  | clientClosed => []
  | callFailed operation stage failure =>
    [("operation", .text operation.text), ("stage", .text stage.text),
      ("code", .text failure.kind.text), ("error", .text failure.message)]
  | policyRejected policy cause => [("policy", .text policy), ("error", .text cause.message)]
  | optionsRejected cause => [("error", .text cause.message)]
  | submitFailed space set error =>
    [("namespace", .text space), ("set", .text set), ("code", .integer error.code.toInt),
      ("error", .text error.message)]
  | queryFailed jobId error =>
    [("job_id", .integer jobId.toNat), ("code", .integer error.code.toInt),
      ("error", .text error.message)]
  | remapFailed jobId error =>
    [("job_id", .integer jobId.toNat), ("raw_status", .integer error.status.toInt),
      ("error", .text error.failure.message)]

end Event

end BackgroundScan
