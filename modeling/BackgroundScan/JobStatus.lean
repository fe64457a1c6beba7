import BackgroundScan.Fault
import BackgroundScan.Record.Tree

/-!
# The status of a job

A store reports the status of a job as a code of its own. Clients see that code moved by an offset
which the store fixes, and `Snapshot.jobStatus` moves it back.

Main statement: `ofCode_code`, the code of a status decodes to it.
-/

namespace BackgroundScan

/-- The status of a job. -/
inductive JobStatus
  | undefined
  | inProgress
  | aborted
  | completed
  deriving DecidableEq, Repr

namespace JobStatus

/-- The name of a status. -/
def text : JobStatus → String
  | undefined => "undefined"
  | inProgress => "in_progress"
  | aborted => "aborted"
  | completed => "completed"

/-- All statuses, in the order of their codes. -/
def all : List JobStatus := [undefined, inProgress, aborted, completed]

/-- The code of a status. -/
def code : JobStatus → Int64
  | undefined => 0
  | inProgress => 1
  | aborted => 2
  | completed => 3

/-- The status with a code. -/
def ofCode? (code : Int64) : Option JobStatus :=
  if code = 0 then some undefined
  else if code = 1 then some inProgress
  else if code = 2 then some aborted
  else if code = 3 then some completed
  else none

/-- Whether the job can make no more progress. -/
def isTerminal : JobStatus → Bool
  | aborted => true
  | completed => true
  | _ => false

/-- Reads a status from its name. -/
def decode : Json → Except DecodeError JobStatus :=
  decodeVariant (all.map fun s => (s.text, s))

theorem ofCode_code (s : JobStatus) : ofCode? s.code = some s := by
  cases s <;> rfl

end JobStatus

/-- What a store knows of a job. -/
structure JobInfo where
  /-- How much of the scan is done, in percent. -/
  progressPct : UInt32
  /-- How many records were scanned. -/
  recordsScanned : UInt64
  /-- The code of the status. -/
  status : Int64
  deriving DecidableEq, Repr

/-- The shape of what a store knows of a job. -/
def JobInfo.shape : Shape where
  name := "RawScanInfo"
  fields := [.required "progress_pct" Scalar.word, .required "records_scanned" Scalar.long,
    .required "status" Scalar.signed]
  closed := false

/-- What the given values say of a job. -/
def JobInfo.ofValues : Values JobInfo.shape.fields → JobInfo
  | (progressPct, recordsScanned, status, ()) => ⟨progressPct, recordsScanned, status⟩

/-- Reads what a store knows of a job. -/
def JobInfo.decode (raw : Json) : Except DecodeError JobInfo :=
  (JobInfo.shape.decode raw).map .ofValues

/-- What a client sees of a job. -/
structure Snapshot where
  /-- How much of the scan is done, in percent. -/
  progressPct : UInt32
  /-- How many records were scanned. -/
  recordsScanned : UInt64
  /-- The code of the status, moved by the offset of the store. -/
  status : Int64
  deriving DecidableEq, Repr

/-- An integer as a signed word, if one holds it. -/
def signedWord? (n : Int) : Option Int64 :=
  if -0x8000000000000000 ≤ n ∧ n < 0x8000000000000000 then some (Int64.ofInt n) else none

/-- A status code that the offset moves out of the signed range. -/
structure RemapError where
  status : Int64
  offset : Int64
  deriving DecidableEq, Repr

/-- The failure of a call that met such a status code. -/
def RemapError.failure (e : RemapError) : Failure :=
  ⟨.protocol, "raw status " ++ toString e.status.toInt ++ " out of range for base offset "
    ++ toString e.offset.toInt⟩

namespace Snapshot

/-- What a client sees of a job at a store with the given offset. -/
def ofInfo (info : JobInfo) (offset : Int64) : Except RemapError Snapshot :=
  match signedWord? (info.status.toInt + offset.toInt) with
  | some status => .ok ⟨info.progressPct, info.recordsScanned, status⟩
  | none => .error ⟨info.status, offset⟩

/-- The status that a snapshot shows, if the code is one of a status. Moving the code back out of
the signed range is a fault. -/
def jobStatus (s : Snapshot) (offset : Int64) : Except Fault (Option JobStatus) :=
  match signedWord? (s.status.toInt - offset.toInt) with
  | some code => .ok (JobStatus.ofCode? code)
  | none => .error .differenceOverflow

end Snapshot

end BackgroundScan
