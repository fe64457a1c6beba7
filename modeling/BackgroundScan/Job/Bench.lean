import BackgroundScan.Job.Basic
import BackgroundScan.Journal

/-!
# Working on a job

A `Bench` is a job that is worked on step by step, with the journal of its leases and the argument
lists outside the job that are kept: lists that the job refused, lists made by hand, and clones.
`Bench.step` carries out one step. A step that is refused leaves the job as it was.

A job holds a lease for itself and, once a function is attached, one for the argument list. Given
up, it gives back the lease of the list first. Each list that is kept holds a lease of its own.
-/

namespace BackgroundScan

/-- Takes the lease of a new job. -/
def Journal.openJob (j : Journal) : Journal := j.acquire .descriptor

/-- Gives the leases of a job back. -/
def Journal.closeJob (j : Journal) (job : Job) : Journal :=
  match job.udf with
  | some _ => (j.release .argList).release .descriptor
  | none => j.release .descriptor

/-- Something outside the job that holds a lease on an argument list. -/
inductive Holder
  /-- An argument list by itself. -/
  | list (args : List Value)
  /-- A clone of an attached function. -/
  | call (udf : Udf)

namespace Holder

/-- The argument list that is held. -/
def args : Holder → List Value
  | list args => args
  | call udf => udf.args

/-- A clone of a holder, or of its argument list only. -/
def copy (holder : Holder) (listOnly : Bool) : Holder :=
  if listOnly then .list holder.args else holder

end Holder

/-- A job that is worked on. -/
structure Bench where
  /-- The job, until it is dropped. -/
  job : Option Job
  /-- What is kept outside the job, the oldest first. -/
  kept : List Holder
  journal : Journal

/-- A step of work on a job. -/
inductive BenchAction
  | setPercent (percent : UInt8)
  | setPriority (priority : Priority)
  | setConcurrent (value : Bool)
  | setNoBins (value : Bool)
  | setPolicy (policy : Option ScanPolicy)
  /-- Reads options and sets those that are given. -/
  | applyOptions (raw : Json)
  /-- Sets options that did not go through validation. -/
  | applyUnchecked (options : ScanOptions)
  /-- Converts arguments and attaches a function with them. -/
  | attach (moduleName functionName : String) (raw : Json) (limits : Limits) (keep : Bool)
  /-- Makes an argument list by hand and keeps it. -/
  | makeList (args : List Value)
  /-- Attaches a function with a list that is kept; the job hands it back if it refuses it. -/
  | attachKept (moduleName functionName : String) (place : Nat)
  /-- Clones what is kept at a place, or its argument list only, and keeps the clone. -/
  | copyKept (place : Nat) (listOnly : Bool)
  /-- Clones the attached function, or its argument list only, and keeps the clone. -/
  | copyUdf (listOnly : Bool)
  /-- Drops what is kept at a place. -/
  | dropKept (place : Nat)
  /-- Drops all that is kept. -/
  | releaseKept
  /-- Clones the attached function, compares it and drops it. -/
  | cloneUdf
  | drop

/-- The answer to a step. -/
inductive BenchAnswer
  | nothing
  | flag (b : Bool)
  | outcome (result : Except Stop Unit)
  | rejected (args : List Value)
  /-- Whether a clone was equal, and the ledger while it was held. -/
  | compared (equal : Bool) (held : Ledger)

namespace Udf

/-- Equality of functions with their arguments. -/
def sameAs (a b : Udf) : Bool :=
  a.moduleName == b.moduleName && a.functionName == b.functionName && Value.sameItems a.args b.args

end Udf

namespace Job

/-- Reads options and sets those that are given, if all are valid. -/
def applyOptions (job : Job) (raw : Json) (j : Journal) : Except Stop Job × Journal :=
  match ScanOptions.parse raw with
  | .error e => (.error (.failure e.failure), j.noteIfAny e.event)
  | .ok options => ((job.apply options).mapError .fault, j)

end Job

namespace Bench

/-- A new job. -/
def start (space set : String) : Bench :=
  ⟨some (.new space set), [], (Journal.start .empty).openJob⟩

/-- Starts the events afresh. -/
def cut (b : Bench) : Bench := { b with journal := .start b.journal.ledger }

/-- Gives back the lease of all that is kept. -/
def closeKept (j : Journal) (kept : List Holder) : Journal :=
  kept.foldl (fun j _ => j.release .argList) j

/-- Keeps a holder, with the journal in which its lease is taken. -/
def keep (b : Bench) (holder : Holder) (journal : Journal) : Bench :=
  { b with kept := b.kept ++ [holder], journal }

/-- Carries out a step on what is kept; a step on the job does nothing here. -/
def stepKept (b : Bench) : BenchAction → Bench
  | .makeList args => b.keep (.list args) (b.journal.acquire .argList)
  | .copyKept place listOnly =>
    match b.kept[place]? with
    | none => b
    | some holder => b.keep (holder.copy listOnly) b.journal.duplicate
  | .dropKept place =>
    match b.kept[place]? with
    | none => b
    | some _ => { b with kept := b.kept.eraseIdx place, journal := b.journal.release .argList }
  | .releaseKept => { b with kept := [], journal := closeKept b.journal b.kept }
  | _ => b

/-- Carries out a step on a job that is there. -/
def stepOn (b : Bench) (job : Job) : BenchAction → BenchAnswer × Bench
  | .setPercent percent =>
    match job.setPercent? percent with
    | some job => (.flag true, { b with job })
    | none => (.flag false, b)
  | .setPriority priority => (.nothing, { b with job := some { job with priority } })
  | .setConcurrent concurrent => (.nothing, { b with job := some { job with concurrent } })
  | .setNoBins noBins => (.nothing, { b with job := some { job with noBins } })
  | .setPolicy policy => (.nothing, { b with job := some { job with policy } })
  | .applyOptions raw =>
    match job.applyOptions raw b.journal with
    | (.error stop, journal) => (.outcome (.error stop), { b with journal })
    | (.ok job, journal) => (.outcome (.ok ()), { b with job := some job, journal })
  | .applyUnchecked options =>
    match job.apply options with
    | .error f => (.outcome (.error (.fault f)), b)
    | .ok job => (.outcome (.ok ()), { b with job })
  | .attach moduleName functionName raw limits keep =>
    match b.journal.convert limits raw with
    | (.error e, journal) => (.outcome (.error (.failure e.failure)), { b with journal })
    | (.ok args, journal) =>
      match job.attach? ⟨moduleName, functionName, args⟩ with
      | some job => (.outcome (.ok ()), { b with job, journal })
      | none =>
        if keep then (.rejected args, b.keep (.list args) journal)
        else (.rejected args, { b with journal := journal.release .argList })
  | .attachKept moduleName functionName place =>
    match b.kept[place]? with
    | some (.list args) =>
      match job.attach? ⟨moduleName, functionName, args⟩ with
      | some job => (.outcome (.ok ()), { b with job, kept := b.kept.eraseIdx place })
      | none => (.rejected args, b)
    | _ => (.nothing, b)
  | .copyUdf listOnly =>
    match job.udf with
    | none => (.nothing, b)
    | some udf => (.nothing, b.keep ((Holder.call udf).copy listOnly) b.journal.duplicate)
  | .cloneUdf =>
    match job.udf with
    | none => (.compared true b.journal.ledger, b)
    | some udf =>
      let held := b.journal.duplicate
      (.compared (udf.sameAs udf) held.ledger, { b with journal := held.release .argList })
  | .drop => (.nothing, { b with job := none, journal := b.journal.closeJob job })
  | action => (.nothing, b.stepKept action)

/-- Carries out a step. Once the job is dropped, only what is kept can be worked on. -/
def step (b : Bench) (action : BenchAction) : BenchAnswer × Bench :=
  match b.job with
  | some job => b.stepOn job action
  | none => (.nothing, b.stepKept action)

end Bench

end BackgroundScan
