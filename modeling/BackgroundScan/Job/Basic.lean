import BackgroundScan.Argument.Value
import BackgroundScan.Fault
import BackgroundScan.Options
import BackgroundScan.Policy

/-!
# Jobs

A `Job` describes one background scan: the namespace and the set it goes through, its options, its
policy, and the function that is applied to every record. A function is attached once; its module
and its own name have from 1 to 63 bytes.

Main statements:
* `setPercent?_eq_some_iff`: a percentage is taken exactly when it is at most 100.
* `attach?_eq_some_iff`: when a function is attached.
-/

namespace BackgroundScan

/-- The longest name of a module or a function, in bytes. -/
def nameLimit : Nat := 63

/-- A function with its arguments, to be applied to every record. -/
structure Udf where
  moduleName : String
  functionName : String
  args : List Value

/-- A background scan. -/
structure Job where
  /-- The namespace. -/
  space : String
  set : String
  /-- What part of the records is sampled, in percent. -/
  percent : UInt8
  priority : Priority
  /-- Whether the nodes are scanned in parallel. -/
  concurrent : Bool
  /-- Whether bins are left out. -/
  noBins : Bool
  /-- The policy, if the caller gave one. -/
  policy : Option ScanPolicy
  /-- The function, once it is attached. -/
  udf : Option Udf

/-- Whether a name has a length that the store accepts. -/
def nameFits (name : String) : Bool := name != "" && decide (name.utf8ByteSize ≤ nameLimit)

namespace Job

/-- A job with no options, no policy and no function. -/
def new (space set : String) : Job := ⟨space, set, 100, .auto, false, false, none, none⟩

/-- Sets the percentage, unless it is above 100. -/
def setPercent? (job : Job) (percent : UInt8) : Option Job :=
  if 100 < percent then none else some { job with percent }

/-- Attaches a function, unless there is one or a name does not fit. -/
def attach? (job : Job) (udf : Udf) : Option Job :=
  if job.udf.isSome || !nameFits udf.moduleName || !nameFits udf.functionName then none
  else some { job with udf := some udf }

/-- Sets the options that are given. A percentage above 100 is a fault, because validation refuses
it. -/
def apply (job : Job) (o : ScanOptions) : Except Fault Job :=
  let rest (job : Job) : Job :=
    { job with
      priority := o.priority.getD job.priority
      concurrent := o.concurrent.getD job.concurrent
      noBins := o.noBins.getD job.noBins }
  match o.percent with
  | none => .ok (rest job)
  | some percent =>
    match job.setPercent? percent with
    | none => .error (.unvalidatedPercent percent)
    | some job => .ok (rest job)

theorem setPercent?_eq_some_iff {job after : Job} {percent : UInt8} :
    job.setPercent? percent = some after ↔ percent ≤ 100 ∧ after = { job with percent } := by
  unfold setPercent?
  split <;> simp_all [eq_comm, ← UInt8.not_le]

theorem attach?_eq_some_iff {job after : Job} {udf : Udf} :
    job.attach? udf = some after ↔
      job.udf = none ∧ nameFits udf.moduleName = true ∧ nameFits udf.functionName = true ∧
        after = { job with udf := some udf } := by
  unfold attach?
  cases job.udf <;> cases nameFits udf.moduleName <;> cases nameFits udf.functionName <;>
    simp [eq_comm]

end Job

end BackgroundScan
