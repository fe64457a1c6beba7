import BackgroundScan.Stage
import BackgroundScan.Failure

/-!
# Faults

A fault is a broken rule of this library's own: an operation that was used where it must not be.
It ends the operation at once and is no failure of a call, which its caller would get as a report.
A step of a call can stop for either reason.
-/

namespace BackgroundScan

/-- A use of an operation where it must not be used. -/
inductive Fault
  /-- A move between stages that is not allowed. -/
  | illegalMove (origin target : Stage)
  /-- Options applied with a percentage that validation would have refused. -/
  | unvalidatedPercent (percent : UInt8)
  /-- A difference past the signed range. -/
  | differenceOverflow
  deriving DecidableEq, Repr

/-- The wording of a fault. -/
def Fault.message : Fault → String
  | .illegalMove origin target =>
    "illegal stage transition " ++ origin.text ++ " -> " ++ target.text
  | .unvalidatedPercent percent => "unvalidated percent " ++ toString percent.toNat
  | .differenceOverflow => "attempt to subtract with overflow"

/-- Why a step of a call did not finish. -/
inductive Stop
  | failure (f : Failure)
  | fault (f : Fault)
  deriving DecidableEq, Repr

end BackgroundScan
