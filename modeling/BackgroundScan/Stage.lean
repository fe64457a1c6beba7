/-!
# The stages of a call

Every call goes through the same stages. It starts, validates its input, works in the stage of its
operation, succeeds or fails, cleans up and returns; a call may also fail while it validates.

Main statement: `rank_lt_of_canAdvanceTo`, every allowed move goes forward, so no stage comes twice.
-/

namespace BackgroundScan

/-- What a caller asks for. -/
inductive Operation
  | scanApply
  | scanInfo
  deriving DecidableEq, Repr

/-- A stage of a call. -/
inductive Stage
  | start
  | validating
  | building
  | querying
  | success
  | failed
  | cleanup
  | done
  deriving DecidableEq, Repr

/-- The name of an operation. -/
def Operation.text : Operation → String
  | .scanApply => "scan_apply"
  | .scanInfo => "scan_info"

/-- The stage in which an operation does its work. -/
def Operation.workStage : Operation → Stage
  | .scanApply => .building
  | .scanInfo => .querying

namespace Stage

/-- The name of a stage. -/
def text : Stage → String
  | start => "start"
  | validating => "validating"
  | building => "building"
  | querying => "querying"
  | success => "success"
  | failed => "failed"
  | cleanup => "cleanup"
  | done => "return"

/-- All stages, in the order in which a call can meet them. -/
def all : List Stage := [start, validating, building, querying, success, failed, cleanup, done]

/-- The stage with a name. -/
def ofText? (name : String) : Option Stage := all.find? fun s => s.text == name

/-- Whether a call may move from one stage to another. -/
def canAdvanceTo : Stage → Stage → Bool
  | start, validating => true
  | validating, building => true
  | validating, querying => true
  | validating, failed => true
  | building, success => true
  | building, failed => true
  | querying, success => true
  | querying, failed => true
  | success, cleanup => true
  | failed, cleanup => true
  | cleanup, done => true
  | _, _ => false

/-- How far along a stage is. -/
def rank : Stage → Nat
  | start => 0
  | validating => 1
  | building => 2
  | querying => 2
  | success => 3
  | failed => 3
  | cleanup => 4
  | done => 5

theorem rank_lt_of_canAdvanceTo {a b : Stage} (h : a.canAdvanceTo b = true) :
    a.rank < b.rank := by
  cases a <;> cases b <;> simp_all [canAdvanceTo, rank]

end Stage

end BackgroundScan
