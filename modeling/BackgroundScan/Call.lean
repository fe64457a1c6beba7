import BackgroundScan.Journal

/-!
# Calls

A call knows its operation and its stage. `Call.enter` moves it to another stage and notes the
move; a move that is not allowed is a fault and leaves no trace. `Call.finish` ends a call with its
outcome: a failure is noted and reported, and either way the call cleans up and returns.

Main statement: `enter_eq_error_iff`, a move faults exactly when it is not allowed.
-/

namespace BackgroundScan

/-- A call under way. -/
structure Call where
  operation : Operation
  stage : Stage
  deriving DecidableEq, Repr

namespace Call

/-- Moves to another stage. -/
def enter (c : Call) (target : Stage) (j : Journal) : Except Fault (Call × Journal) :=
  if c.stage.canAdvanceTo target then
    .ok ({ c with stage := target }, j.note (.moved c.operation c.stage target))
  else .error (.illegalMove c.stage target)

/-- Starts a call, which validates its input first. -/
def start (operation : Operation) (j : Journal) : Call × Journal :=
  (⟨operation, .validating⟩, j.note (.moved operation .start .validating))

/-- Moves to the stage in which the operation does its work. -/
def beginWork (c : Call) (j : Journal) : Except Fault (Call × Journal) :=
  c.enter c.operation.workStage j

/-- Moves through stages in order, as far as that is allowed. -/
def enterAll (c : Call) (j : Journal) : List Stage → Except Fault Unit × Journal
  | [] => (.ok (), j)
  | target :: rest =>
    match c.enter target j with
    | .error f => (.error f, j)
    | .ok (c, j) => c.enterAll j rest

/-- Ends a call with its outcome. -/
def finish {α : Type} (c : Call) (outcome : Except Failure α) (j : Journal) :
    Except Fault (Except Report α) × Journal :=
  match outcome with
  | .ok value =>
    let (ended, j) := c.enterAll j [.success, .cleanup, .done]
    (ended.map fun _ => .ok value, j)
  | .error failure =>
    let j := j.note (.callFailed c.operation c.stage failure)
    let (ended, j) := c.enterAll j [.failed, .cleanup, .done]
    (ended.map fun _ => .error failure.report, j)

/-- What can be done with a call that was started. -/
inductive Action
  | beginWork
  /-- Ends the call with a value. -/
  | succeed (value : Int64)
  /-- Ends the call with a failure. -/
  | fail (failure : Failure)

/-- The answer to an action: a fault, a report, or a value if there is one. -/
abbrev Answer := Except Fault (Except Report (Option Int64))

/-- Carries out an action on a call. Ending a call consumes it, even where that is a fault. -/
def step (c : Call) (j : Journal) : Action → Answer × Option Call × Journal
  | .beginWork =>
    match c.beginWork j with
    | .error f => (.error f, some c, j)
    | .ok (c, j) => (.ok (.ok none), some c, j)
  | .succeed value =>
    let (outcome, j) := c.finish (.ok (some value)) j
    (outcome, none, j)
  | .fail failure =>
    let (outcome, j) := c.finish (.error failure) j
    (outcome, none, j)

theorem enter_eq_error_iff {c : Call} {target : Stage} {j : Journal} {f : Fault} :
    c.enter target j = .error f ↔
      c.stage.canAdvanceTo target = false ∧ f = .illegalMove c.stage target := by
  unfold enter
  cases c.stage.canAdvanceTo target
  · simp only [Bool.false_eq_true, ↓reduceIte, Except.error.injEq, true_and]
    exact eq_comm
  · simp

end Call

end BackgroundScan
