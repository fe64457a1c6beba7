import BackgroundScan.Proofs.Lifecycle

/-!
# Calls that are moved by hand

A call can be moved by hand: its work is begun any number of times, and then the call is ended.
Only the first beginning counts. Every later one is a fault, and so is a success without any work;
a failure is reported in either case. A fault comes before anything is noted or changed.

1. `Call.attempted`: a call after several attempts to begin the work. `attempted_succ`: all attempts
   but the first leave it as it is.
2. `Call.KeepsProtocol`: what is seen of such a call, of one more attempt, and of its end.
   `begins_and_ends_once`: this is seen of every call.
-/

namespace BackgroundScan

open LifecycleLemmas

namespace Call

/-! ## 1. Beginning the work -/

/-- A call and its journal after an attempt to begin the work. -/
def afterAttempt (c : Call) (j : Journal) : Call × Journal :=
  let (_, left, noted) := c.step j .beginWork
  (left.getD c, noted)

/-- A call that was started, with its journal, after several attempts to begin the work. -/
def attempted (operation : Operation) (j : Journal) : (attempts : Nat) → Call × Journal
  | 0 => Call.start operation j
  | n + 1 => (attempted operation j n).1.afterAttempt (attempted operation j n).2

/-- An attempt begins the work of a call that validates its input. -/
theorem step_beginWork_validating (operation : Operation) (j : Journal) :
    (⟨operation, .validating⟩ : Call).step j .beginWork =
      (.ok (.ok none), some ⟨operation, operation.workStage⟩,
        j.note (.moved operation .validating operation.workStage)) := by
  cases operation <;> rfl

/-- An attempt is a fault where the work is begun, and leaves everything as it is. -/
theorem step_beginWork_working (operation : Operation) (j : Journal) :
    (⟨operation, operation.workStage⟩ : Call).step j .beginWork =
      (.error (.illegalMove operation.workStage operation.workStage),
        some ⟨operation, operation.workStage⟩, j) := by
  cases operation <;> rfl

/-- However often the work is begun, it is noted once. -/
theorem attempted_succ (operation : Operation) (j : Journal) (n : Nat) :
    attempted operation j (n + 1) =
      (⟨operation, operation.workStage⟩,
        (j.note (.moved operation .start .validating)).note
          (.moved operation .validating operation.workStage)) := by
  induction n with
  | zero =>
    show (⟨operation, .validating⟩ : Call).afterAttempt (j.note _) = _
    rw [afterAttempt, step_beginWork_validating]
    rfl
  | succ n ih =>
    rw [attempted, ih, afterAttempt, step_beginWork_working]
    rfl

/-! ## 2. Ending the call -/

/-- A success without any work is a fault, which leaves the journal as it is. -/
theorem finish_ok_validating {α : Type} (operation : Operation) (value : α) (j : Journal) :
    (⟨operation, .validating⟩ : Call).finish (.ok value) j =
      (.error (.illegalMove .validating .success), j) := rfl

/-- What is seen of a call after several attempts to begin the work, of one more attempt, and of
the end of the call with an outcome. -/
structure KeepsProtocol {α : Type} (operation : Operation) (j : Journal) (attempts : Nat)
    (outcome : Except Failure α) (c : Call) (before : Journal) : Prop where
  stage : c.stage = .validating ∧ attempts = 0 ∨ c.stage = operation.workStage ∧ 0 < attempts
  /-- The first attempt moves the call to its work stage. -/
  begins : attempts = 0 →
    c.step before .beginWork = (.ok (.ok none), some ⟨operation, operation.workStage⟩,
      before.note (.moved operation .validating operation.workStage))
  /-- Every later one is a fault, and leaves the call and its journal as they are. -/
  beginsOnce : 0 < attempts → ∃ fault, c.step before .beginWork = (.error fault, some c, before) ∧
    fault.message = "illegal stage transition " ++ operation.workStage.text ++ " -> " ++
      operation.workStage.text
  failed : ∀ f, outcome = .error f → (c.finish outcome before).1 = .ok (.error f.report)
  succeeded : ∀ value, outcome = .ok value →
    ((c.finish outcome before).1 = .ok (.ok value) ↔ 0 < attempts)
  /-- A success without any work is a fault, and nothing is noted. -/
  unworked : ∀ value, outcome = .ok value → attempts = 0 → ∃ fault,
    c.finish outcome before = (.error fault, before) ∧
      fault.message = "illegal stage transition validating -> success"
  /-- A call that ends has gone through its stages, each of them once. -/
  moves : ∀ result, (c.finish outcome before).1 = .ok result →
    movesOf (c.finish outcome before).2.events = movesOf j.events ++
      Move.along operation .start (.validating :: ((if attempts = 0 then [] else
        [operation.workStage]) ++ [if outcome.isOk then .success else .failed, .cleanup, .done]))

/-- A call that has not begun its work. -/
theorem keepsProtocol_validating {α : Type} (operation : Operation) (j : Journal)
    (outcome : Except Failure α) :
    KeepsProtocol operation j 0 outcome ⟨operation, .validating⟩
      (j.note (.moved operation .start .validating)) where
  stage := .inl ⟨rfl, rfl⟩
  begins := fun _ => step_beginWork_validating operation _
  beginsOnce := fun hlt => absurd hlt (Nat.lt_irrefl 0)
  failed := by
    rintro f rfl
    exact (finish_of_canAdvanceTo _ (.error f) _ rfl).1
  succeeded := by
    rintro value rfl
    exact ⟨nofun, fun hlt => absurd hlt (Nat.lt_irrefl 0)⟩
  unworked := by
    rintro value rfl -
    exact ⟨_, finish_ok_validating operation value _, rfl⟩
  moves := by
    intro result hended
    cases outcome with
    | ok value => cases hended
    | error f =>
      rw [(finish_of_canAdvanceTo _ (.error f) _ rfl).2, movesOf_append, movesOf_closing,
        Journal.events_note, movesOf_append, List.append_assoc]
      rfl

/-- A call that has begun its work. -/
theorem keepsProtocol_working {α : Type} (operation : Operation) (j : Journal) (n : Nat)
    (outcome : Except Failure α) :
    KeepsProtocol operation j (n + 1) outcome ⟨operation, operation.workStage⟩
      ((j.note (.moved operation .start .validating)).note
        (.moved operation .validating operation.workStage)) := by
  have hallowed : operation.workStage.canAdvanceTo
      (if outcome.isOk then .success else .failed) = true := by
    cases operation <;> cases outcome <;> rfl
  obtain ⟨hended, hevents⟩ := finish_of_canAdvanceTo ⟨operation, operation.workStage⟩ outcome
    ((j.note (.moved operation .start .validating)).note
      (.moved operation .validating operation.workStage)) hallowed
  exact {
    stage := .inr ⟨rfl, Nat.succ_pos n⟩
    begins := fun hzero => absurd hzero (Nat.succ_ne_zero n)
    beginsOnce := fun _ => ⟨_, step_beginWork_working operation _, rfl⟩
    failed := by
      rintro f rfl
      exact hended
    succeeded := by
      rintro value rfl
      exact ⟨fun _ => Nat.succ_pos n, fun _ => hended⟩
    unworked := fun _ _ hzero => absurd hzero (Nat.succ_ne_zero n)
    moves := by
      intro _ _
      rw [hevents, movesOf_append, movesOf_closing, Journal.events_note, Journal.events_note,
        movesOf_append, movesOf_append, List.append_assoc, List.append_assoc,
        if_neg (Nat.succ_ne_zero n)]
      rfl }

/-- Both operations keep to this, however often the work is begun and with any outcome. -/
theorem begins_and_ends_once {α : Type} (operation : Operation) (j : Journal) (attempts : Nat)
    (outcome : Except Failure α) :
    KeepsProtocol operation j attempts outcome (attempted operation j attempts).1
      (attempted operation j attempts).2 := by
  cases attempts with
  | zero => exact keepsProtocol_validating operation j outcome
  | succ n =>
    rw [attempted_succ]
    exact keepsProtocol_working operation j n outcome

end Call

end BackgroundScan
