import Mathlib.Data.List.Perm.Basic
import BackgroundScan.Lease.Accounts

/-!
# What happens to leases

A lease is taken from a ledger or as a clone of another lease, and later it is given back. Whatever
else an action does, this is all that its ledger counts; and all but the clones shows as an event.

1. `historyFrom`: the actions of a run, each with the state in which it is carried out.
   `history_induction`: what every action keeps holds after a run.
2. `LeaseMove`: what happens to one lease. `Ledger.after`: a ledger that has counted moves.
   `Conserves`: a lease that came in is held or was given back.
3. `Accounts.moves`: the moves of an action on accounts. `LeaseStep`: all that an action can do;
   `leaseStep_next`: every action does one of these. `LeaseStep.accounts`, `LeaseStep.conserves` and
   `events_step`: the moves decide the counts, the leases that are held, and the events.
4. `Accounts.Accounted`: what the moves of a run say of its accounts. `accounted_run`: they do so
   after every run.
-/

namespace BackgroundScan

/-! ## 1. Histories -/

section Histories

variable {σ α : Type}

/-- The actions of a run, each with the state in which it is carried out. -/
def historyFrom (next : σ → α → σ) (s : σ) : List α → List (σ × α)
  | [] => []
  | action :: rest => (s, action) :: historyFrom next (next s action) rest

/-- If every action keeps a relation between the state and the history up to it, a run keeps it. -/
theorem history_induction {next : σ → α → σ} {R : σ → List (σ × α) → Prop}
    (hstep : ∀ s past action, R s past → R (next s action) (past ++ [(s, action)]))
    {s : σ} (h : R s []) (actions : List α) :
    R (actions.foldl next s) (historyFrom next s actions) := by
  -- the state and the history change together along the run, so both are general
  suffices hpast : ∀ s past, R s past →
      R (actions.foldl next s) (past ++ historyFrom next s actions) from hpast s [] h
  clear h s
  induction actions with
  | nil =>
    intro s past h
    rwa [historyFrom, List.append_nil]
  | cons action rest ih =>
    intro s past h
    have hrest := ih (next s action) _ (hstep s past action h)
    rwa [List.append_assoc] at hrest

end Histories

/-! ## 2. Moves -/

/-- What happens to one lease. -/
inductive LeaseMove
  /-- It is taken from a ledger. -/
  | taken (lease : Lease)
  /-- It is taken as a clone of a lease. -/
  | cloned (lease : Lease)
  /-- It is given back. -/
  | returned (lease : Lease)
  deriving DecidableEq, Repr

namespace LeaseMove

/-- The lease that is moved. -/
def lease : LeaseMove → Lease
  | taken lease => lease
  | cloned lease => lease
  | returned lease => lease

/-- The lease that comes in. -/
def gain? : LeaseMove → Option Lease
  | taken lease => some lease
  | cloned lease => some lease
  | returned _ => none

/-- The lease that is given back. -/
def loss? : LeaseMove → Option Lease
  | returned lease => some lease
  | _ => none

/-- The event that shows a move. -/
def event? : LeaseMove → Option Event
  | taken lease => some (.acquired lease.resource)
  | cloned _ => none
  | returned lease => some (.released lease.resource)

end LeaseMove

/-- The leases that come in with moves. -/
def gained (moves : List LeaseMove) : List Lease := moves.filterMap LeaseMove.gain?

/-- The leases that are given back with moves. -/
def givenBack (moves : List LeaseMove) : List Lease := moves.filterMap LeaseMove.loss?

/-- The moves of leases on an account. -/
def movesOn (account : Nat) (moves : List LeaseMove) : List LeaseMove :=
  moves.filter fun move => move.lease.account == account

/-- The ledger after moves. -/
def Ledger.after (l : Ledger) (moves : List LeaseMove) : Ledger :=
  ⟨l.acquired + (gained moves).length, l.released + (givenBack moves).length⟩

/-- Moves lead from the leases held before to those held after: none is lost and none appears. -/
def Conserves (before : List Lease) (moves : List LeaseMove) (after : List Lease) : Prop :=
  (before ++ gained moves).Perm (after ++ givenBack moves)

namespace LeaseMoveLemmas

theorem gained_append (moves moves' : List LeaseMove) :
    gained (moves ++ moves') = gained moves ++ gained moves' := List.filterMap_append

theorem givenBack_append (moves moves' : List LeaseMove) :
    givenBack (moves ++ moves') = givenBack moves ++ givenBack moves' := List.filterMap_append

theorem movesOn_append (account : Nat) (moves moves' : List LeaseMove) :
    movesOn account (moves ++ moves') = movesOn account moves ++ movesOn account moves' :=
  List.filter_append _ _

theorem after_append (l : Ledger) (moves moves' : List LeaseMove) :
    l.after (moves ++ moves') = (l.after moves).after moves' := by
  simp only [Ledger.after, gained_append, givenBack_append, List.length_append, Nat.add_assoc]

theorem gained_movesOn (account : Nat) (moves : List LeaseMove) :
    gained (movesOn account moves) = (gained moves).filter (·.account == account) := by
  rw [gained, gained, movesOn, List.filterMap_filter, List.filter_filterMap]
  congr 1
  funext move
  cases move <;> simp [LeaseMove.gain?, LeaseMove.lease, Option.filter]

theorem givenBack_movesOn (account : Nat) (moves : List LeaseMove) :
    givenBack (movesOn account moves) = (givenBack moves).filter (·.account == account) := by
  rw [givenBack, givenBack, movesOn, List.filterMap_filter, List.filter_filterMap]
  congr 1
  funext move
  cases move <;> simp [LeaseMove.loss?, LeaseMove.lease, Option.filter]

theorem conserves_nil (held : List Lease) : Conserves held [] held := List.Perm.refl _

theorem conserves_trans {before middle after : List Lease} {moves moves' : List LeaseMove}
    (h : Conserves before moves middle) (h' : Conserves middle moves' after) :
    Conserves before (moves ++ moves') after := by
  unfold Conserves at *
  rw [gained_append, givenBack_append, ← List.append_assoc]
  calc (before ++ gained moves ++ gained moves').Perm
        (middle ++ givenBack moves ++ gained moves') := h.append_right _
    _ |>.Perm (middle ++ gained moves' ++ givenBack moves) := by
        rw [List.append_assoc, List.append_assoc]
        exact List.perm_append_comm.append_left _
    _ |>.Perm (after ++ givenBack moves' ++ givenBack moves) := h'.append_right _
    _ |>.Perm (after ++ (givenBack moves ++ givenBack moves')) := by
        rw [List.append_assoc]
        exact List.perm_append_comm.append_left _

end LeaseMoveLemmas

/-! ## 3. The moves of an action on accounts -/

namespace Accounts

/-- One ledger on each of several accounts, and no lease. -/
def fresh (n : Nat) : Accounts := ⟨List.replicate n .empty, List.range n, []⟩

example : start = fresh 1 := rfl

/-- The leases that are held. -/
def held (a : Accounts) : List Lease := a.slots.filterMap id

/-- The accounts after an action. -/
def next (a : Accounts) (action : LeaseAction) : Accounts := (a.step action).2.1

/-- The events of an action. -/
def events (a : Accounts) (action : LeaseAction) : List Event := (a.step action).2.2

/-- What an action does to leases. -/
def moves (a : Accounts) : LeaseAction → List LeaseMove
  | .acquire resource ledger =>
    (a.ledgers[ledger]?.map fun account => .taken ⟨resource, account⟩).toList
  | .duplicate slot => ((a.lease? slot).map .cloned).toList
  | .drop slot => ((a.lease? slot).map .returned).toList
  | .cloneLedger _ => []
  | .newLedger => []

/-- The accounts after a run. -/
def run (a : Accounts) (actions : List LeaseAction) : Accounts := actions.foldl next a

/-- What a run does to leases. -/
def movesOf (a : Accounts) (actions : List LeaseAction) : List LeaseMove :=
  (historyFrom next a actions).flatMap fun e => e.1.moves e.2

/-- The events of a run. -/
def eventsOf (a : Accounts) (actions : List LeaseAction) : List Event :=
  (historyFrom next a actions).flatMap fun e => e.1.events e.2

end Accounts

namespace LeaseMoveLemmas

/-- A lease that is held is either in the slot that is emptied or still held. -/
theorem filterMap_set_none {slots : List (Option Lease)} {slot : Nat} {lease : Lease}
    (h : slots[slot]?.join = some lease) :
    (slots.filterMap id).Perm (lease :: (slots.set slot none).filterMap id) := by
  induction slots generalizing slot with
  | nil => cases h
  | cons first rest ih =>
    cases slot with
    | zero =>
      obtain rfl : first = some lease := h
      exact List.Perm.refl _
    | succ slot =>
      have hlease : rest[slot]?.join = some lease := h
      have hrest := ih hlease
      cases first with
      | none => exact hrest
      | some other => exact (hrest.cons other).trans (List.Perm.swap lease other _)

end LeaseMoveLemmas

open LeaseMoveLemmas

/-- All that an action can do, with its answer and its moves. -/
inductive LeaseStep (a : Accounts) : LeaseAction → LeaseAnswer → List LeaseMove → Accounts → Prop
  | acquired {resource : Resource} {ledger account : Nat}
      (hledger : a.ledgers[ledger]? = some account) :
    LeaseStep a (.acquire resource ledger) (.taken a.slots.length resource)
      [.taken ⟨resource, account⟩] (a.take ⟨resource, account⟩)
  | notAcquired {resource : Resource} {ledger : Nat} (hnone : a.ledgers[ledger]? = none) :
    LeaseStep a (.acquire resource ledger) .nothing [] a
  | duplicated {slot : Nat} {lease : Lease} (hlease : a.lease? slot = some lease) :
    LeaseStep a (.duplicate slot) (.taken a.slots.length lease.resource) [.cloned lease]
      (a.take lease)
  | notDuplicated {slot : Nat} (hnone : a.lease? slot = none) :
    LeaseStep a (.duplicate slot) .nothing [] a
  | dropped {slot : Nat} {lease : Lease} (hlease : a.lease? slot = some lease) :
    LeaseStep a (.drop slot) (.dropped true) [.returned lease] (a.giveBack slot lease)
  | notDropped {slot : Nat} (hnone : a.lease? slot = none) :
    LeaseStep a (.drop slot) (.dropped false) [] a
  | ledgerCloned {ledger account : Nat} (hledger : a.ledgers[ledger]? = some account) :
    LeaseStep a (.cloneLedger ledger) (.ledger a.ledgers.length) []
      { a with ledgers := a.ledgers ++ [account] }
  | notCloned {ledger : Nat} (hnone : a.ledgers[ledger]? = none) :
    LeaseStep a (.cloneLedger ledger) .nothing [] a
  | ledgerMade :
    LeaseStep a .newLedger (.ledger a.ledgers.length) []
      { a with
        accounts := a.accounts ++ [.empty]
        ledgers := a.ledgers ++ [a.accounts.length] }

namespace Accounts

/-- Every action does one of these. -/
theorem leaseStep_next (a : Accounts) (action : LeaseAction) :
    LeaseStep a action (a.step action).1 (a.moves action) (a.next action) := by
  cases action with
  | acquire resource ledger =>
    simp only [next, step, moves]
    cases hledger : a.ledgers[ledger]? with
    | none => exact .notAcquired hledger
    | some account => exact .acquired hledger
  | duplicate slot =>
    simp only [next, step, moves]
    cases hlease : a.lease? slot with
    | none => exact .notDuplicated hlease
    | some lease => exact .duplicated hlease
  | drop slot =>
    simp only [next, step, moves]
    cases hlease : a.lease? slot with
    | none => exact .notDropped hlease
    | some lease => exact .dropped hlease
  | cloneLedger ledger =>
    simp only [next, step, moves]
    cases hledger : a.ledgers[ledger]? with
    | none => exact .notCloned hledger
    | some account => exact .ledgerCloned hledger
  | newLedger => exact .ledgerMade

/-- The events of an action are those that show its moves. -/
theorem events_step (a : Accounts) (action : LeaseAction) :
    a.events action = (a.moves action).filterMap LeaseMove.event? := by
  cases action with
  | acquire resource ledger | cloneLedger ledger =>
    simp only [events, step, moves]
    cases a.ledgers[ledger]? <;> rfl
  | duplicate slot | drop slot =>
    simp only [events, step, moves]
    cases a.lease? slot <;> rfl
  | newLedger => rfl

theorem mem_held {a : Accounts} {slot : Nat} {lease : Lease} (h : a.lease? slot = some lease) :
    lease ∈ a.held :=
  List.mem_filterMap.mpr ⟨some lease, List.mem_of_getElem? (Option.join_eq_some_iff.mp h), rfl⟩

end Accounts

namespace LeaseMoveLemmas

/-- A count on one account is a move on it. -/
theorem modify_eq_mapIdx (move : LeaseMove) {count : Ledger → Ledger}
    (h : ∀ l : Ledger, count l = l.after [move]) (accounts : List Ledger) :
    accounts.modify move.lease.account count =
      accounts.mapIdx fun i l => l.after (movesOn i [move]) := by
  refine List.ext_getElem? fun i => ?_
  rw [List.getElem?_modify, List.getElem?_mapIdx]
  by_cases hi : move.lease.account = i
  · simp [movesOn, hi, h]
  · simp [movesOn, hi, Ledger.after, gained, givenBack]

end LeaseMoveLemmas

namespace LeaseStep

variable {a a' : Accounts} {action : LeaseAction} {answer : LeaseAnswer} {moves : List LeaseMove}

/-- The accounts that there are count the moves of an action; one that it opens is empty. -/
theorem accounts (h : LeaseStep a action answer moves a') :
    a'.accounts = (a.accounts.mapIdx fun i l => l.after (movesOn i moves)) ∨
      moves = [] ∧ a'.accounts = a.accounts ++ [.empty] := by
  have hsame : a.accounts = a.accounts.mapIdx fun i l => l.after (movesOn i []) :=
    (List.mapIdx_eq_iff.mpr fun i => Option.map_id_apply.symm).symm
  cases h with
  | @acquired resource ledger account hledger =>
    exact .inl (modify_eq_mapIdx (.taken ⟨resource, account⟩) (fun _ => rfl) a.accounts)
  | @duplicated slot lease hlease =>
    exact .inl (modify_eq_mapIdx (.cloned lease) (fun _ => rfl) a.accounts)
  | @dropped slot lease hlease =>
    exact .inl (modify_eq_mapIdx (.returned lease) (fun _ => rfl) a.accounts)
  | notAcquired | notDuplicated | notDropped | ledgerCloned | notCloned => exact .inl hsame
  | ledgerMade => exact .inr ⟨rfl, rfl⟩

/-- An action takes and gives back the leases that its moves say. -/
theorem conserves (h : LeaseStep a action answer moves a') : Conserves a.held moves a'.held := by
  have htake (lease : Lease) : (a.take lease).held = a.held ++ [lease] := List.filterMap_append
  cases h with
  | acquired | duplicated =>
    rw [Conserves, htake]
    exact .of_eq (List.append_nil _).symm
  | @dropped slot lease hlease =>
    show (a.held ++ []).Perm ((a.giveBack slot lease).held ++ [lease])
    rw [List.append_nil]
    exact (filterMap_set_none hlease).trans (List.perm_append_singleton _ _).symm
  | notAcquired | notDuplicated | notDropped | ledgerCloned | notCloned | ledgerMade =>
    exact conserves_nil _

end LeaseStep

/-! ## 4. Runs -/

namespace Accounts

/-- What moves say of accounts that began with no lease. -/
structure Accounted (a : Accounts) (past : List LeaseMove) : Prop where
  ledgers_lt : ∀ account ∈ a.ledgers, account < a.accounts.length
  moves_lt : ∀ move ∈ past, move.lease.account < a.accounts.length
  counts : ∀ account ledger, a.accounts[account]? = some ledger →
    ledger = Ledger.empty.after (movesOn account past)
  conserves : Conserves [] past a.held

namespace Accounted

variable {a a' : Accounts} {past moves : List LeaseMove} {action : LeaseAction}
  {answer : LeaseAnswer}

/-- A lease that is held once came in, so its account is known. -/
theorem held_lt (h : a.Accounted past) {lease : Lease} (hheld : lease ∈ a.held) :
    lease.account < a.accounts.length := by
  have hgained : lease ∈ gained past :=
    h.conserves.mem_iff.mpr (List.mem_append_left _ hheld)
  obtain ⟨move, hmove, hgain⟩ := List.mem_filterMap.mp hgained
  have hlt := h.moves_lt move hmove
  cases move with
  | taken _ | cloned _ =>
    obtain rfl := Option.some.inj hgain
    exact hlt
  | returned _ => cases hgain

/-- The moves of an action are on accounts that there are. -/
theorem account_lt (h : a.Accounted past) (hstep : LeaseStep a action answer moves a') :
    ∀ move ∈ moves, move.lease.account < a.accounts.length := by
  cases hstep with
  | acquired hledger =>
    exact List.forall_mem_singleton.mpr (h.ledgers_lt _ (List.mem_of_getElem? hledger))
  | duplicated hlease | dropped hlease =>
    exact List.forall_mem_singleton.mpr (h.held_lt (mem_held hlease))
  | notAcquired | notDuplicated | notDropped | ledgerCloned | notCloned | ledgerMade =>
    exact List.forall_mem_nil _

theorem ledgers_lt_next (h : a.Accounted past) (hstep : LeaseStep a action answer moves a') :
    ∀ account ∈ a'.ledgers, account < a'.accounts.length := by
  cases hstep with
  | acquired | duplicated =>
    rw [take, List.length_modify]
    exact h.ledgers_lt
  | dropped =>
    rw [giveBack, List.length_modify]
    exact h.ledgers_lt
  | notAcquired | notDuplicated | notDropped | notCloned => exact h.ledgers_lt
  | ledgerCloned hledger =>
    exact List.forall_mem_append.mpr ⟨h.ledgers_lt,
      List.forall_mem_singleton.mpr (h.ledgers_lt _ (List.mem_of_getElem? hledger))⟩
  | ledgerMade =>
    rw [List.length_append, List.length_singleton]
    exact List.forall_mem_append.mpr
      ⟨fun account hold => Nat.lt_succ_of_lt (h.ledgers_lt account hold),
        List.forall_mem_singleton.mpr (Nat.lt_succ_self _)⟩

theorem next (h : a.Accounted past) (hstep : LeaseStep a action answer moves a') :
    a'.Accounted (past ++ moves) where
  ledgers_lt := h.ledgers_lt_next hstep
  moves_lt := by
    have hlength : a.accounts.length ≤ a'.accounts.length := by
      rcases hstep.accounts with haccounts | ⟨-, haccounts⟩ <;> simp [haccounts]
    exact List.forall_mem_append.mpr
      ⟨fun move hmove => Nat.lt_of_lt_of_le (h.moves_lt move hmove) hlength,
        fun move hmove => Nat.lt_of_lt_of_le (h.account_lt hstep move hmove) hlength⟩
  counts := by
    intro account ledger hledger
    rcases hstep.accounts with haccounts | ⟨rfl, haccounts⟩
    · rw [haccounts, List.getElem?_mapIdx] at hledger
      obtain ⟨before, hbefore, rfl⟩ := Option.map_eq_some_iff.mp hledger
      rw [movesOn_append, after_append, ← h.counts account before hbefore]
    · rw [List.append_nil]
      rw [haccounts, List.getElem?_append] at hledger
      split at hledger
      · exact h.counts account ledger hledger
      next hnew =>
        -- no move was made on an account that was not open
        have hnone : movesOn account past = [] :=
          List.filter_eq_nil_iff.mpr fun move hmove hon =>
            hnew (beq_iff_eq.mp hon ▸ h.moves_lt move hmove)
        rw [hnone]
        exact List.mem_singleton.mp (List.mem_of_getElem? hledger)
  conserves := conserves_trans h.conserves hstep.conserves

end Accounted

theorem accounted_fresh (n : Nat) : (fresh n).Accounted [] where
  ledgers_lt := by
    intro account h
    rw [fresh, List.length_replicate]
    exact List.mem_range.mp h
  moves_lt := fun move h => absurd h List.not_mem_nil
  counts := fun account ledger h => List.eq_of_mem_replicate (List.mem_of_getElem? h)
  conserves := conserves_nil []

/-- After any run of new ledgers the accounts are as its moves say. -/
theorem accounted_run (n : Nat) (actions : List LeaseAction) :
    ((fresh n).run actions).Accounted ((fresh n).movesOf actions) := by
  refine history_induction
    (R := fun (a : Accounts) past => a.Accounted (past.flatMap fun e => e.1.moves e.2))
    ?_ (accounted_fresh n) actions
  intro a past action h
  rw [List.flatMap_append, List.flatMap_singleton]
  exact h.next (a.leaseStep_next action)

end Accounts

end BackgroundScan
