import BackgroundScan.Event

/-!
# Accounts of several ledgers

Ledgers can be shared: a clone of a ledger counts on the same account. `Accounts` holds the
accounts, the ledgers with the account each of them counts on, and the leases, each in the slot it
was given; a slot whose lease was dropped stays empty.

`Accounts.step` carries out one action and returns its answer with the events it caused. A cloned
lease counts on the account of its first lease, and no event shows that it was taken.
-/

namespace BackgroundScan

/-- A lease that is held. -/
structure Lease where
  resource : Resource
  /-- The account it counts on. -/
  account : Nat
  deriving DecidableEq, Repr

/-- Accounts, ledgers and leases. -/
structure Accounts where
  accounts : List Ledger
  /-- The account of each ledger. -/
  ledgers : List Nat
  /-- The lease of each slot. -/
  slots : List (Option Lease)
  deriving DecidableEq, Repr

/-- What can be done with leases and ledgers. -/
inductive LeaseAction
  | acquire (resource : Resource) (ledger : Nat)
  | duplicate (slot : Nat)
  | drop (slot : Nat)
  | cloneLedger (ledger : Nat)
  | newLedger
  deriving DecidableEq, Repr

/-- The answer to an action. -/
inductive LeaseAnswer
  /-- A lease was taken into a slot. -/
  | taken (slot : Nat) (resource : Resource)
  /-- There was nothing to act on. -/
  | nothing
  /-- Whether the slot held a lease. -/
  | dropped (wasHeld : Bool)
  /-- A ledger was made. -/
  | ledger (index : Nat)
  deriving DecidableEq, Repr

namespace Accounts

/-- One ledger on one account, and no lease. -/
def start : Accounts := ⟨[.empty], [0], []⟩

/-- The lease of a slot. -/
def lease? (a : Accounts) (slot : Nat) : Option Lease := (a.slots[slot]?).join

/-- The counts that a ledger shows. -/
def shown (a : Accounts) : List Ledger := a.ledgers.map fun i => a.accounts[i]?.getD .empty

/-- Takes a lease on an account into a new slot. -/
def take (a : Accounts) (lease : Lease) : Accounts :=
  { a with
    accounts := a.accounts.modify lease.account Ledger.acquire
    slots := a.slots ++ [some lease] }

/-- Empties a slot and gives its lease back. -/
def giveBack (a : Accounts) (slot : Nat) (lease : Lease) : Accounts :=
  { a with
    accounts := a.accounts.modify lease.account Ledger.release
    slots := a.slots.set slot none }

/-- Carries out an action. -/
def step (a : Accounts) : LeaseAction → LeaseAnswer × Accounts × List Event
  | .acquire resource ledger =>
    match a.ledgers[ledger]? with
    | none => (.nothing, a, [])
    | some account =>
      (.taken a.slots.length resource, a.take ⟨resource, account⟩, [.acquired resource])
  | .duplicate slot =>
    match a.lease? slot with
    | none => (.nothing, a, [])
    | some lease => (.taken a.slots.length lease.resource, a.take lease, [])
  | .drop slot =>
    match a.lease? slot with
    | none => (.dropped false, a, [])
    | some lease => (.dropped true, a.giveBack slot lease, [.released lease.resource])
  | .cloneLedger ledger =>
    match a.ledgers[ledger]? with
    | none => (.nothing, a, [])
    | some account => (.ledger a.ledgers.length, { a with ledgers := a.ledgers ++ [account] }, [])
  | .newLedger =>
    (.ledger a.ledgers.length,
      { a with
        accounts := a.accounts ++ [.empty]
        ledgers := a.ledgers ++ [a.accounts.length] }, [])

end Accounts

end BackgroundScan
