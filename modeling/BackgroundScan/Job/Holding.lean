import BackgroundScan.Job.Bench
import BackgroundScan.Lease.Accounts

/-!
# Argument lists on several ledgers

On a `Bench` all lists hold leases of one ledger. Lists may also be on different ledgers. A
`Holding` is such a list, or a function with it, and has the slot of its lease among the accounts
of the ledgers. A clone has a slot of its own. Two holdings are compared by what they hold: on
which ledgers they are plays no part.
-/

namespace BackgroundScan

/-- Equality of lists, and of functions with their lists. -/
def Holder.sameAs : Holder → Holder → Bool
  | .list as, .list bs => Value.sameItems as bs
  | .call f, .call g => f.sameAs g
  | _, _ => false

/-- An argument list, by itself or in a call, with the slot of its lease. -/
structure Holding where
  holder : Holder
  slot : Nat

namespace Holding

/-- The argument list that is held. -/
def args (h : Holding) : List Value := h.holder.args

/-- Equality of what is held. -/
def sameAs (h h' : Holding) : Bool := h.holder.sameAs h'.holder

/-- A function with the list that is held; the lease of the list goes with it. -/
def inCall (h : Holding) (moduleName functionName : String) : Holding :=
  { h with holder := .call ⟨moduleName, functionName, h.args⟩ }

end Holding

namespace Accounts

/-- Carries out an action that takes a lease, for something that holds a list. -/
def hold? (a : Accounts) (action : LeaseAction) (holder : Holder) : Option (Holding × Accounts) :=
  match a.step action with
  | (.taken slot _, a, _) => some (⟨holder, slot⟩, a)
  | _ => none

/-- Converts an array into a list on a ledger, if there is such a ledger. -/
def convert (a : Accounts) (ledger : Nat) (limits : Limits) (raw : Json) :
    Except ConversionError (Option (Holding × Accounts)) :=
  (convertArguments limits raw).map fun args => a.hold? (.acquire .argList ledger) (.list args)

/-- Clones a holding that was not dropped. -/
def clone? (a : Accounts) (h : Holding) : Option (Holding × Accounts) :=
  a.hold? (.duplicate h.slot) h.holder

end Accounts

end BackgroundScan
