import BackgroundScan.Number.WordCount

/-!
# Ledgers

A call takes a lease for each resource it holds, and gives it back when it is done with the
resource. A `Ledger` counts both, so that what was taken and not given back can be seen at any
time. The counts are unbounded; `Ledger.inWords` is what can be seen of them, in two words that
start over when they are full.

Main statements:
* `inWords_acquire`, `inWords_release`: the words count each lease once.
* `seenExactly`: a ledger is seen as it is until as many leases were taken as fill a word.
-/

namespace BackgroundScan

/-- What a lease stands for. -/
inductive Resource
  /-- The description of a job. -/
  | descriptor
  /-- A converted argument list. -/
  | argList
  deriving DecidableEq, Repr

/-- The name of a resource. -/
def Resource.text : Resource → String
  | .descriptor => "Descriptor"
  | .argList => "ArgList"

/-- How many leases were taken and given back. -/
structure Ledger where
  acquired : Nat
  released : Nat
  deriving DecidableEq, Repr

namespace Ledger

/-- The ledger of no lease. -/
def empty : Ledger := ⟨0, 0⟩

/-- Counts a lease taken. -/
def acquire (l : Ledger) : Ledger := { l with acquired := l.acquired + 1 }

/-- Counts a lease given back. -/
def release (l : Ledger) : Ledger := { l with released := l.released + 1 }

/-- How many leases are held. -/
def outstanding (l : Ledger) : Nat := l.acquired - l.released

end Ledger

/-- A ledger whose counts are words, which start over when they are full. -/
structure WordLedger where
  acquired : UInt64
  released : UInt64
  deriving DecidableEq, Repr

namespace WordLedger

/-- How many leases are held, and zero if more were given back than taken. -/
def outstanding (w : WordLedger) : UInt64 :=
  if w.released ≤ w.acquired then w.acquired - w.released else 0

end WordLedger

namespace Ledger

/-- The counts as words show them. -/
def inWords (l : Ledger) : WordLedger := ⟨wordCount l.acquired, wordCount l.released⟩

/-- Whether the words show the counts as they are. -/
structure SeenExactly (l : Ledger) : Prop where
  acquired : l.inWords.acquired.toNat = l.acquired
  released : l.inWords.released.toNat = l.released
  outstanding : l.inWords.outstanding.toNat = l.outstanding

theorem inWords_acquire (l : Ledger) :
    l.acquire.inWords = { l.inWords with acquired := l.inWords.acquired + 1 } := rfl

theorem inWords_release (l : Ledger) :
    l.release.inWords = { l.inWords with released := l.inWords.released + 1 } := rfl

theorem seenExactly {l : Ledger} (hle : l.released ≤ l.acquired)
    (hsize : l.acquired < UInt64.size) : l.SeenExactly := by
  have hacquired : l.inWords.acquired.toNat = l.acquired := toNat_wordCount_of_lt hsize
  have hreleased : l.inWords.released.toNat = l.released :=
    toNat_wordCount_of_lt (Nat.lt_of_le_of_lt hle hsize)
  have hwords : l.inWords.released ≤ l.inWords.acquired := by
    rwa [UInt64.le_iff_toNat_le, hacquired, hreleased]
  refine ⟨hacquired, hreleased, ?_⟩
  rw [WordLedger.outstanding, if_pos hwords, UInt64.toNat_sub_of_le _ _ hwords, hacquired,
    hreleased]
  rfl

end Ledger

end BackgroundScan
