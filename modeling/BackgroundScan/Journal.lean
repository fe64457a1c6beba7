import BackgroundScan.Argument.Conversion
import BackgroundScan.Event
import BackgroundScan.Options
import BackgroundScan.Policy

/-!
# Journals

A journal is what a step leaves behind besides its result: the ledger of its leases, and the events
in the order in which they happened. Taking a lease and giving it back each count in the ledger and
show as an event; a second lease on a resource that is held already is counted without one.

Main statements: `ledger_note` and `events_acquire`, with the like for the other operations.
-/

namespace BackgroundScan

/-- The leases and the events of a run. -/
structure Journal where
  ledger : Ledger
  events : List Event

namespace Journal

/-- The journal of a run that starts with the given ledger. -/
def start (ledger : Ledger) : Journal := ⟨ledger, []⟩

/-- Adds an event. -/
def note (j : Journal) (e : Event) : Journal := { j with events := j.events ++ [e] }

/-- Adds an event, if there is one. -/
def noteIfAny (j : Journal) : Option Event → Journal
  | none => j
  | some e => j.note e

/-- Takes a lease. -/
def acquire (j : Journal) (r : Resource) : Journal :=
  ⟨j.ledger.acquire, j.events ++ [.acquired r]⟩

/-- Takes a second lease on a resource that is held. -/
def duplicate (j : Journal) : Journal := { j with ledger := j.ledger.acquire }

/-- Gives a lease back. -/
def release (j : Journal) (r : Resource) : Journal :=
  ⟨j.ledger.release, j.events ++ [.released r]⟩

/-- Converts arguments; a list that was converted holds a lease. -/
def convert (j : Journal) (limits : Limits) (raw : Json) :
    Except ConversionError (List Value) × Journal :=
  match convertArguments limits raw with
  | .error e => (.error e, j)
  | .ok args => (.ok args, j.acquire .argList)

@[simp] theorem ledger_note (j : Journal) (e : Event) : (j.note e).ledger = j.ledger := rfl

@[simp] theorem events_note (j : Journal) (e : Event) :
    (j.note e).events = j.events ++ [e] := rfl

@[simp] theorem ledger_noteIfAny (j : Journal) (e : Option Event) :
    (j.noteIfAny e).ledger = j.ledger := by
  cases e <;> rfl

@[simp] theorem events_noteIfAny (j : Journal) (e : Option Event) :
    (j.noteIfAny e).events = j.events ++ e.toList := by
  cases e <;> simp [noteIfAny]

@[simp] theorem ledger_acquire (j : Journal) (r : Resource) :
    (j.acquire r).ledger = j.ledger.acquire := rfl

@[simp] theorem events_acquire (j : Journal) (r : Resource) :
    (j.acquire r).events = j.events ++ [.acquired r] := rfl

@[simp] theorem ledger_release (j : Journal) (r : Resource) :
    (j.release r).ledger = j.ledger.release := rfl

@[simp] theorem events_release (j : Journal) (r : Resource) :
    (j.release r).events = j.events ++ [.released r] := rfl

end Journal

/-- The event of a refused policy; only a wrong shape has one. -/
def PolicyError.event : PolicyError → Option Event
  | .notAnObject _ => none
  | .shape policy cause => some (.policyRejected policy cause)

/-- The event of refused options; only a wrong shape has one. -/
def OptionsError.event : OptionsError → Option Event
  | .shape cause => some (.optionsRejected cause)
  | _ => none

end BackgroundScan
