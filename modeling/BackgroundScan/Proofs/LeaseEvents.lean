import BackgroundScan.Proofs.BenchSteps

/-!
# What the events show of leases

An event shows that a lease was taken from a ledger, and another that a lease was given back. A
clone of a lease is counted like any other lease that is taken, and given back like it, but no event
shows that it came in. So the events account for all leases but the clones.

1. `clones`: the leases that come in as clones. `Traces`: what events and counts say of moves.
   `traces`: they do so if the events are those of the moves.
2. `Accounts.total`: the counts of all accounts. `total_run` and `events_run`: counts and events of
   a run on several ledgers.
3. `Bench.shows_run`: the events of work on a job.
4. `shows_all_but_clones`: events and counts agree up to the clones, on ledgers and on a job.
   `hides_clone`: they do not agree where a lease is cloned.
-/

namespace BackgroundScan

open LeaseMoveLemmas

/-! ## 1. Events and counts -/

/-- The lease that comes in as a clone. -/
def LeaseMove.clone? : LeaseMove → Option Lease
  | cloned lease => some lease
  | _ => none

/-- The leases that come in as clones. -/
def clones (moves : List LeaseMove) : List Lease := moves.filterMap LeaseMove.clone?

/-- How many leases on a resource there are. -/
def tally (resource : Resource) (leases : List Lease) : Nat :=
  leases.countP fun lease => lease.resource == resource

/-- Whether an event shows what happens to a lease. -/
def Event.isOfLease : Event → Bool
  | acquired _ => true
  | released _ => true
  | _ => false

/-- What events say of moves that lead from no lease to those that are held, and with which a
ledger becomes another. -/
structure Traces (l l' : Ledger) (moves : List LeaseMove) (events : List Event)
    (held : List Lease) : Prop where
  shown : events.filter Event.isOfLease = moves.filterMap LeaseMove.event?
  acquired : ∀ resource, events.count (.acquired resource) + tally resource (clones moves) =
    tally resource (gained moves)
  released : ∀ resource, events.count (.released resource) = tally resource (givenBack moves)
  balance : ∀ resource, events.count (.acquired resource) + tally resource (clones moves) =
    events.count (.released resource) + tally resource held
  pairs : held = [] → ((∀ resource, events.count (.acquired resource) =
    events.count (.released resource)) ↔ clones moves = [])
  counts : l' = ⟨l.acquired + events.count (.acquired .descriptor) +
      events.count (.acquired .argList) + (clones moves).length,
    l.released + events.count (.released .descriptor) + events.count (.released .argList)⟩

namespace LeaseEventLemmas

theorem tally_append (resource : Resource) (leases leases' : List Lease) :
    tally resource (leases ++ leases') = tally resource leases + tally resource leases' :=
  List.countP_append

theorem tally_cons (resource : Resource) (lease : Lease) (leases : List Lease) :
    tally resource (lease :: leases) =
      tally resource leases + if lease.resource = resource then 1 else 0 := by
  simp only [tally, List.countP_cons, beq_iff_eq]

theorem tally_add (leases : List Lease) :
    tally .descriptor leases + tally .argList leases = leases.length := by
  induction leases with
  | nil => rfl
  | cons first rest ih =>
    obtain ⟨resource, account⟩ := first
    rw [tally_cons, tally_cons, List.length_cons, ← ih]
    cases resource <;> simp only [reduceCtorEq, ↓reduceIte] <;> omega

theorem tally_pos {resource : Resource} {lease : Lease} {leases : List Lease}
    (h : lease ∈ leases) (hresource : lease.resource = resource) : 0 < tally resource leases :=
  List.countP_pos_iff.mpr ⟨lease, h, beq_iff_eq.mpr hresource⟩

theorem count_acquired (resource : Resource) (moves : List LeaseMove) :
    (moves.filterMap LeaseMove.event?).count (.acquired resource) + tally resource (clones moves) =
      tally resource (gained moves) := by
  induction moves with
  | nil => rfl
  | cons first rest ih =>
    cases first with
    | taken lease =>
      show ((Event.acquired lease.resource :: rest.filterMap LeaseMove.event?).count _) +
        tally resource (clones rest) = tally resource (lease :: gained rest)
      rw [List.count_cons, tally_cons, ← ih]
      simp only [beq_iff_eq, Event.acquired.injEq]
      omega
    | cloned lease =>
      show (rest.filterMap LeaseMove.event?).count _ + tally resource (lease :: clones rest) =
        tally resource (lease :: gained rest)
      rw [tally_cons, tally_cons, ← ih]
      omega
    | returned lease =>
      show ((Event.released lease.resource :: rest.filterMap LeaseMove.event?).count _) +
        tally resource (clones rest) = tally resource (gained rest)
      rw [List.count_cons_of_ne (by simp), ih]

theorem count_released (resource : Resource) (moves : List LeaseMove) :
    (moves.filterMap LeaseMove.event?).count (.released resource) =
      tally resource (givenBack moves) := by
  induction moves with
  | nil => rfl
  | cons first rest ih =>
    cases first with
    | taken lease =>
      show ((Event.acquired lease.resource :: rest.filterMap LeaseMove.event?).count _) =
        tally resource (givenBack rest)
      rw [List.count_cons_of_ne (by simp), ih]
    | cloned lease => exact ih
    | returned lease =>
      show ((Event.released lease.resource :: rest.filterMap LeaseMove.event?).count _) =
        tally resource (lease :: givenBack rest)
      rw [List.count_cons, tally_cons, ← ih]
      simp only [beq_iff_eq, Event.released.injEq]

/-- Events that are those of the moves account for all leases but the clones. -/
theorem traces (l : Ledger) {moves : List LeaseMove} {events : List Event} {held : List Lease}
    (hshown : events.filter Event.isOfLease = moves.filterMap LeaseMove.event?)
    (hconserves : Conserves [] moves held) : Traces l (l.after moves) moves events held := by
  have hacquired (resource : Resource) : events.count (.acquired resource) +
      tally resource (clones moves) = tally resource (gained moves) := by
    rw [← count_acquired, ← hshown, List.count_filter rfl]
  have hreleased (resource : Resource) :
      events.count (.released resource) = tally resource (givenBack moves) := by
    rw [← count_released, ← hshown, List.count_filter rfl]
  have hbalance (resource : Resource) : tally resource (gained moves) =
      tally resource held + tally resource (givenBack moves) := by
    rw [← tally_append]
    exact hconserves.countP_eq _
  exact {
    shown := hshown
    acquired := hacquired
    released := hreleased
    balance := by
      intro resource
      rw [hacquired, hreleased, hbalance, Nat.add_comm]
    pairs := by
      rintro rfl
      have hclones (resource : Resource) : events.count (.acquired resource) +
          tally resource (clones moves) = events.count (.released resource) := by
        rw [hacquired, hreleased, hbalance]
        exact Nat.zero_add _
      constructor
      · intro hpairs
        refine List.eq_nil_iff_forall_not_mem.mpr fun lease hlease => ?_
        have hpos := tally_pos hlease rfl
        have hsame := hpairs lease.resource
        have hmore := hclones lease.resource
        omega
      · intro hnone resource
        rw [← hclones, hnone]
        rfl
    counts := by
      have hgained := tally_add (gained moves)
      have hback := tally_add (givenBack moves)
      have hclones := tally_add (clones moves)
      rw [← hacquired, ← hacquired] at hgained
      rw [← hreleased, ← hreleased] at hback
      rw [Ledger.after, Ledger.mk.injEq]
      omega }

end LeaseEventLemmas

open LeaseEventLemmas

/-! ## 2. Several ledgers -/

/-- The counts of two ledgers together. -/
def Ledger.plus (l l' : Ledger) : Ledger := ⟨l.acquired + l'.acquired, l.released + l'.released⟩

/-- The counts of all accounts together. -/
def Accounts.total (a : Accounts) : Ledger := a.accounts.foldr Ledger.plus .empty

namespace LeaseEventLemmas

theorem acquire_plus (l l' : Ledger) : l.acquire.plus l' = (l.plus l').acquire :=
  congrArg (Ledger.mk · _) (Nat.add_right_comm _ _ _)

theorem plus_acquire (l l' : Ledger) : l.plus l'.acquire = (l.plus l').acquire := rfl

theorem release_plus (l l' : Ledger) : l.release.plus l' = (l.plus l').release :=
  congrArg (Ledger.mk _) (Nat.add_right_comm _ _ _)

theorem plus_release (l l' : Ledger) : l.plus l'.release = (l.plus l').release := rfl

/-- What one account counts all of them count together. -/
theorem foldr_modify {count : Ledger → Ledger}
    (hleft : ∀ l l' : Ledger, (count l).plus l' = count (l.plus l'))
    (hright : ∀ l l' : Ledger, l.plus (count l') = count (l.plus l')) {accounts : List Ledger}
    {account : Nat} (h : account < accounts.length) :
    (accounts.modify account count).foldr Ledger.plus .empty =
      count (accounts.foldr Ledger.plus .empty) := by
  induction accounts generalizing account with
  | nil => cases h
  | cons first rest ih =>
    cases account with
    | zero => exact hleft first _
    | succ account =>
      rw [List.modify_succ_cons, List.foldr_cons, List.foldr_cons, ← hright]
      exact congrArg (first.plus ·) (ih (Nat.lt_of_succ_lt_succ h))

end LeaseEventLemmas

namespace Accounts

theorem total_take {a : Accounts} {lease : Lease} (h : lease.account < a.accounts.length) :
    (a.take lease).total = a.total.acquire := foldr_modify acquire_plus plus_acquire h

theorem total_giveBack {a : Accounts} {lease : Lease} (h : lease.account < a.accounts.length)
    (slot : Nat) : (a.giveBack slot lease).total = a.total.release :=
  foldr_modify release_plus plus_release h

/-- The accounts together count the moves of an action. -/
theorem total_next {a a' : Accounts} {past moves : List LeaseMove} {action : LeaseAction}
    {answer : LeaseAnswer} (h : a.Accounted past) (hstep : LeaseStep a action answer moves a') :
    a'.total = a.total.after moves := by
  have hlt := h.account_lt hstep
  cases hstep with
  | acquired | duplicated => exact total_take (hlt _ List.mem_cons_self)
  | dropped => exact total_giveBack (hlt _ List.mem_cons_self) _
  | ledgerMade =>
    rw [total, List.foldr_append]
    rfl
  | _ => rfl

theorem total_fresh (n : Nat) : (fresh n).total = .empty := by
  show (List.replicate n Ledger.empty).foldr Ledger.plus .empty = .empty
  induction n with
  | zero => rfl
  | succ n ih =>
    rw [List.replicate_succ, List.foldr_cons, ih]
    rfl

theorem total_run (n : Nat) (actions : List LeaseAction) :
    ((fresh n).run actions).total = Ledger.empty.after ((fresh n).movesOf actions) := by
  suffices h : ((fresh n).run actions).Accounted ((fresh n).movesOf actions) ∧
      ((fresh n).run actions).total = Ledger.empty.after ((fresh n).movesOf actions) from h.2
  refine history_induction
    (R := fun (a : Accounts) past => a.Accounted (past.flatMap fun e => e.1.moves e.2) ∧
      a.total = Ledger.empty.after (past.flatMap fun e => e.1.moves e.2))
    ?_ ⟨accounted_fresh n, total_fresh n⟩ actions
  rintro a past action ⟨haccounted, htotal⟩
  rw [List.flatMap_append, List.flatMap_singleton]
  refine ⟨haccounted.next (a.leaseStep_next action), ?_⟩
  rw [total_next haccounted (a.leaseStep_next action), htotal, after_append]

theorem events_run (a : Accounts) (actions : List LeaseAction) :
    a.eventsOf actions = (a.movesOf actions).filterMap LeaseMove.event? := by
  rw [eventsOf, movesOf, List.filterMap_flatMap]
  exact congrArg (List.flatMap · _) (funext fun e => e.1.events_step e.2)

end Accounts

/-! ## 3. Work on a job -/

namespace LeaseEventLemmas

theorem isOfLease_event? (moves : List LeaseMove) :
    (moves.filterMap LeaseMove.event?).filter Event.isOfLease =
      moves.filterMap LeaseMove.event? := by
  refine List.filter_eq_self.mpr fun event hevent => ?_
  obtain ⟨move, -, hmove⟩ := List.mem_filterMap.mp hevent
  cases move <;> cases hmove <;> rfl

end LeaseEventLemmas

namespace Bench

/-- Work on a job shows its moves, and that the job was made. -/
theorem shows_run (l : Ledger) (space set : String) (actions : List BenchAction) :
    ((on l space set).run actions).journal.events.filter Event.isOfLease =
      (LeaseMove.taken .ofJob :: (on l space set).movesOf actions).filterMap
        LeaseMove.event? := by
  refine history_induction
    (R := fun (b : Bench) past => b.journal.events.filter Event.isOfLease =
      (LeaseMove.taken .ofJob :: past.flatMap fun e => e.1.moves e.2).filterMap LeaseMove.event?)
    ?_ rfl actions
  intro b past action h
  obtain ⟨refusal, hjournal⟩ := (b.benchStep_next action).journal
  have hrefusal : (refusal.map Event.optionsRejected).toList.filter Event.isOfLease = [] := by
    cases refusal <;> rfl
  rw [List.flatMap_append, List.flatMap_singleton, ← List.cons_append, List.filterMap_append, ← h,
    hjournal, Journal.events_follow, Journal.events_noteIfAny, List.filter_append,
    List.filter_append, hrefusal, List.append_nil, isOfLease_event?]

end Bench

/-! ## 4. What is shown -/

/-- Events and counts agree up to the clones, whatever is done with several ledgers and whatever
work is done on a job: the events are, one for one and in their order, those of the leases that are
taken from a ledger or given back. If nothing is held at the end they pair up exactly if no lease
was cloned. -/
theorem shows_all_but_clones (n : Nat) (actions : List LeaseAction) (l : Ledger)
    (space set : String) (work : List BenchAction) :
    let a := (Accounts.fresh n).run actions
    let b := (Bench.on l space set).run work
    Traces .empty a.total ((Accounts.fresh n).movesOf actions)
        ((Accounts.fresh n).eventsOf actions) a.held ∧
      Traces l b.journal.ledger (.taken .ofJob :: (Bench.on l space set).movesOf work)
        b.journal.events b.held := by
  intro a b
  constructor
  · have hshown := (Accounts.fresh n).events_run actions
    have htotal : a.total = _ := Accounts.total_run n actions
    rw [htotal]
    refine traces .empty ?_ (Accounts.accounted_run n actions).conserves
    rw [hshown, isOfLease_event?]
  · have hledger : b.journal.ledger =
        l.after (.taken .ofJob :: (Bench.on l space set).movesOf work) :=
      ((Bench.on l space set).ledger_run work).trans (after_append l [.taken .ofJob] _).symm
    have hmade : Conserves [] [.taken .ofJob] (Bench.on l space set).held := .refl _
    rw [hledger]
    exact traces l (Bench.shows_run l space set work)
      (conserves_trans hmade ((Bench.on l space set).conserves_run work))

/-- A list and its clone are both counted and both given back, and one event shows that they were
taken; so events do not say in general how many leases came in. -/
theorem hides_clone :
    let actions := [.acquire .argList 0, .duplicate 0, .drop 0, .drop 1]
    let a := (Accounts.fresh 1).run actions
    let events := (Accounts.fresh 1).eventsOf actions
    a.total = ⟨2, 2⟩ ∧ a.held = [] ∧ events.count (.released .argList) = 2 ∧
      events.count (.acquired .argList) = 1 ∧
      ¬ ∀ (n : Nat) (actions : List LeaseAction) (resource : Resource),
        ((Accounts.fresh n).eventsOf actions).count (.acquired resource) =
          tally resource (gained ((Accounts.fresh n).movesOf actions)) := by
  intro actions a events
  refine ⟨by rfl, by rfl, by decide, by decide, fun h => ?_⟩
  have hone := h 1 actions .argList
  revert hone
  decide

end BackgroundScan
