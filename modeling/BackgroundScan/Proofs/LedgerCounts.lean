import Mathlib.Data.List.Induction
import Mathlib.Logic.Relation
import BackgroundScan.Proofs.LeaseMoves

/-!
# Ledgers count exactly

Ledgers that are clones of one another count together, and so do a lease and its clones. However
many ledgers there are and in whatever order leases come and go, each group of ledgers counts all
of its leases and no others: what it shows as outstanding are the leases that are held.

1. `SameGroup`: the ledgers that are clones of one another. `Grouped`: ledgers count on
   one account exactly if they are in one group.
2. `WordLedger.countAll`: two words that count moves. `countAll_eq_inWords`: they show what a
   ledger counts.
3. `CountsLeases`: what a ledger shows of its leases. `Accounts.Handles`: what an action does to
   leases and to other groups. `counts_every_lease`: so it is after every run.
-/

namespace BackgroundScan

open LeaseMoveLemmas

/-! ## 1. Groups of ledgers -/

/-- Ledgers that are clones of one another, where `clones` has every clone with the ledger that it
was made from. -/
def SameGroup (clones : List (Nat × Nat)) : Nat → Nat → Prop :=
  Relation.EqvGen fun ledger original => (ledger, original) ∈ clones

namespace Accounts

/-- The ledger that an action makes as a clone, with the one that it is a clone of. -/
def ledgerClones (a : Accounts) : LeaseAction → List (Nat × Nat)
  | .cloneLedger ledger => (a.ledgers[ledger]?.map fun _ => (a.ledgers.length, ledger)).toList
  | _ => []

/-- The ledgers that a run makes as clones. -/
def ledgerClonesOf (a : Accounts) (actions : List LeaseAction) : List (Nat × Nat) :=
  (historyFrom next a actions).flatMap fun e => e.1.ledgerClones e.2

end Accounts

/-- Ledgers count on one account exactly if they are in one group: so it is for the accounts that
ledgers count on and the clones among them. -/
structure Grouped (ledgers : List Nat) (clones : List (Nat × Nat)) : Prop where
  listed : ∀ ledger original, (ledger, original) ∈ clones →
    ∃ account, ledgers[ledger]? = some account ∧ ledgers[original]? = some account
  related : ∀ ledger other account, ledgers[ledger]? = some account →
    ledgers[other]? = some account → SameGroup clones ledger other

namespace Grouped

variable {ledgers : List Nat} {clones : List (Nat × Nat)}

theorem iff_sameGroup (h : Grouped ledgers clones) {ledger account : Nat}
    (hledger : ledgers[ledger]? = some account) (other : Nat) :
    ledgers[other]? = some account ↔ SameGroup clones ledger other := by
  have hsame {j k : Nat} (hjk : SameGroup clones j k) : ledgers[j]? = ledgers[k]? := by
    induction hjk with
    | rel j k hclone =>
      obtain ⟨shared, hj, hk⟩ := h.listed j k hclone
      exact hj.trans hk.symm
    | refl j => rfl
    | symm j k _ ih => exact ih.symm
    | trans i j k _ _ ih ih' => exact ih.trans ih'
  exact ⟨h.related ledger other account hledger, fun hgroup => hsame hgroup ▸ hledger⟩

/-- A ledger that was there is where it was. -/
theorem getElem?_kept {ledger shared : Nat} (h : ledgers[ledger]? = some shared) (account : Nat) :
    (ledgers ++ [account])[ledger]? = some shared :=
  (List.getElem?_append_left (List.getElem?_eq_some_iff.mp h).1).trans h

/-- A ledger that is added is the last one. -/
theorem getElem?_concat {account shared ledger : Nat}
    (h : (ledgers ++ [account])[ledger]? = some shared) :
    ledgers[ledger]? = some shared ∨ ledger = ledgers.length ∧ account = shared := by
  rw [List.getElem?_append] at h
  split at h
  · exact .inl h
  next hle =>
    have hlt := (List.getElem?_eq_some_iff.mp h).1
    rw [List.length_singleton] at hlt
    have hlast : ledger - ledgers.length = 0 := by omega
    rw [hlast] at h
    exact .inr ⟨by omega, Option.some.inj h⟩

theorem concat_clone (h : Grouped ledgers clones) {original account : Nat}
    (horiginal : ledgers[original]? = some account) :
    Grouped (ledgers ++ [account]) (clones ++ [(ledgers.length, original)]) := by
  have hold {j k : Nat} (hjk : SameGroup clones j k) :
      SameGroup (clones ++ [(ledgers.length, original)]) j k :=
    hjk.mono fun _ _ => List.mem_append_left _
  -- what is known of the original is known of the clone
  have hnew {other : Nat} (hother : ledgers[other]? = some account) :
      SameGroup (clones ++ [(ledgers.length, original)]) ledgers.length other :=
    (Relation.EqvGen.rel _ _ (List.mem_append_right _ List.mem_cons_self)).trans _ _ _
      (hold (h.related original other account horiginal hother))
  exact {
    listed := by
      intro ledger source hclone
      rcases List.mem_append.mp hclone with hclone | hclone
      · obtain ⟨shared, hledger, hsource⟩ := h.listed ledger source hclone
        exact ⟨shared, getElem?_kept hledger account, getElem?_kept hsource account⟩
      · obtain ⟨rfl, rfl⟩ := Prod.mk.inj (List.mem_singleton.mp hclone)
        exact ⟨account, List.getElem?_concat_length, getElem?_kept horiginal account⟩
    related := by
      intro ledger other shared hledger hother
      rcases getElem?_concat hledger with hledger | ⟨rfl, rfl⟩
      · rcases getElem?_concat hother with hother | ⟨rfl, rfl⟩
        · exact hold (h.related ledger other shared hledger hother)
        · exact (hnew hledger).symm
      · rcases getElem?_concat hother with hother | ⟨rfl, -⟩
        · exact hnew hother
        · exact .refl _ }

theorem concat_new (h : Grouped ledgers clones) {account : Nat} (hnew : account ∉ ledgers) :
    Grouped (ledgers ++ [account]) clones where
  listed := by
    intro ledger source hclone
    obtain ⟨shared, hledger, hsource⟩ := h.listed ledger source hclone
    exact ⟨shared, getElem?_kept hledger account, getElem?_kept hsource account⟩
  related := by
    intro ledger other shared hledger hother
    rcases getElem?_concat hledger with hledger | ⟨rfl, rfl⟩ <;>
      rcases getElem?_concat hother with hother | ⟨rfl, hshared⟩
    · exact h.related ledger other shared hledger hother
    · exact absurd (List.mem_of_getElem? (hshared ▸ hledger)) hnew
    · exact absurd (List.mem_of_getElem? hother) hnew
    · exact .refl _

end Grouped

namespace Accounts

theorem grouped_fresh (n : Nat) : Grouped (fresh n).ledgers [] where
  listed := fun ledger original h => absurd h List.not_mem_nil
  related := by
    -- each ledger counts on the account of its own number
    have hown {ledger account : Nat} (h : (List.range n)[ledger]? = some account) :
        account = ledger := by
      obtain ⟨hlt, hget⟩ := List.getElem?_eq_some_iff.mp h
      rw [← hget, List.getElem_range]
    intro ledger other account hledger hother
    obtain rfl := hown hledger
    obtain rfl := hown hother
    exact .refl _

theorem grouped_next {a : Accounts} {clones : List (Nat × Nat)} (h : Grouped a.ledgers clones)
    (hlt : ∀ account ∈ a.ledgers, account < a.accounts.length) (action : LeaseAction) :
    Grouped (a.next action).ledgers (clones ++ a.ledgerClones action) := by
  have hsame : Grouped a.ledgers (clones ++ []) := (List.append_nil clones).symm ▸ h
  cases action with
  | acquire resource ledger | duplicate slot | drop slot =>
    simp only [next, step, ledgerClones]
    split <;> exact hsame
  | cloneLedger ledger =>
    simp only [next, step, ledgerClones]
    cases hledger : a.ledgers[ledger]? with
    | none => exact hsame
    | some account => exact h.concat_clone hledger
  | newLedger =>
    show Grouped (a.ledgers ++ [a.accounts.length]) (clones ++ [])
    rw [List.append_nil]
    exact h.concat_new fun hmem => Nat.lt_irrefl _ (hlt _ hmem)

/-- After any run of new ledgers those that are clones of one another count on one account. -/
theorem grouped_run (n : Nat) (actions : List LeaseAction) :
    Grouped ((fresh n).run actions).ledgers ((fresh n).ledgerClonesOf actions) := by
  -- an account that is opened is one that no ledger counts on, as `Accounted` says
  suffices h : ((fresh n).run actions).Accounted ((fresh n).movesOf actions) ∧
      Grouped ((fresh n).run actions).ledgers ((fresh n).ledgerClonesOf actions) from h.2
  refine history_induction
    (R := fun (a : Accounts) past => a.Accounted (past.flatMap fun e => e.1.moves e.2) ∧
      Grouped a.ledgers (past.flatMap fun e => e.1.ledgerClones e.2))
    ?_ ⟨accounted_fresh n, grouped_fresh n⟩ actions
  rintro a past action ⟨haccounted, hgrouped⟩
  rw [List.flatMap_append, List.flatMap_singleton, List.flatMap_append, List.flatMap_singleton]
  exact ⟨haccounted.next (a.leaseStep_next action),
    grouped_next hgrouped haccounted.ledgers_lt action⟩

end Accounts

/-! ## 2. Counts in words -/

namespace WordLedger

/-- The ledger of no lease. -/
def empty : WordLedger := ⟨0, 0⟩

/-- Counts a move. -/
def count (w : WordLedger) : LeaseMove → WordLedger
  | .taken _ => { w with acquired := w.acquired + 1 }
  | .cloned _ => { w with acquired := w.acquired + 1 }
  | .returned _ => { w with released := w.released + 1 }

/-- Counts moves one after the other. -/
def countAll (moves : List LeaseMove) : WordLedger := moves.foldl count empty

end WordLedger

namespace LedgerCountLemmas

/-- Words that count moves one after the other show what is counted. -/
theorem countAll_eq_inWords (moves : List LeaseMove) :
    WordLedger.countAll moves = (Ledger.empty.after moves).inWords := by
  -- the last move is the one that the words count last
  induction moves using List.reverseRecOn with
  | nil => rfl
  | append_singleton moves move ih =>
    have hcount : WordLedger.countAll (moves ++ [move]) = (WordLedger.countAll moves).count move :=
      List.foldl_concat _ _ _ _
    rw [hcount, ih, after_append]
    cases move with
    | taken lease | cloned lease => exact (Ledger.inWords_acquire _).symm
    | returned lease => exact (Ledger.inWords_release _).symm

end LedgerCountLemmas

/-! ## 3. Counts after a run -/

/-- What a ledger shows, given the leases of its account that are held and their moves. -/
structure CountsLeases (held : List Lease) (moves : List LeaseMove) (l : Ledger) : Prop where
  acquired : l.acquired = (gained moves).length
  released : l.released = (givenBack moves).length
  released_le : l.released ≤ l.acquired
  outstanding : l.outstanding = held.length
  outstanding_zero : held = [] → l.outstanding = 0
  in_words : l.acquired < UInt64.size →
    (WordLedger.countAll moves).acquired.toNat = l.acquired ∧
      (WordLedger.countAll moves).released.toNat = l.released ∧
      (WordLedger.countAll moves).outstanding.toNat = held.length

namespace LedgerCountLemmas

/-- The leases that came in and were not given back are those that are held. -/
theorem countsLeases {held : List Lease} {moves : List LeaseMove} (account : Nat)
    (h : Conserves [] moves held) :
    CountsLeases (held.filter (·.account == account)) (movesOn account moves)
      (Ledger.empty.after (movesOn account moves)) := by
  have hperm := (h.filter (·.account == account)).length_eq
  rw [List.nil_append, List.filter_append, List.length_append, ← gained_movesOn,
    ← givenBack_movesOn] at hperm
  have hacquired : (Ledger.empty.after (movesOn account moves)).acquired =
      (gained (movesOn account moves)).length := Nat.zero_add _
  have hreleased : (Ledger.empty.after (movesOn account moves)).released =
      (givenBack (movesOn account moves)).length := Nat.zero_add _
  have houtstanding : (Ledger.empty.after (movesOn account moves)).outstanding =
      (held.filter (·.account == account)).length := by
    rw [Ledger.outstanding, hacquired, hreleased]
    omega
  exact {
    acquired := hacquired
    released := hreleased
    released_le := by omega
    outstanding := houtstanding
    outstanding_zero := fun hnone => by rw [houtstanding, hnone, List.length_nil]
    in_words := by
      intro hsize
      obtain ⟨hseen, hseen', hseenHeld⟩ := Ledger.seenExactly (by omega) hsize
      rw [countAll_eq_inWords]
      exact ⟨hseen, hseen', hseenHeld.trans houtstanding⟩ }

end LedgerCountLemmas

open LedgerCountLemmas

namespace Accounts

/-- What an action does to leases and to ledgers that count on other accounts. -/
structure Handles (a : Accounts) (action : LeaseAction) : Prop where
  ledgers : a.ledgers <+: (a.next action).ledgers
  others : ∀ ledger account : Nat, a.ledgers[ledger]? = some account →
    movesOn account (a.moves action) = [] → (a.next action).shown[ledger]? = a.shown[ledger]?
  kept : ∀ slot lease, a.lease? slot = some lease → action ≠ .drop slot →
    (a.next action).lease? slot = some lease
  acquires : ∀ (resource : Resource) (ledger account : Nat), action = .acquire resource ledger →
    a.ledgers[ledger]? = some account →
    a.moves action = [.taken ⟨resource, account⟩] ∧
      (a.step action).1 = .taken a.slots.length resource ∧
      (a.next action).lease? a.slots.length = some ⟨resource, account⟩
  duplicates : ∀ slot lease, action = .duplicate slot → a.lease? slot = some lease →
    a.moves action = [.cloned lease] ∧
      (a.step action).1 = .taken a.slots.length lease.resource ∧
      (a.next action).lease? a.slots.length = some lease
  drops : ∀ slot lease, action = .drop slot → a.lease? slot = some lease →
    a.moves action = [.returned lease] ∧ (a.step action).1 = .dropped true ∧
      (a.next action).lease? slot = none

theorem lease?_take (a : Accounts) (lease : Lease) :
    (a.take lease).lease? a.slots.length = some lease := by
  rw [lease?, take, List.getElem?_concat_length]
  rfl

theorem lease?_take_of_held {a : Accounts} {slot : Nat} {lease : Lease}
    (h : a.lease? slot = some lease) (other : Lease) : (a.take other).lease? slot = some lease := by
  have hlt : slot < a.slots.length :=
    (List.getElem?_eq_some_iff.mp (Option.join_eq_some_iff.mp h)).1
  rw [lease?, take, List.getElem?_append_left hlt]
  exact h

theorem lease?_giveBack_self (a : Accounts) (slot : Nat) (lease : Lease) :
    (a.giveBack slot lease).lease? slot = none := by
  rw [lease?, giveBack, List.getElem?_set_self']
  cases a.slots[slot]? <;> rfl

theorem lease?_giveBack_of_ne (a : Accounts) {slot other : Nat} (h : slot ≠ other)
    (lease : Lease) : (a.giveBack slot lease).lease? other = a.lease? other := by
  rw [lease?, giveBack, List.getElem?_set_ne h, lease?]

theorem shown_getElem? {a : Accounts} {ledger account : Nat}
    (h : a.ledgers[ledger]? = some account) :
    a.shown[ledger]? = some (a.accounts[account]?.getD .empty) := by
  rw [shown, List.getElem?_map, h, Option.map_some]

/-- A ledger shows the moves on its account. -/
theorem Accounted.shown {a : Accounts} {past : List LeaseMove} (h : a.Accounted past)
    {ledger account : Nat} (hledger : a.ledgers[ledger]? = some account) :
    a.shown[ledger]? = some (Ledger.empty.after (movesOn account past)) := by
  obtain ⟨l, hl⟩ : ∃ l, a.accounts[account]? = some l :=
    ⟨_, List.getElem?_eq_getElem (h.ledgers_lt account (List.mem_of_getElem? hledger))⟩
  rw [shown_getElem? hledger, hl, Option.getD_some, h.counts account l hl]

end Accounts

namespace LeaseStep

open Accounts

variable {a a' : Accounts} {action : LeaseAction} {answer : LeaseAnswer} {moves : List LeaseMove}

theorem ledgers (h : LeaseStep a action answer moves a') : a.ledgers <+: a'.ledgers := by
  cases h with
  | ledgerCloned | ledgerMade => exact List.prefix_append _ _
  | _ => exact List.prefix_rfl

theorem others (h : LeaseStep a action answer moves a') {ledger account : Nat}
    (hledger : a.ledgers[ledger]? = some account) (hmoves : movesOn account moves = []) :
    a'.shown[ledger]? = a.shown[ledger]? := by
  have hledger' : a'.ledgers[ledger]? = some account := by
    obtain ⟨added, hadded⟩ := h.ledgers
    have hlt : ledger < a.ledgers.length := (List.getElem?_eq_some_iff.mp hledger).1
    rw [← hadded, List.getElem?_append_left hlt, hledger]
  rw [shown_getElem? hledger, shown_getElem? hledger']
  rcases h.accounts with haccounts | ⟨-, haccounts⟩
  · rw [haccounts, List.getElem?_mapIdx, hmoves]
    exact congrArg (fun l : Option Ledger => some (l.getD .empty)) Option.map_id_apply
  · rw [haccounts, List.getElem?_append]
    split
    · rfl
    next hnew =>
      -- the account is not open, or it is the one that is opened, and that is empty
      rw [List.getElem?_eq_none (Nat.le_of_not_lt hnew)]
      cases account - a.accounts.length <;> rfl

theorem kept (h : LeaseStep a action answer moves a') {slot : Nat} {lease : Lease}
    (hlease : a.lease? slot = some lease) (haction : action ≠ .drop slot) :
    a'.lease? slot = some lease := by
  cases h with
  | acquired | duplicated => exact lease?_take_of_held hlease _
  | @dropped other =>
    have hne : other ≠ slot := fun heq => haction (heq ▸ rfl)
    rw [a.lease?_giveBack_of_ne hne, hlease]
  | _ => exact hlease

end LeaseStep

namespace Accounts

theorem handles (a : Accounts) (action : LeaseAction) : a.Handles action where
  ledgers := (a.leaseStep_next action).ledgers
  others := fun _ _ => (a.leaseStep_next action).others
  kept := fun _ _ => (a.leaseStep_next action).kept
  acquires := by
    rintro resource ledger account rfl hledger
    simp only [moves, step, next, hledger, Option.map_some, Option.toList_some, true_and]
    exact a.lease?_take _
  duplicates := by
    rintro slot lease rfl hlease
    simp only [moves, step, next, hlease, Option.map_some, Option.toList_some, true_and]
    exact a.lease?_take lease
  drops := by
    rintro slot lease rfl hlease
    simp only [moves, step, next, hlease, Option.map_some, Option.toList_some, true_and]
    exact a.lease?_giveBack_self slot lease

/-- Whatever the order in which ledgers are made and cloned and leases are taken, cloned and given
back: each ledger shows what its group has taken and given back, and what it shows as outstanding
are the leases of the group that are held. -/
theorem counts_every_lease (n : Nat) (actions : List LeaseAction) :
    let a := (fresh n).run actions
    let moves := (fresh n).movesOf actions
    (∀ ledger account : Nat, a.ledgers[ledger]? = some account →
      (∀ other : Nat, a.ledgers[other]? = some account ↔
        SameGroup ((fresh n).ledgerClonesOf actions) ledger other) ∧
      ∃ l, a.shown[ledger]? = some l ∧
        CountsLeases (a.held.filter (·.account == account)) (movesOn account moves) l) ∧
    ∀ action, a.Handles action := by
  intro a moves
  have h : a.Accounted moves := accounted_run n actions
  exact ⟨fun ledger account hledger => ⟨(grouped_run n actions).iff_sameGroup hledger, _,
    h.shown hledger, countsLeases account h.conserves⟩, a.handles⟩

/-- A list is cloned, its ledger too, and a descriptor is taken from the clone; then the first list
is dropped. A list on a ledger of its own does not count with them. -/
theorem counts_clone_of_dropped :
    let actions := [.acquire .argList 0, .duplicate 0, .cloneLedger 0, .acquire .descriptor 1,
      .newLedger, .acquire .argList 2, .drop 0]
    let a := (fresh 1).run actions
    a.ledgers[1]? = some 0 ∧ SameGroup ((fresh 1).ledgerClonesOf actions) 1 0 ∧
      ¬ SameGroup ((fresh 1).ledgerClonesOf actions) 1 2 ∧
      (∃ l, a.shown[1]? = some l ∧
        CountsLeases [⟨.argList, 0⟩, ⟨.descriptor, 0⟩]
          [.taken ⟨.argList, 0⟩, .cloned ⟨.argList, 0⟩, .taken ⟨.descriptor, 0⟩,
            .returned ⟨.argList, 0⟩] l) ∧
      a.Handles (.duplicate 3) := by
  intro actions a
  obtain ⟨hgroups, hhandles⟩ := counts_every_lease 1 actions
  obtain ⟨hgroup, hcounts⟩ := hgroups 1 0 rfl
  exact ⟨rfl, (hgroup 0).mp rfl, fun h => absurd ((hgroup 2).mpr h) (by decide), hcounts,
    hhandles (.duplicate 3)⟩

end Accounts

end BackgroundScan
