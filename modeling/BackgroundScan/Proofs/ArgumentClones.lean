import BackgroundScan.Proofs.ArgumentEquality

/-!
# Lists that were converted, and their clones

Lists that are converted may be on different ledgers, be cloned, and go into calls. Their equality
is one of values: it is an equivalence, and a list of the same array on another ledger compares in
the same way. A clone is equal to what it was made from, and has one lease of its own on the ledger
of its original, from when it is made until it is dropped.

1. `Accounts.outstanding`: the leases that a ledger shows as held. `outstanding_eq_countP`: it
   shows those that are held. `showsInWords`: its words show the same while they can count.
   `outstanding_run`: what one slot adds to them during a run.
2. `Converted`: a list that was converted and not dropped, or a clone of one. `Converted.onLedger`:
   it holds a lease on the ledger that it was converted on. `Converted.holder_eq`: its values are
   those that its array is converted to.
3. `compares_by_value`: equality and clones of all such lists.
-/

namespace BackgroundScan

open LeaseMoveLemmas LedgerCountLemmas

/-! ## 1. Outstanding leases -/

namespace Accounts

/-- The leases that a ledger shows as held. -/
def outstanding (a : Accounts) (ledger : Nat) : Nat :=
  (a.shown[ledger]?.getD .empty).outstanding

/-- Whether the words of a ledger show what it shows, as long as they can count what is taken. -/
def ShowsInWords (a : Accounts) (ledger : Nat) : Prop :=
  ∀ l, a.shown[ledger]? = some l → l.acquired < UInt64.size →
    l.inWords.outstanding.toNat = a.outstanding ledger

/-- The leases that are held in other slots than one. -/
def heldBeside (a : Accounts) (slot : Nat) : List Lease := (a.slots.set slot none).filterMap id

theorem Accounted.run {a : Accounts} {past : List LeaseMove} (h : a.Accounted past)
    (actions : List LeaseAction) : ∃ past', (a.run actions).Accounted past' := by
  induction actions generalizing a past with
  | nil => exact ⟨past, h⟩
  | cons action rest ih => exact ih (h.next (a.leaseStep_next action))

theorem getElem?_ledgers_run {a : Accounts} {ledger account : Nat}
    (h : a.ledgers[ledger]? = some account) (actions : List LeaseAction) :
    (a.run actions).ledgers[ledger]? = some account := by
  induction actions generalizing a with
  | nil => exact h
  | cons action rest ih =>
    obtain ⟨added, hadded⟩ := (a.handles action).ledgers
    refine ih ?_
    rw [← hadded]
    exact (List.getElem?_append_left (List.getElem?_eq_some_iff.mp h).1).trans h

/-- A ledger shows as held the leases on its account that are. -/
theorem outstanding_eq_countP {a : Accounts} {past : List LeaseMove} (h : a.Accounted past)
    {ledger account : Nat} (hledger : a.ledgers[ledger]? = some account) :
    a.outstanding ledger = a.held.countP (·.account == account) := by
  rw [outstanding, h.shown hledger, Option.getD_some,
    (countsLeases account h.conserves).outstanding, List.countP_eq_length_filter]

theorem showsInWords {a : Accounts} {past : List LeaseMove} (h : a.Accounted past)
    {ledger account : Nat} (hledger : a.ledgers[ledger]? = some account) :
    a.ShowsInWords ledger := by
  intro l hshown hsize
  obtain rfl := Option.some.inj ((h.shown hledger).symm.trans hshown)
  rw [outstanding, hshown, Option.getD_some]
  exact (Ledger.seenExactly (countsLeases account h.conserves).released_le hsize).outstanding

/-- A slot that is given out and empty. -/
structure Emptied (a : Accounts) (slot : Nat) : Prop where
  lt : slot < a.slots.length
  none : a.lease? slot = none

theorem Emptied.next {a : Accounts} {slot : Nat} (h : a.Emptied slot) (action : LeaseAction) :
    (a.next action).Emptied slot := by
  have htake (lease : Lease) : (a.take lease).Emptied slot := by
    refine ⟨?_, ?_⟩
    · rw [take, List.length_append]
      exact Nat.lt_add_right _ h.lt
    · rw [lease?, take, List.getElem?_append_left h.lt]
      exact h.none
  have hstep := a.leaseStep_next action
  generalize (a.step action).1 = answer, a.moves action = moves, a.next action = a' at hstep
  cases hstep with
  | acquired | duplicated => exact htake _
  | @dropped other lease hlease =>
    have hne : other ≠ slot := by
      rintro rfl
      rw [h.none] at hlease
      cases hlease
    refine ⟨?_, ?_⟩
    · rw [giveBack, List.length_set]
      exact h.lt
    · rw [a.lease?_giveBack_of_ne hne, h.none]
  | notAcquired | notDuplicated | notDropped | ledgerCloned | notCloned | ledgerMade =>
    exact ⟨h.lt, h.none⟩

theorem Emptied.run {a : Accounts} {slot : Nat} (h : a.Emptied slot)
    (actions : List LeaseAction) : (a.run actions).Emptied slot := by
  induction actions generalizing a with
  | nil => exact h
  | cons action rest ih => exact ih (h.next action)

/-- A slot has its lease until it is dropped. -/
theorem lease?_run {a : Accounts} {slot : Nat} {lease : Lease} (h : a.lease? slot = some lease)
    (actions : List LeaseAction) :
    (a.run actions).lease? slot = if .drop slot ∈ actions then none else some lease := by
  induction actions generalizing a with
  | nil => exact h
  | cons action rest ih =>
    by_cases haction : action = .drop slot
    · have hlt : slot < a.slots.length :=
        (List.getElem?_eq_some_iff.mp (Option.join_eq_some_iff.mp h)).1
      have hempty : (a.next action).Emptied slot := by
        subst haction
        refine ⟨?_, ((a.handles (.drop slot)).drops slot lease rfl h).2.2⟩
        rw [next, step, h]
        simpa only [giveBack, List.length_set] using hlt
      rw [if_pos (haction ▸ List.mem_cons_self)]
      exact (hempty.run rest).none
    · have hmem : .drop slot ∈ action :: rest ↔ .drop slot ∈ rest :=
        ⟨fun hmem => (List.mem_cons.mp hmem).resolve_left (Ne.symm haction),
          List.mem_cons_of_mem _⟩
      rw [if_congr hmem rfl rfl]
      exact ih ((a.handles action).kept slot lease h haction)

/-- The lease of a slot counts beside those of the other slots. -/
theorem countP_held (a : Accounts) (slot : Nat) (p : Lease → Bool) :
    a.held.countP p = (a.heldBeside slot).countP p + (a.lease? slot).toList.countP p := by
  cases hlease : a.lease? slot with
  | some lease =>
    have hheld : a.held.Perm (lease :: a.heldBeside slot) := filterMap_set_none hlease
    rw [hheld.countP_eq p, List.countP_cons, Option.toList_some, List.countP_singleton]
  | none =>
    have hslots : a.slots.set slot none = a.slots := by
      rcases Option.join_eq_none_iff.mp hlease with hnone | hnone
      · exact List.set_eq_of_length_le (List.getElem?_eq_none_iff.mp hnone)
      · obtain ⟨hlt, hget⟩ := List.getElem?_eq_some_iff.mp hnone
        rw [← hget, List.set_getElem_self]
    rw [heldBeside, hslots, Option.toList_none, List.countP_nil]
    rfl

/-- A lease counts as outstanding, beside those in other slots, until it is dropped. -/
theorem outstanding_run {a : Accounts} {past : List LeaseMove} (h : a.Accounted past)
    {ledger slot : Nat} {lease : Lease} (hledger : a.ledgers[ledger]? = some lease.account)
    (hlease : a.lease? slot = some lease) (actions : List LeaseAction) :
    (a.run actions).outstanding ledger =
      ((a.run actions).heldBeside slot).countP (·.account == lease.account) +
        if .drop slot ∈ actions then 0 else 1 := by
  obtain ⟨past', h'⟩ := h.run actions
  rw [outstanding_eq_countP h' (getElem?_ledgers_run hledger actions), countP_held _ slot,
    lease?_run hlease actions]
  split
  · rfl
  · rw [Option.toList_some, List.countP_singleton, if_pos (beq_self_eq_true _)]

end Accounts

/-! ## 2. Lists that were converted -/

open Accounts

/-- A list that an array was converted to on a ledger, or a clone of one, that was not dropped;
with the accounts as they are. -/
inductive Converted (raw : Json) (ledger : Nat) : Holding → Accounts → Prop
  | made {n : Nat} {past : List LeaseAction} {limits : Limits} {x : Holding} {a : Accounts}
      (h : ((fresh n).run past).convert ledger limits raw = .ok (some (x, a))) :
    Converted raw ledger x a
  | cloned {x copy : Holding} {a a' : Accounts} (h : Converted raw ledger x a)
      (hclone : a.clone? x = some (copy, a')) : Converted raw ledger copy a'
  | kept {x : Holding} {a : Accounts} (h : Converted raw ledger x a) (action : LeaseAction)
      (haction : action ≠ .drop x.slot) : Converted raw ledger x (a.next action)

namespace Accounts

/-- A conversion that is accepted takes one lease on the ledger, and an array is accepted on every
ledger that there is. -/
theorem convert_eq_ok_some_iff {a a' : Accounts} {ledger : Nat} {limits : Limits} {raw : Json}
    {x : Holding} :
    a.convert ledger limits raw = .ok (some (x, a')) ↔
      ∃ account args, a.ledgers[ledger]? = some account ∧ convertArguments limits raw = .ok args ∧
        x = ⟨.list args, a.slots.length⟩ ∧ a' = a.take ⟨.argList, account⟩ := by
  simp only [convert, map_eq_ok_iff, hold?, step]
  cases a.ledgers[ledger]? with
  | none => simp only [reduceCtorEq, and_false, false_and, exists_false]
  | some account =>
    constructor
    · rintro ⟨args, hargs, hmade⟩
      obtain ⟨rfl, rfl⟩ := Prod.mk.inj (Option.some.inj hmade)
      exact ⟨account, args, rfl, hargs, rfl, rfl⟩
    · rintro ⟨_, args, hledger, hargs, rfl, rfl⟩
      obtain rfl := Option.some.inj hledger
      exact ⟨args, hargs, rfl⟩

end Accounts

/-- A list with a lease on a ledger. -/
structure OnLedger (ledger account : Nat) (x : Holding) (a : Accounts) : Prop where
  ledger : a.ledgers[ledger]? = some account
  lease : a.lease? x.slot = some ⟨.argList, account⟩
  accounted : ∃ past, a.Accounted past

namespace OnLedger

variable {ledger account : Nat} {x : Holding} {a : Accounts}

theorem next (h : OnLedger ledger account x a) {action : LeaseAction}
    (haction : action ≠ .drop x.slot) : OnLedger ledger account x (a.next action) where
  ledger := getElem?_ledgers_run h.ledger [action]
  lease := (a.handles action).kept x.slot _ h.lease haction
  accounted := by
    obtain ⟨past, haccounted⟩ := h.accounted
    exact haccounted.run [action]

/-- What takes another lease on the account is on the ledger as well. -/
theorem take (hledger : a.ledgers[ledger]? = some account)
    (haccounted : ∃ past, a.Accounted past) (action : LeaseAction)
    (hnext : a.next action = a.take ⟨.argList, account⟩) (holder : Holder) :
    OnLedger ledger account ⟨holder, a.slots.length⟩ (a.take ⟨.argList, account⟩) where
  ledger := hledger
  lease := a.lease?_take _
  accounted := by
    obtain ⟨past, haccounted⟩ := haccounted
    exact hnext ▸ haccounted.run [action]

/-- It can be cloned, and its clone is on its ledger. -/
theorem clone (h : OnLedger ledger account x a) :
    a.clone? x = some (⟨x.holder, a.slots.length⟩, a.take ⟨.argList, account⟩) ∧
      OnLedger ledger account ⟨x.holder, a.slots.length⟩ (a.take ⟨.argList, account⟩) := by
  have hstep : a.step (.duplicate x.slot) =
      (.taken a.slots.length .argList, a.take ⟨.argList, account⟩, []) := by
    simp only [Accounts.step, h.lease]
  refine ⟨?_, take h.ledger h.accounted (.duplicate x.slot) ?_ x.holder⟩
  · rw [clone?, hold?, hstep]
  · rw [Accounts.next, hstep]

end OnLedger

namespace Converted

variable {raw : Json} {ledger : Nat} {x : Holding} {a : Accounts}

theorem onLedger (h : Converted raw ledger x a) : ∃ account, OnLedger ledger account x a := by
  induction h with
  | @made n past limits x a h =>
    obtain ⟨account, args, hledger, -, rfl, rfl⟩ := convert_eq_ok_some_iff.mp h
    refine ⟨account, .take hledger ⟨_, accounted_run n past⟩ (.acquire .argList ledger) ?_
      (.list args)⟩
    simp only [Accounts.next, step, hledger]
  | cloned _ hclone ih =>
    obtain ⟨account, honLedger⟩ := ih
    obtain ⟨hclone', hcopy⟩ := honLedger.clone
    obtain ⟨rfl, rfl⟩ := Prod.mk.inj (Option.some.inj (hclone.symm.trans hclone'))
    exact ⟨account, hcopy⟩
  | kept _ action haction ih =>
    obtain ⟨account, honLedger⟩ := ih
    exact ⟨account, honLedger.next haction⟩

/-- Its values are those that its array is converted to. -/
theorem holder_eq (h : Converted raw ledger x a) :
    ∃ limits args, convertArguments limits raw = .ok args ∧ x.holder = .list args := by
  induction h with
  | made h =>
    obtain ⟨account, args, -, hconvert, rfl, -⟩ := convert_eq_ok_some_iff.mp h
    exact ⟨_, args, hconvert, rfl⟩
  | cloned h hclone ih =>
    obtain ⟨account, honLedger⟩ := h.onLedger
    obtain ⟨rfl, -⟩ := Prod.mk.inj (Option.some.inj (hclone.symm.trans honLedger.clone.1))
    exact ih
  | kept _ _ _ ih => exact ih

end Converted

/-! ## 3. Equality and clones -/

/-- Lists are compared by their values. -/
structure EqualByValue (x y z : Holding) : Prop where
  refl : x.sameAs x = true
  symm : x.sameAs y = true → y.sameAs x = true
  trans : x.sameAs y = true → y.sameAs z = true → x.sameAs z = true
  /-- Lists are equal if they have the same shape with the same scalars. -/
  alike : x.sameAs y = true ↔ Value.AlikeItems x.args y.args
  nanFree : (Value.list x.args).NaNFree
  /-- Of different doubles in lists only the two zeros are the same. -/
  floats : ∀ p q, .float p ∈ (Value.list x.args).parts → .float q ∈ (Value.list y.args).parts →
    ((Value.float p).Alike (.float q) ↔ p = q ∨ (p.IsZero ∧ q.IsZero))
  kinds : ∀ n p, ¬ (Value.integer n).Alike (.float p) ∧ ¬ (Value.float p).Alike (.integer n)
  keys : ∀ es fs, (Value.map es).Alike (.map fs) → es.map Prod.fst = fs.map Prod.fst

/-- On which ledger an array is converted plays no part in comparing the list. -/
structure SameOnEveryLedger (raw : Json) (x : Holding) : Prop where
  made : ∀ n past limits args ledger account,
    ((fresh n).run past).ledgers[ledger]? = some account →
    convertArguments limits raw = .ok args →
    ∃ x' a, ((fresh n).run past).convert ledger limits raw = .ok (some (x', a))
  compared : ∀ ledger x' a, Converted raw ledger x' a →
    ∀ y, x'.sameAs y = x.sameAs y ∧ y.sameAs x' = y.sameAs x

/-- What a clone is, and what it counts on the ledger of its original. -/
structure Cloned (ledger : Nat) (x copy : Holding) (a a' : Accounts) : Prop where
  made : a.clone? x = some (copy, a')
  equal : copy.sameAs x = true ∧ x.sameAs copy = true
  counted : a'.outstanding ledger = a.outstanding ledger + 1
  others : ∀ other : Nat, a.ledgers[other]? ≠ a.ledgers[ledger]? →
    a'.outstanding other = a.outstanding other
  /-- Whatever is done later, it counts as one beside the leases of others until it is dropped. -/
  counts : ∃ account, a'.ledgers[ledger]? = some account ∧ ∀ actions,
    (a'.run actions).outstanding ledger =
      ((a'.run actions).heldBeside copy.slot).countP (·.account == account) +
        if .drop copy.slot ∈ actions then 0 else 1
  inWords : a.ShowsInWords ledger ∧ ∀ actions, (a'.run actions).ShowsInWords ledger

namespace ArgumentCloneLemmas

variable {raw raw' raw'' : Json} {ledger ledger' ledger'' account : Nat} {x y z : Holding}
  {a a' a'' : Accounts}

theorem sameAs_list_iff {as bs : List Value} (hx : x.holder = .list as)
    (hy : y.holder = .list bs) : x.sameAs y = true ↔ Value.AlikeItems as bs := by
  rw [Holding.sameAs, hx, hy]
  exact sameItems_iff_alike

theorem equalByValue (hx : Converted raw ledger x a) (hy : Converted raw' ledger' y a')
    (hz : Converted raw'' ledger'' z a'') : EqualByValue x y z := by
  obtain ⟨_, xs, hxs, hx⟩ := hx.holder_eq
  obtain ⟨_, ys, hys, hy⟩ := hy.holder_eq
  obtain ⟨_, zs, -, hz⟩ := hz.holder_eq
  have hxArgs : x.args = xs := by rw [Holding.args, hx, Holder.args]
  have hyArgs : y.args = ys := by rw [Holding.args, hy, Holder.args]
  have hxFree := nanFree_of_convertArguments hxs
  have hyFree := nanFree_of_convertArguments hys
  exact {
    refl := by
      rw [sameAs_list_iff hx hx]
      exact alikeItems_self fun n hn => hxFree n (List.mem_cons_of_mem _ hn)
    symm := by
      rw [sameAs_list_iff hx hy, sameAs_list_iff hy hx]
      exact Value.AlikeItems.symm
    trans := by
      rw [sameAs_list_iff hx hy, sameAs_list_iff hy hz, sameAs_list_iff hx hz]
      exact Value.AlikeItems.trans
    alike := by rw [hxArgs, hyArgs, sameAs_list_iff hx hy]
    nanFree := hxArgs ▸ hxFree
    floats := by
      intro p q hp hq
      rw [hxArgs] at hp
      rw [hyArgs] at hq
      exact alike_float_iff (hxFree p hp) (hyFree q hq)
    kinds := fun n p => ⟨nofun, nofun⟩
    keys := by
      intro es fs h
      cases h with
      | map hentries => exact keys_eq_of_alikeEntries hentries }

/-- What is converted within some limits is converted to the same within the widest ones. -/
theorem convertArguments_widest {limits : Limits} {raw : Json} {args : List Value}
    (h : convertArguments limits raw = .ok args) :
    convertArguments ⟨0xFFFFFFFFFFFFFFFF, 0xFFFFFFFFFFFFFFFF⟩ raw = .ok args := by
  obtain ⟨rfl, hfinite⟩ := embeds_of_convertArguments h
  obtain ⟨hcount, hnesting⟩ := allow_of_convertArguments h
  have hdepth := Nat.le_of_lt_succ limits.maxDepth.toNat_lt
  exact convertArguments_embed hfinite
    ⟨Nat.le_trans hcount (Nat.le_of_lt_succ limits.maxArgs.toNat_lt),
      fun v hv => Nat.le_trans (hnesting v hv) hdepth⟩

/-- Lists of one array hold the same values. -/
theorem holder_unique (hx : Converted raw ledger x a) (hy : Converted raw ledger' y a') :
    x.holder = y.holder := by
  obtain ⟨_, args, hargs, hx⟩ := hx.holder_eq
  obtain ⟨_, args', hargs', hy⟩ := hy.holder_eq
  have hsame := (convertArguments_widest hargs).symm.trans (convertArguments_widest hargs')
  rw [hx, hy, Except.ok.inj hsame]

theorem sameOnEveryLedger (hx : Converted raw ledger x a) : SameOnEveryLedger raw x where
  made := by
    intro n past limits args ledger' account hledger hargs
    exact ⟨_, _, convert_eq_ok_some_iff.mpr ⟨account, args, hledger, hargs, rfl, rfl⟩⟩
  compared := by
    intro ledger' x' a' hx' y
    rw [Holding.sameAs, Holding.sameAs, Holding.sameAs, Holding.sameAs, holder_unique hx' hx]
    exact ⟨rfl, rfl⟩

/-- What holds a lease on a ledger and is equal to itself is cloned as it should be. -/
theorem cloned_of_onLedger (h : OnLedger ledger account x a) (hself : x.sameAs x = true) :
    Cloned ledger x ⟨x.holder, a.slots.length⟩ a (a.take ⟨.argList, account⟩) := by
  obtain ⟨hclone, hcopy⟩ := h.clone
  obtain ⟨past, haccounted⟩ := h.accounted
  obtain ⟨past', haccounted'⟩ := hcopy.accounted
  exact {
    made := hclone
    equal := ⟨hself, hself⟩
    counted := by
      have hheld : (a.take ⟨.argList, account⟩).held = a.held ++ [⟨.argList, account⟩] :=
        List.filterMap_append
      rw [outstanding_eq_countP haccounted' hcopy.ledger, outstanding_eq_countP haccounted h.ledger,
        hheld, List.countP_append, List.countP_singleton, if_pos (beq_self_eq_true _)]
    others := by
      intro other hother
      rw [h.ledger] at hother
      rw [outstanding, outstanding, shown, shown, List.getElem?_map, List.getElem?_map]
      rw [take]
      cases hledger : a.ledgers[other]? with
      | none => rfl
      | some i =>
        have hne : account ≠ i := fun heq => hother (heq ▸ hledger)
        simp only [Option.map_some, List.getElem?_modify_ne _ _ hne]
    counts := ⟨account, hcopy.ledger, outstanding_run haccounted' hcopy.ledger hcopy.lease⟩
    inWords := by
      refine ⟨showsInWords haccounted h.ledger, fun actions => ?_⟩
      obtain ⟨later, hlater⟩ := haccounted'.run actions
      exact showsInWords hlater (getElem?_ledgers_run hcopy.ledger actions) }

/-- A call is equal to itself if its list is. -/
theorem sameAs_inCall_self (h : x.sameAs x = true) (hlist : x.holder = .list x.args)
    (moduleName functionName : String) :
    (x.inCall moduleName functionName).sameAs (x.inCall moduleName functionName) = true := by
  have hargs : Value.sameItems x.args x.args = true := by
    rwa [Holding.sameAs, hlist] at h
  show (moduleName == moduleName && functionName == functionName &&
    Value.sameItems x.args x.args) = true
  rw [hargs, beq_self_eq_true, beq_self_eq_true]
  rfl

end ArgumentCloneLemmas

open ArgumentCloneLemmas

/-- Whatever lists are converted, on whatever ledgers and whatever else is done with leases: they
are compared by their values, and a clone of one, or of a call with one, is equal to it and adds
one lease to those of its ledger. -/
theorem compares_by_value {raw raw' raw'' : Json} {ledger ledger' ledger'' : Nat}
    {x y z : Holding} {a a' a'' : Accounts} (hx : Converted raw ledger x a)
    (hy : Converted raw' ledger' y a') (hz : Converted raw'' ledger'' z a'') :
    EqualByValue x y z ∧ SameOnEveryLedger raw x ∧
      ∃ copy b, Cloned ledger x copy a b ∧ ∀ moduleName functionName,
        Cloned ledger (x.inCall moduleName functionName) (copy.inCall moduleName functionName)
          a b := by
  have hvalues := equalByValue hx hy hz
  obtain ⟨account, honLedger⟩ := hx.onLedger
  have hlist : x.holder = .list x.args := by
    obtain ⟨_, args, -, hholder⟩ := hx.holder_eq
    rw [Holding.args, hholder, Holder.args]
  refine ⟨hvalues, sameOnEveryLedger hx, _, _, cloned_of_onLedger honLedger hvalues.refl, ?_⟩
  intro moduleName functionName
  exact cloned_of_onLedger (x := x.inCall moduleName functionName)
    ⟨honLedger.ledger, honLedger.lease, honLedger.accounted⟩
    (sameAs_inCall_self hvalues.refl hlist moduleName functionName)

/-- The two zeros are converted on two ledgers, and a call with the first is cloned. -/
theorem compares_by_value_zeros :
    let zero : Binary64 := ⟨0⟩
    let negative : Binary64 := ⟨0x8000000000000000⟩
    let raw : Json := .array [.number (.float zero (by decide))]
    let raw' : Json := .array [.number (.float negative (by decide))]
    let past : List LeaseAction := [.acquire .argList 0]
    ∃ x y a a', ((fresh 2).run []).convert 0 .standard raw = .ok (some (x, a)) ∧
      ((fresh 2).run past).convert 1 .standard raw' = .ok (some (y, a')) ∧
      x.sameAs y = true ∧ y.sameAs x = true ∧ a.outstanding 0 = 1 ∧
      ∃ copy b, Cloned 0 (x.inCall "scans" "count") copy a b ∧ b.outstanding 0 = 2 := by
  intro zero negative raw raw' past
  have hx : ((fresh 2).run []).convert 0 .standard raw =
      .ok (some (⟨.list [.float zero], 0⟩, (fresh 2).take ⟨.argList, 0⟩)) := rfl
  have hy : ((fresh 2).run past).convert 1 .standard raw' =
      .ok (some (⟨.list [.float negative], 1⟩,
        ((fresh 2).take ⟨.argList, 0⟩).take ⟨.argList, 1⟩)) := rfl
  obtain ⟨hvalues, -, copy, b, -, hcall⟩ := compares_by_value (.made hx) (.made hy) (.made hx)
  have hzeros : Value.AlikeItems [.float zero] [.float negative] :=
    .cons (.float (by decide) (by decide) (by decide)) .nil
  have hsame := hvalues.alike.mpr hzeros
  exact ⟨_, _, _, _, hx, hy, hsame, hvalues.symm hsame, by decide, _, b,
    hcall "scans" "count", (hcall "scans" "count").counted⟩

end BackgroundScan
