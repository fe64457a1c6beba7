import BackgroundScan.Proofs.Fleet

/-!
# No call faults

A fault is a broken rule of the library's own. It can be had: a call that is moved by hand
to a stage out of order faults, and so do options with a percentage that was never
checked. The calls of a client never fault, whatever they are given, and neither does
setting options that are read. What they count and add up stays within its word.

1. `countedArguments`: converts arguments with a depth that is kept in a word.
   `countedArguments_eq`: the word is large enough for everything that nests less deep
   than it can count.
2. `applyOptions_noFault`: options that are read can be set.
   `ofInfo_cases` and `nextJobId_submit`: the sum and the counter of a store.
3. `Exchange.Sound`: nothing goes wrong in an action of a client.
   `never_faults`: nothing goes wrong in a run.
-/

namespace BackgroundScan

/-! ## 1. The depth of arguments -/

/-- The depth inside a container at some depth, unless the word has no room for it. -/
def nextDepth? (depth : UInt64) : Option UInt64 :=
  if depth.toNat + 1 < 0x10000000000000000 then some (depth + 1) else none

mutual

/-- Converts a value at some depth; there is no result if the depth overflows. -/
def countedValue (limits : Limits) (depth : UInt64) :
    Json → Option (Except ArgumentError Value)
  | .array items =>
    if limits.maxDepth < depth then some (.error (.tooDeep limits.maxDepth))
    else (countedItems limits depth items).map (·.map .list)
  | .object entries =>
    if limits.maxDepth < depth then some (.error (.tooDeep limits.maxDepth))
    else (countedEntries limits depth entries).map (·.map .map)
  | scalar => some (convertValue limits depth.toNat scalar)

/-- Converts the elements of an array at some depth. The depth of an element is taken
when its turn comes. -/
def countedItems (limits : Limits) (depth : UInt64) :
    List Json → Option (Except ArgumentError (List Value))
  | [] => some (.ok [])
  | item :: rest =>
    match nextDepth? depth with
    | none => none
    | some inner =>
      match countedValue limits inner item with
      | none => none
      | some (.error e) => some (.error e)
      | some (.ok v) => (countedItems limits depth rest).map (·.map (v :: ·))

/-- Converts the entries of an object at some depth. -/
def countedEntries (limits : Limits) (depth : UInt64) :
    List (String × Json) → Option (Except ArgumentError (List (String × Value)))
  | [] => some (.ok [])
  | (key, value) :: rest =>
    match nextDepth? depth with
    | none => none
    | some inner =>
      match countedValue limits inner value with
      | none => none
      | some (.error e) => some (.error e)
      | some (.ok v) => (countedEntries limits depth rest).map (·.map ((key, v) :: ·))

end

/-- Converts arguments of which the first has the given index. -/
def countedFrom (limits : Limits) (index : Nat) :
    List Json → Option (Except ConversionError (List Value))
  | [] => some (.ok [])
  | item :: rest =>
    match countedValue limits 1 item with
    | none => none
    | some (.error e) => some (.error (.argument index e))
    | some (.ok v) => (countedFrom limits (index + 1) rest).map (·.map (v :: ·))

/-- Converts an array into an argument list; there is no result if a depth overflows. -/
def countedArguments (limits : Limits) (raw : Json) :
    Option (Except ConversionError (List Value)) :=
  match raw.items? with
  | none => some (.error .notAList)
  | some items =>
    if limits.maxArgs.toNat < items.length then
      some (.error (.tooMany items.length limits.maxArgs))
    else countedFrom limits 0 items

namespace NoFaultLemmas

theorem nextDepth?_eq (depth : UInt64) (h : depth.toNat + 1 < 0x10000000000000000) :
    ∃ inner, nextDepth? depth = some inner ∧ inner.toNat = depth.toNat + 1 := by
  refine ⟨depth + 1, if_pos h, ?_⟩
  rw [UInt64.toNat_add]
  exact Nat.mod_eq_of_lt h

mutual

theorem countedValue_eq (limits : Limits) (depth : UInt64) (raw : Json)
    (h : depth.toNat + raw.nesting < 0x10000000000000000) :
    countedValue limits depth raw = some (convertValue limits depth.toNat raw) := by
  cases raw with
  | null | bool b | number n | string s => rfl
  | array items =>
    have hitems := countedItems_eq limits depth items
      (by simpa only [Json.nesting, Nat.add_assoc] using h)
    simp only [countedValue, convertValue, UInt64.lt_iff_toNat_lt, hitems, Option.map_some]
    split <;> rfl
  | object entries =>
    have hentries := countedEntries_eq limits depth entries
      (by simpa only [Json.nesting, Nat.add_assoc] using h)
    simp only [countedValue, convertValue, UInt64.lt_iff_toNat_lt, hentries, Option.map_some]
    split <;> rfl

theorem countedItems_eq (limits : Limits) (depth : UInt64) (items : List Json)
    (h : depth.toNat + (Json.nestingItems items + 1) < 0x10000000000000000) :
    countedItems limits depth items = some (convertItems limits (depth.toNat + 1) items) := by
  cases items with
  | nil => rfl
  | cons item rest =>
    simp only [Json.nestingItems] at h
    obtain ⟨inner, hnext, hinner⟩ := nextDepth?_eq depth (by omega)
    have hitem := countedValue_eq limits inner item (by omega)
    have hrest := countedItems_eq limits depth rest (by omega)
    rw [countedItems, convertItems, hnext, ← hinner]
    simp only [hitem, hrest, hinner]
    cases convertValue limits (depth.toNat + 1) item <;> rfl

theorem countedEntries_eq (limits : Limits) (depth : UInt64) (entries : List (String × Json))
    (h : depth.toNat + (Json.nestingEntries entries + 1) < 0x10000000000000000) :
    countedEntries limits depth entries =
      some (convertEntries limits (depth.toNat + 1) entries) := by
  match entries with
  | [] => rfl
  | (key, value) :: rest =>
    simp only [Json.nestingEntries] at h
    obtain ⟨inner, hnext, hinner⟩ := nextDepth?_eq depth (by omega)
    have hvalue := countedValue_eq limits inner value (by omega)
    have hrest := countedEntries_eq limits depth rest (by omega)
    rw [countedEntries, convertEntries, hnext, ← hinner]
    simp only [hvalue, hrest, hinner]
    cases convertValue limits (depth.toNat + 1) value <;> rfl

end

theorem countedFrom_eq (limits : Limits) (index : Nat) (items : List Json)
    (h : 1 + Json.nestingItems items < 0x10000000000000000) :
    countedFrom limits index items = some (convertFrom limits index items) := by
  induction items generalizing index with
  | nil => rfl
  | cons item rest ih =>
    simp only [Json.nestingItems] at h
    have hitem : countedValue limits 1 item = some (convertValue limits 1 item) := by
      have hone : (1 : UInt64).toNat = 1 := rfl
      rw [countedValue_eq limits 1 item (by rw [hone]; omega), hone]
    rw [countedFrom, convertFrom, ih (index + 1) (by omega), hitem]
    cases convertValue limits 1 item <;> rfl

end NoFaultLemmas

open NoFaultLemmas

/-- A depth that is kept in a word is a depth as long as the word can count the nesting. -/
theorem countedArguments_eq (limits : Limits) {raw : Json} (h : raw.nesting < 0x10000000000000000) :
    countedArguments limits raw = some (convertArguments limits raw) := by
  unfold countedArguments convertArguments
  cases raw with
  | null | bool b | number n | string s | object entries => rfl
  | array items =>
    have hfrom := countedFrom_eq limits 0 items (by
      rw [Nat.add_comm]
      simpa only [Json.nesting] using h)
    simp only [Json.items?, hfrom]
    split <;> rfl

/-- At the largest depth there is no room for an element. -/
example (limits : Limits) (item : Json) (rest : List Json) :
    countedItems limits 0xFFFFFFFFFFFFFFFF (item :: rest) = none := by
  have hnone : nextDepth? 0xFFFFFFFFFFFFFFFF = none := by decide
  rw [countedItems, hnone]

/-! ## 2. Options, sums and counters -/

/-- Setting the options that are read ends in no fault. -/
theorem applyOptions_noFault (job : Job) (raw : Json) (j : Journal) (fault : Fault) :
    (job.applyOptions raw j).1 ≠ .error (.fault fault) := by
  unfold Job.applyOptions
  cases hparse : ScanOptions.parse raw with
  | error e => exact nofun
  | ok o =>
    simp only [CallLemmas.apply_of_parse hparse]
    exact nofun

/-- A status code is moved to the sum exactly, or it is refused because no word holds it. -/
theorem ofInfo_cases (info : JobInfo) (offset : Int64) :
    (∃ snapshot, Snapshot.ofInfo info offset = .ok snapshot ∧
        snapshot.status.toInt = info.status.toInt + offset.toInt) ∨
      (Snapshot.ofInfo info offset = .error ⟨info.status, offset⟩ ∧
        ¬ (-0x8000000000000000 ≤ info.status.toInt + offset.toInt ∧
          info.status.toInt + offset.toInt < 0x8000000000000000)) := by
  unfold Snapshot.ofInfo signedWord?
  by_cases hfits : -0x8000000000000000 ≤ info.status.toInt + offset.toInt ∧
      info.status.toInt + offset.toInt < 0x8000000000000000
  · rw [if_pos hfits]
    exact .inl ⟨_, rfl, Int64.toInt_ofInt_of_le hfits.1 hfits.2⟩
  · rw [if_neg hfits]
    exact .inr ⟨rfl, hfits⟩

/-- A store that accepts a job counts on from its id, and from the last one to zero. -/
theorem nextJobId_submit {s s' : Store} {policy : Option ScanPolicy} {job : Job} {id : JobId}
    (h : s.submit policy job = (.ok id, s')) :
    id = s.nextJobId ∧ s'.nextJobId.toNat = (id.toNat + 1) % 0x10000000000000000 := by
  rcases s.submit_cases policy job with ⟨e, -, hs⟩ | ⟨-, -, hs⟩ | ⟨udf, -, -, hs⟩
  · rw [hs] at h
    cases h
  · rw [hs] at h
    cases h
  · rw [hs] at h
    cases h
    exact ⟨rfl, UInt64.toNat_add _ _⟩

/-! ## 3. Calls -/

/-- The fault that ended a call, if one did. -/
def SessionAnswer.fault? : SessionAnswer → Option Fault
  | .applied (.error fault) => some fault
  | .polled (.error fault) => some fault
  | _ => none

/-- The request of an action, if it submits one. -/
def SessionAction.request? : SessionAction → Option ScanRequest
  | .scanApply r => some r
  | .scanApplyDecoded raw => (ScanRequest.decode raw).toOption
  | _ => none

/-- That nothing goes wrong in an action of a client. -/
structure Exchange.Sound (e : Exchange) : Prop where
  ended : e.answer.fault? = none
  /-- The depth fits its word, with any limits. -/
  counted : ∀ r, e.action.request? = some r → r.args.nesting < 0x10000000000000000 →
    countedArguments e.client.settings.limits r.args =
      some (convertArguments e.client.settings.limits r.args)

namespace NoFaultLemmas

theorem scanApply_noFault (c : Client) (s : Store) (r : ScanRequest) :
    (SessionAnswer.applied (c.scanApply s r).outcome).fault? = none := by
  rw [(scanApply_seen c s r).1]
  rfl

theorem exchange_noFault (c : Client) (s : Store) (action : SessionAction) :
    (c.exchange s action).answer.fault? = none := by
  cases action with
  | scanApply r => exact scanApply_noFault c s r
  | scanApplyDecoded raw =>
    simp only [Client.exchange, Client.sessionAt, Session.step]
    cases ScanRequest.decode raw with
    | error e => rfl
    | ok r => exact scanApply_noFault c s r
  | scanInfo id policy =>
    show (SessionAnswer.polled (c.scanInfo s id policy).outcome).fault? = none
    rw [(scanInfo_seen c s id policy).1]
    rfl
  | _ => rfl

end NoFaultLemmas

/-- In every run, with any clients at any store, every action of a client goes well; so do
setting options on any job, moving any status code, and counting on from any id. -/
theorem never_faults (f : Fleet) (actions : List FleetAction) :
    (∀ e ∈ (f.run actions).1, e.Sound) ∧
      (∀ (job : Job) (raw : Json) (j : Journal) (fault : Fault),
        (job.applyOptions raw j).1 ≠ .error (.fault fault)) ∧
      (∀ (info : JobInfo) (offset : Int64),
        (∃ snapshot, Snapshot.ofInfo info offset = .ok snapshot ∧
            snapshot.status.toInt = info.status.toInt + offset.toInt) ∨
          (Snapshot.ofInfo info offset = .error ⟨info.status, offset⟩ ∧
            ¬ (-0x8000000000000000 ≤ info.status.toInt + offset.toInt ∧
              info.status.toInt + offset.toInt < 0x8000000000000000))) ∧
      ∀ (s s' : Store) (policy : Option ScanPolicy) (job : Job) (id : JobId),
        s.submit policy job = (.ok id, s') →
          id = s.nextJobId ∧ s'.nextJobId.toNat = (id.toNat + 1) % 0x10000000000000000 := by
  refine ⟨run_history (fun c s action => ?_) f actions, applyOptions_noFault, ofInfo_cases,
    fun s s' policy job id => nextJobId_submit⟩
  exact ⟨exchange_noFault c s action,
    fun r _ h => countedArguments_eq c.settings.limits h⟩

end BackgroundScan
