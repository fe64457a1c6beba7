import BackgroundScan.Job.Bench
import BackgroundScan.Proofs.Calls
import BackgroundScan.Proofs.LeaseMoves

/-!
# What a step of work can do

Work on a job sets what the job is made of, and it moves leases: a job holds one for itself and one
for the list of its function, and every list that is kept outside of it holds one more. All of them
count on one ledger.

1. `Journal.follow`: the journal after moves of leases.
2. `Bench.on`: a new job on a ledger. `Bench.held`: the leases that are held. `Bench.moves`: what a
   step does to them.
3. `BenchStep`: all that a step can do. `benchStep_next`: every step is one of these.
4. `BenchStep.journal` and `BenchStep.conserves`: the moves of a step decide what it leaves in the
   journal and which leases are held. `ledger_run` and `conserves_run`: the same of a run.
-/

namespace BackgroundScan

open LeaseMoveLemmas CallLemmas

/-! ## 1. Journals and moves -/

namespace Journal

/-- The journal after a move. -/
def move (j : Journal) : LeaseMove → Journal
  | .taken lease => j.acquire lease.resource
  | .cloned _ => j.duplicate
  | .returned lease => j.release lease.resource

/-- The journal after moves. -/
def follow (j : Journal) (moves : List LeaseMove) : Journal := moves.foldl move j

theorem ledger_follow (j : Journal) (moves : List LeaseMove) :
    (j.follow moves).ledger = j.ledger.after moves := by
  induction moves generalizing j with
  | nil => rfl
  | cons first rest ih =>
    have hfirst : (j.move first).ledger = j.ledger.after [first] := by cases first <;> rfl
    calc ((j.move first).follow rest).ledger
      _ = (j.ledger.after [first]).after rest := by rw [ih, hfirst]
      _ = j.ledger.after (first :: rest) := (after_append _ _ _).symm

theorem events_follow (j : Journal) (moves : List LeaseMove) :
    (j.follow moves).events = j.events ++ moves.filterMap LeaseMove.event? := by
  induction moves generalizing j with
  | nil => exact (List.append_nil _).symm
  | cons first rest ih =>
    have hfirst : (j.move first).events = j.events ++ first.event?.toList := by
      cases first with
      | taken _ | returned _ => rfl
      | cloned _ => exact (List.append_nil _).symm
    rw [show j.follow (first :: rest) = (j.move first).follow rest from rfl, ih, hfirst,
      List.append_assoc]
    cases first <;> rfl

end Journal

/-! ## 2. Leases and their moves -/

namespace Lease

/-- The lease of a job on the one ledger. -/
def ofJob : Lease := ⟨.descriptor, 0⟩

/-- The lease of an argument list on the one ledger. -/
def ofList : Lease := ⟨.argList, 0⟩

end Lease

/-- A new job whose lease counts on a ledger. -/
def Bench.on (l : Ledger) (space set : String) : Bench :=
  ⟨some (.new space set), [], (Journal.start l).openJob⟩

example (space set : String) : Bench.start space set = Bench.on .empty space set := rfl

/-- The leases that a job holds. -/
def Job.held (job : Job) : List Lease := .ofJob :: job.udf.toList.map fun _ => .ofList

namespace Bench

/-- The leases that are held. -/
def held (b : Bench) : List Lease := (b.job.elim [] Job.held) ++ b.kept.map fun _ => .ofList

/-- What a step does to the leases of what is kept. -/
def keptMoves (b : Bench) : BenchAction → List LeaseMove
  | .makeList _ => [.taken .ofList]
  | .copyKept place _ => (b.kept[place]?.map fun _ => .cloned .ofList).toList
  | .dropKept place => (b.kept[place]?.map fun _ => .returned .ofList).toList
  | .releaseKept => b.kept.map fun _ => .returned .ofList
  | _ => []

/-- What a step does to leases where there is a job. -/
def jobMoves (b : Bench) (job : Job) : BenchAction → List LeaseMove
  | .attach moduleName functionName raw limits keep =>
    match convertArguments limits raw with
    | .error _ => []
    | .ok args =>
      if (job.attach? ⟨moduleName, functionName, args⟩).isSome || keep then [.taken .ofList]
      else [.taken .ofList, .returned .ofList]
  | .copyUdf _ => (job.udf.map fun _ => .cloned .ofList).toList
  | .cloneUdf => if job.udf.isSome then [.cloned .ofList, .returned .ofList] else []
  | .drop => job.held.reverse.map .returned
  | action => b.keptMoves action

/-- What a step does to leases. -/
def moves (b : Bench) (action : BenchAction) : List LeaseMove :=
  match b.job with
  | some job => b.jobMoves job action
  | none => b.keptMoves action

/-- The bench after a step. -/
def next (b : Bench) (action : BenchAction) : Bench := (b.step action).2

/-- The bench after a run. -/
def run (b : Bench) (actions : List BenchAction) : Bench := actions.foldl next b

/-- What a run does to leases. -/
def movesOf (b : Bench) (actions : List BenchAction) : List LeaseMove :=
  (historyFrom next b actions).flatMap fun e => e.1.moves e.2

end Bench

/-! ## 3. Steps -/

/-- Whether a name has from 1 to 63 bytes. -/
def NameSize (name : String) : Prop := 1 ≤ name.utf8ByteSize ∧ name.utf8ByteSize ≤ 63

/-- Whether a job takes a function of these names: it has none yet, and the names have their
size. -/
def Job.Takes (job : Job) (moduleName functionName : String) : Prop :=
  job.udf = none ∧ NameSize moduleName ∧ NameSize functionName

/-- Whether what a step is about is not there. -/
def Bench.Lacks (b : Bench) : BenchAction → Prop
  | .makeList _ => False
  | .releaseKept => False
  | .copyKept place _ => b.kept[place]? = none
  | .dropKept place => b.kept[place]? = none
  | .attachKept _ _ place => b.job = none ∨ ∀ args, b.kept[place]? ≠ some (.list args)
  | .copyUdf _ => b.job = none ∨ ∃ job, b.job = some job ∧ job.udf = none
  | _ => b.job = none

/-- All that a step can do, with its answer and what it does to leases. -/
inductive BenchStep (b : Bench) : BenchAction → BenchAnswer → List LeaseMove → Bench → Prop
  | percentSet {job : Job} {percent : UInt8} (hjob : b.job = some job) (hle : percent ≤ 100) :
    BenchStep b (.setPercent percent) (.flag true) [] { b with job := some { job with percent } }
  | percentRefused {job : Job} {percent : UInt8} (hjob : b.job = some job) (hlt : 100 < percent) :
    BenchStep b (.setPercent percent) (.flag false) [] b
  | prioritySet {job : Job} {priority : Priority} (hjob : b.job = some job) :
    BenchStep b (.setPriority priority) .nothing [] { b with job := some { job with priority } }
  | concurrentSet {job : Job} {concurrent : Bool} (hjob : b.job = some job) :
    BenchStep b (.setConcurrent concurrent) .nothing []
      { b with job := some { job with concurrent } }
  | noBinsSet {job : Job} {noBins : Bool} (hjob : b.job = some job) :
    BenchStep b (.setNoBins noBins) .nothing [] { b with job := some { job with noBins } }
  | policySet {job : Job} {policy : Option ScanPolicy} (hjob : b.job = some job) :
    BenchStep b (.setPolicy policy) .nothing [] { b with job := some { job with policy } }
  | optionsSet {job : Job} {raw : Json} {o : ScanOptions} (hjob : b.job = some job)
      (hparse : ScanOptions.parse raw = .ok o) :
    BenchStep b (.applyOptions raw) (.outcome (.ok ())) []
      { b with job := some (job.withOptions o) }
  | optionsRefused {job : Job} {raw : Json} {e : OptionsError} (hjob : b.job = some job)
      (hparse : ScanOptions.parse raw = .error e) :
    BenchStep b (.applyOptions raw) (.outcome (.error (.failure e.failure))) []
      { b with journal := b.journal.noteIfAny e.event }
  | uncheckedSet {job : Job} {o : ScanOptions} (hjob : b.job = some job)
      (hle : ∀ percent, o.percent = some percent → percent ≤ 100) :
    BenchStep b (.applyUnchecked o) (.outcome (.ok ())) []
      { b with job := some (job.withOptions o) }
  | uncheckedFaults {job : Job} {o : ScanOptions} {percent : UInt8} (hjob : b.job = some job)
      (hpercent : o.percent = some percent) (hlt : 100 < percent) :
    BenchStep b (.applyUnchecked o) (.outcome (.error (.fault (.unvalidatedPercent percent)))) [] b
  | argumentsRefused {job : Job} {moduleName functionName : String} {raw : Json} {limits : Limits}
      {keep : Bool} {e : ConversionError} (hjob : b.job = some job)
      (hargs : convertArguments limits raw = .error e) :
    BenchStep b (.attach moduleName functionName raw limits keep)
      (.outcome (.error (.failure e.failure))) [] b
  | attached {job : Job} {moduleName functionName : String} {raw : Json} {limits : Limits}
      {keep : Bool} {args : List Value} (hjob : b.job = some job)
      (hargs : convertArguments limits raw = .ok args)
      (htakes : job.Takes moduleName functionName) :
    BenchStep b (.attach moduleName functionName raw limits keep) (.outcome (.ok ()))
      [.taken .ofList]
      { b with
        job := some { job with udf := some ⟨moduleName, functionName, args⟩ }
        journal := b.journal.acquire .argList }
  | handedBack {job : Job} {moduleName functionName : String} {raw : Json} {limits : Limits}
      {args : List Value} (hjob : b.job = some job) (hargs : convertArguments limits raw = .ok args)
      (hrefuses : ¬ job.Takes moduleName functionName) :
    BenchStep b (.attach moduleName functionName raw limits true) (.rejected args)
      [.taken .ofList] (b.keep (.list args) (b.journal.acquire .argList))
  | handedBackAndDropped {job : Job} {moduleName functionName : String} {raw : Json}
      {limits : Limits} {args : List Value} (hjob : b.job = some job)
      (hargs : convertArguments limits raw = .ok args)
      (hrefuses : ¬ job.Takes moduleName functionName) :
    BenchStep b (.attach moduleName functionName raw limits false) (.rejected args)
      [.taken .ofList, .returned .ofList]
      { b with journal := (b.journal.acquire .argList).release .argList }
  | keptAttached {job : Job} {moduleName functionName : String} {place : Nat} {args : List Value}
      (hjob : b.job = some job) (hlist : b.kept[place]? = some (.list args))
      (htakes : job.Takes moduleName functionName) :
    BenchStep b (.attachKept moduleName functionName place) (.outcome (.ok ())) []
      { b with
        job := some { job with udf := some ⟨moduleName, functionName, args⟩ }
        kept := b.kept.eraseIdx place }
  | keptHandedBack {job : Job} {moduleName functionName : String} {place : Nat}
      {args : List Value} (hjob : b.job = some job) (hlist : b.kept[place]? = some (.list args))
      (hrefuses : ¬ job.Takes moduleName functionName) :
    BenchStep b (.attachKept moduleName functionName place) (.rejected args) [] b
  | udfCopied {job : Job} {udf : Udf} {listOnly : Bool} (hjob : b.job = some job)
      (hudf : job.udf = some udf) :
    BenchStep b (.copyUdf listOnly) .nothing [.cloned .ofList]
      (b.keep ((Holder.call udf).copy listOnly) b.journal.duplicate)
  | udfCompared {job : Job} {udf : Udf} (hjob : b.job = some job) (hudf : job.udf = some udf) :
    BenchStep b .cloneUdf (.compared (udf.sameAs udf) b.journal.ledger.acquire)
      [.cloned .ofList, .returned .ofList]
      { b with journal := b.journal.duplicate.release .argList }
  | nothingCompared {job : Job} (hjob : b.job = some job) (hudf : job.udf = none) :
    BenchStep b .cloneUdf (.compared true b.journal.ledger) [] b
  | jobDropped {job : Job} (hjob : b.job = some job) :
    BenchStep b .drop .nothing (job.held.reverse.map .returned)
      { b with job := none, journal := b.journal.closeJob job }
  | listMade {args : List Value} :
    BenchStep b (.makeList args) .nothing [.taken .ofList]
      (b.keep (.list args) (b.journal.acquire .argList))
  | keptCopied {place : Nat} {listOnly : Bool} {holder : Holder}
      (hholder : b.kept[place]? = some holder) :
    BenchStep b (.copyKept place listOnly) .nothing [.cloned .ofList]
      (b.keep (holder.copy listOnly) b.journal.duplicate)
  | keptDropped {place : Nat} {holder : Holder} (hholder : b.kept[place]? = some holder) :
    BenchStep b (.dropKept place) .nothing [.returned .ofList]
      { b with kept := b.kept.eraseIdx place, journal := b.journal.release .argList }
  | allDropped :
    BenchStep b .releaseKept .nothing (b.kept.map fun _ => .returned .ofList)
      { b with kept := [], journal := Bench.closeKept b.journal b.kept }
  | nothingThere {action : BenchAction} (hlacks : b.Lacks action) :
    BenchStep b action .nothing [] b

namespace BenchStepLemmas

theorem nameFits_iff {name : String} : nameFits name = true ↔ NameSize name := by
  rw [nameFits, NameSize, Bool.and_eq_true, bne_iff_ne, ne_eq, decide_eq_true_iff,
    ← String.utf8ByteSize_eq_zero_iff, Nat.one_le_iff_ne_zero]
  rfl

theorem attach?_of_takes {job : Job} {moduleName functionName : String}
    (h : job.Takes moduleName functionName) (args : List Value) :
    job.attach? ⟨moduleName, functionName, args⟩ =
      some { job with udf := some ⟨moduleName, functionName, args⟩ } :=
  Job.attach?_eq_some_iff.mpr ⟨h.1, nameFits_iff.mpr h.2.1, nameFits_iff.mpr h.2.2, rfl⟩

theorem attach?_of_refuses {job : Job} {moduleName functionName : String}
    (h : ¬ job.Takes moduleName functionName) (args : List Value) :
    job.attach? ⟨moduleName, functionName, args⟩ = none := by
  refine Option.eq_none_iff_forall_ne_some.mpr fun after hafter => h ?_
  obtain ⟨hnone, hmodule, hfunction, -⟩ := Job.attach?_eq_some_iff.mp hafter
  exact ⟨hnone, nameFits_iff.mp hmodule, nameFits_iff.mp hfunction⟩

theorem apply_of_lt {job : Job} {o : ScanOptions} {percent : UInt8}
    (hpercent : o.percent = some percent) (hlt : 100 < percent) :
    job.apply o = .error (.unvalidatedPercent percent) := by
  simp only [Job.apply, hpercent, Job.setPercent?, if_pos hlt]

theorem benchStep_copyKept (b : Bench) (place : Nat) (listOnly : Bool) :
    BenchStep b (.copyKept place listOnly) .nothing (b.keptMoves (.copyKept place listOnly))
      (b.stepKept (.copyKept place listOnly)) := by
  simp only [Bench.stepKept, Bench.keptMoves]
  cases hholder : b.kept[place]? with
  | none => exact .nothingThere hholder
  | some holder => exact .keptCopied hholder

theorem benchStep_dropKept (b : Bench) (place : Nat) :
    BenchStep b (.dropKept place) .nothing (b.keptMoves (.dropKept place))
      (b.stepKept (.dropKept place)) := by
  simp only [Bench.stepKept, Bench.keptMoves]
  cases hholder : b.kept[place]? with
  | none => exact .nothingThere hholder
  | some holder => exact .keptDropped hholder

end BenchStepLemmas

open BenchStepLemmas

/-- Every step is one of these. -/
theorem Bench.benchStep_next (b : Bench) (action : BenchAction) :
    BenchStep b action (b.step action).1 (b.moves action) (b.next action) := by
  cases hjob : b.job with
  | none =>
    simp only [next, step, moves, hjob]
    cases action with
    | makeList args => exact .listMade
    | copyKept place listOnly => exact benchStep_copyKept b place listOnly
    | dropKept place => exact benchStep_dropKept b place
    | releaseKept => exact .allDropped
    | attachKept _ _ _ | copyUdf _ => exact .nothingThere (.inl hjob)
    | setPercent _ | setPriority _ | setConcurrent _ | setNoBins _ | setPolicy _ | applyOptions _
    | applyUnchecked _ | attach _ _ _ _ _ | cloneUdf | drop => exact .nothingThere hjob
  | some job =>
    simp only [next, step, moves, hjob]
    cases action with
    | setPercent percent =>
      simp only [stepOn, Job.setPercent?]
      by_cases hlt : 100 < percent
      · rw [if_pos hlt]
        exact .percentRefused hjob hlt
      · rw [if_neg hlt]
        exact .percentSet hjob (UInt8.not_lt.mp hlt)
    | setPriority priority => exact .prioritySet hjob
    | setConcurrent concurrent => exact .concurrentSet hjob
    | setNoBins noBins => exact .noBinsSet hjob
    | setPolicy policy => exact .policySet hjob
    | applyOptions raw =>
      simp only [stepOn, Job.applyOptions]
      cases hparse : ScanOptions.parse raw with
      | error e => exact .optionsRefused hjob hparse
      | ok o =>
        simp only [apply_of_parse hparse]
        exact .optionsSet hjob hparse
    | applyUnchecked o =>
      simp only [stepOn]
      by_cases hle : ∀ percent, o.percent = some percent → percent ≤ 100
      · rw [apply_of_le hle]
        exact .uncheckedSet hjob hle
      · simp only [not_forall, UInt8.not_le] at hle
        obtain ⟨percent, hpercent, hlt⟩ := hle
        rw [apply_of_lt hpercent hlt]
        exact .uncheckedFaults hjob hpercent hlt
    | attach moduleName functionName raw limits keep =>
      simp only [stepOn, jobMoves, Journal.convert]
      cases hargs : convertArguments limits raw with
      | error e => exact .argumentsRefused hjob hargs
      | ok args =>
        by_cases htakes : job.Takes moduleName functionName
        · simp only [attach?_of_takes htakes args, Option.isSome_some, Bool.true_or]
          exact .attached hjob hargs htakes
        · simp only [attach?_of_refuses htakes args]
          cases keep with
          | true => exact .handedBack hjob hargs htakes
          | false => exact .handedBackAndDropped hjob hargs htakes
    | attachKept moduleName functionName place =>
      simp only [stepOn]
      split
      next args hlist =>
        by_cases htakes : job.Takes moduleName functionName
        · simp only [attach?_of_takes htakes args]
          exact .keptAttached hjob hlist htakes
        · simp only [attach?_of_refuses htakes args]
          exact .keptHandedBack hjob hlist htakes
      next hnone => exact .nothingThere (.inr fun args hlist => hnone args hlist)
    | copyUdf listOnly =>
      simp only [stepOn, jobMoves]
      cases hudf : job.udf with
      | none => exact .nothingThere (.inr ⟨job, hjob, hudf⟩)
      | some udf => exact .udfCopied hjob hudf
    | cloneUdf =>
      simp only [stepOn, jobMoves]
      cases hudf : job.udf with
      | none => exact .nothingCompared hjob hudf
      | some udf => exact .udfCompared hjob hudf
    | drop => exact .jobDropped hjob
    | makeList args => exact .listMade
    | copyKept place listOnly => exact benchStep_copyKept b place listOnly
    | dropKept place => exact benchStep_dropKept b place
    | releaseKept => exact .allDropped

/-! ## 4. What is left behind -/

namespace BenchStepLemmas

theorem follow_closeKept (j : Journal) (kept : List Holder) :
    Bench.closeKept j kept = j.follow (kept.map fun _ => .returned .ofList) := by
  induction kept generalizing j with
  | nil => rfl
  | cons first rest ih => exact ih (j.release .argList)

theorem follow_closeJob (j : Journal) (job : Job) :
    j.closeJob job = j.follow (job.held.reverse.map .returned) := by
  unfold Journal.closeJob Job.held
  cases job.udf <;> rfl

/-- What is kept at a place holds a lease like the rest. -/
theorem map_eraseIdx {kept : List Holder} {place : Nat} {holder : Holder}
    (h : kept[place]? = some holder) :
    (kept.map fun _ => Lease.ofList).Perm
      ((kept.eraseIdx place).map (fun _ => Lease.ofList) ++ [.ofList]) := by
  obtain ⟨hlt, -⟩ := List.getElem?_eq_some_iff.mp h
  exact ((List.getElem_cons_eraseIdx_perm hlt).map fun _ => Lease.ofList).symm.trans
    (List.perm_append_singleton _ _).symm

theorem gained_returned (leases : List Lease) : gained (leases.map .returned) = [] := by
  rw [gained, List.filterMap_map]
  exact List.filterMap_eq_nil_iff.mpr fun _ _ => rfl

theorem givenBack_returned (leases : List Lease) : givenBack (leases.map .returned) = leases := by
  rw [givenBack, List.filterMap_map]
  exact List.filterMap_some

theorem held_keep (b : Bench) (holder : Holder) (j : Journal) :
    (b.keep holder j).held = b.held ++ [.ofList] := by
  simp only [Bench.held, Bench.keep, List.map_append, List.map_singleton, List.append_assoc]

theorem held_of_job {b : Bench} {job : Job} (h : b.job = some job) :
    b.held = job.held ++ b.kept.map fun _ => .ofList := by
  rw [Bench.held, h, Option.elim_some]

/-- A job holds as many leases as before if its function stays. -/
theorem conserves_setJob {b : Bench} {job job' : Job} (h : b.job = some job)
    (hudf : job'.udf = job.udf) : Conserves b.held [] { b with job := some job' }.held := by
  have hsame : job'.held = job.held := by rw [Job.held, Job.held, hudf]
  rw [held_of_job h, held_of_job (b := { b with job := some job' }) rfl, hsame]
  exact conserves_nil _

/-- A job that takes a function takes over the lease of its list. -/
theorem held_takes {job : Job} {moduleName functionName : String} {args : List Value}
    (h : job.Takes moduleName functionName) :
    ({ job with udf := some ⟨moduleName, functionName, args⟩ } : Job).held =
      job.held ++ [.ofList] := by
  rw [Job.held, Job.held, h.1]
  rfl

end BenchStepLemmas

namespace BenchStep

variable {b b' : Bench} {action : BenchAction} {answer : BenchAnswer} {moves : List LeaseMove}

/-- A step leaves its moves in the journal, and before them the event of options that are
refused. -/
theorem journal (h : BenchStep b action answer moves b') :
    ∃ refusal : Option DecodeError,
      b'.journal = (b.journal.noteIfAny (refusal.map .optionsRejected)).follow moves := by
  cases h with
  | @optionsRefused job raw e hjob hparse =>
    cases e with
    | shape cause => exact ⟨some cause, rfl⟩
    | notAnObject | percentAbove _ | unknownPriority _ => exact ⟨none, rfl⟩
  | jobDropped hjob => exact ⟨none, follow_closeJob b.journal _⟩
  | allDropped => exact ⟨none, follow_closeKept b.journal b.kept⟩
  | _ => exact ⟨none, rfl⟩

/-- The leases that come in with a step are held or given back, like those held before. -/
theorem conserves (h : BenchStep b action answer moves b') : Conserves b.held moves b'.held := by
  cases h with
  | percentSet hjob | prioritySet hjob | concurrentSet hjob | noBinsSet hjob | policySet hjob
  | optionsSet hjob | uncheckedSet hjob => exact conserves_setJob hjob rfl
  | percentRefused | optionsRefused | uncheckedFaults | argumentsRefused | keptHandedBack
  | nothingCompared | nothingThere => exact conserves_nil _
  | handedBack | udfCopied | listMade | keptCopied =>
    rw [Conserves, held_keep]
    exact .of_eq (List.append_nil _).symm
  | handedBackAndDropped | udfCompared => exact .refl _
  | attached hjob hargs htakes =>
    rw [Conserves, held_of_job hjob, held_of_job rfl, held_takes htakes]
    show (_ ++ [Lease.ofList]).Perm (_ ++ [])
    rw [List.append_nil, List.append_assoc, List.append_assoc]
    exact List.perm_append_comm.append_left _
  | keptAttached hjob hlist htakes =>
    rw [Conserves, held_of_job hjob, held_of_job rfl, held_takes htakes]
    show (_ ++ []).Perm (_ ++ [])
    rw [List.append_nil, List.append_nil, List.append_assoc]
    exact ((map_eraseIdx hlist).trans List.perm_append_comm).append_left _
  | @jobDropped job hjob =>
    rw [Conserves, gained_returned, givenBack_returned, held_of_job hjob, List.append_nil]
    exact List.perm_append_comm.trans ((List.reverse_perm job.held).symm.append_left _)
  | keptDropped hholder =>
    show (_ ++ []).Perm ((b.job.elim [] Job.held ++ _) ++ [Lease.ofList])
    rw [List.append_nil, List.append_assoc]
    exact (map_eraseIdx hholder).append_left _
  | allDropped =>
    have hmoves : (b.kept.map fun _ => LeaseMove.returned .ofList) =
        (b.kept.map fun _ => Lease.ofList).map .returned := List.map_map.symm
    rw [Conserves, hmoves, gained_returned, givenBack_returned, List.append_nil]
    show b.held.Perm ((b.job.elim [] Job.held ++ []) ++ _)
    rw [List.append_nil]
    exact .refl _

end BenchStep

namespace Bench

/-- What a run leaves in the ledger. -/
theorem ledger_run (b : Bench) (actions : List BenchAction) :
    (b.run actions).journal.ledger = b.journal.ledger.after (b.movesOf actions) := by
  refine history_induction
    (R := fun (now : Bench) past =>
      now.journal.ledger = b.journal.ledger.after (past.flatMap fun e => e.1.moves e.2))
    ?_ rfl actions
  intro now past action h
  obtain ⟨refusal, hjournal⟩ := (now.benchStep_next action).journal
  rw [List.flatMap_append, List.flatMap_singleton, after_append, ← h, hjournal,
    Journal.ledger_follow, Journal.ledger_noteIfAny]

theorem conserves_run (b : Bench) (actions : List BenchAction) :
    Conserves b.held (b.movesOf actions) (b.run actions).held := by
  refine history_induction
    (R := fun (now : Bench) past => Conserves b.held (past.flatMap fun e => e.1.moves e.2) now.held)
    ?_ (conserves_nil b.held) actions
  intro now past action h
  rw [List.flatMap_append, List.flatMap_singleton]
  exact conserves_trans h (now.benchStep_next action).conserves

end Bench

end BackgroundScan
