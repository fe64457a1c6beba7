import BackgroundScan.Proofs.BenchSteps
import BackgroundScan.Proofs.Leases
import BackgroundScan.Proofs.OptionGrammar

/-!
# What stays true of a job

However a job is worked on, it is a job that may be submitted: its percentage is in range, its
function was attached once and has names of the right size, and it is for the namespace and the set
that it was made for. A step that fails leaves the job as it was. And its ledger shows the leases
that are held, those of the job and those of the lists outside of it.

1. `BenchAnswer.Fails`: the answers that report a failure. `Job.Overridden`: a job in which the
   options of an object were set.
2. `Job.Becomes`: what work keeps of a job. `BenchStep.becomes`, `BenchStep.same_of_fails` and
   `BenchStep.overridden`: what a step keeps and sets. `becomes_run`: what a run keeps.
3. `Bench.WellKept`: the job, its lists and its ledger. `wellKept_run`: so they are after a run.
   `keeps_job`: the same with what the next step does and what any later run keeps.
-/

namespace BackgroundScan

open LeaseMoveLemmas OverrideLemmas BenchStepLemmas

/-! ## 1. Failures and settings -/

namespace BenchAnswer

/-- Whether a step reports that it failed. -/
inductive Fails : BenchAnswer → Prop
  | flag : Fails (.flag false)
  | outcome (stop : Stop) : Fails (.outcome (.error stop))
  | rejected (args : List Value) : Fails (.rejected args)

end BenchAnswer

/-- A job as it is after the options of an object were set: what is not given is as it was. -/
structure Job.Overridden (raw : Json) (job job' : Job) : Prop where
  percent : InEffect (some raw) "percent" (fun value n => value.IsInteger n.toNat)
    job.percent job'.percent
  priority : InEffect (some raw) "priority" (fun value p => value.IsInteger p.code)
    job.priority job'.priority
  concurrent : InEffect (some raw) "concurrent" (fun value b => value = .bool b)
    job.concurrent job'.concurrent
  noBins : InEffect (some raw) "nobins" (fun value b => value = .bool b) job.noBins job'.noBins
  rest : job' = { job with
    percent := job'.percent
    priority := job'.priority
    concurrent := job'.concurrent
    noBins := job'.noBins }

/-! ## 2. What work keeps of a job -/

/-- Whether the names of a function have their size. -/
def Udf.Named (udf : Udf) : Prop := NameSize udf.moduleName ∧ NameSize udf.functionName

/-- What work keeps of a job. -/
structure Job.Becomes (job job' : Job) : Prop where
  space : job'.space = job.space
  set : job'.set = job.set
  udf : ∀ udf, job.udf = some udf → job'.udf = some udf
  percent_le : job.percent ≤ 100 → job'.percent ≤ 100
  named : (∀ udf, job.udf = some udf → udf.Named) → ∀ udf, job'.udf = some udf → udf.Named

namespace Job.Becomes

variable {job job' job'' : Job}

theorem refl (job : Job) : job.Becomes job := ⟨rfl, rfl, fun _ => id, id, id⟩

theorem trans (h : job.Becomes job') (h' : job'.Becomes job'') : job.Becomes job'' where
  space := h'.space.trans h.space
  set := h'.set.trans h.set
  udf := fun udf hudf => h'.udf udf (h.udf udf hudf)
  percent_le := fun hle => h'.percent_le (h.percent_le hle)
  named := fun hnamed => h'.named (h.named hnamed)

theorem withOptions (job : Job) {o : ScanOptions}
    (h : ∀ percent, o.percent = some percent → percent ≤ 100) :
    job.Becomes (job.withOptions o) where
  space := rfl
  set := rfl
  udf := fun _ => id
  percent_le := by
    intro hle
    rw [Job.withOptions]
    cases hpercent : o.percent with
    | none => exact hle
    | some percent => exact h percent hpercent
  named := id

theorem attach {moduleName functionName : String} (h : job.Takes moduleName functionName)
    (args : List Value) :
    job.Becomes { job with udf := some ⟨moduleName, functionName, args⟩ } where
  space := rfl
  set := rfl
  udf := fun udf hudf => nomatch h.1.symm.trans hudf
  percent_le := id
  named := by
    rintro - udf hudf
    obtain rfl := Option.some.inj hudf
    exact h.2

end Job.Becomes

namespace BenchStep

variable {b b' : Bench} {action : BenchAction} {answer : BenchAnswer} {moves : List LeaseMove}

/-- A job that is there after a step was there before. -/
theorem becomes (h : BenchStep b action answer moves b') {job' : Job} (hjob' : b'.job = some job') :
    ∃ job, b.job = some job ∧ job.Becomes job' := by
  cases h with
  | percentSet hjob hle =>
    obtain rfl := Option.some.inj hjob'
    exact ⟨_, hjob, rfl, rfl, fun _ => id, fun _ => hle, id⟩
  | prioritySet hjob | concurrentSet hjob | noBinsSet hjob | policySet hjob =>
    obtain rfl := Option.some.inj hjob'
    exact ⟨_, hjob, rfl, rfl, fun _ => id, id, id⟩
  | optionsSet hjob hparse =>
    obtain rfl := Option.some.inj hjob'
    exact ⟨_, hjob, .withOptions _ fun _ => ScanOptions.percent_le_of_parse hparse⟩
  | uncheckedSet hjob hle =>
    obtain rfl := Option.some.inj hjob'
    exact ⟨_, hjob, .withOptions _ hle⟩
  | attached hjob _ htakes | keptAttached hjob _ htakes =>
    obtain rfl := Option.some.inj hjob'
    exact ⟨_, hjob, .attach htakes _⟩
  | jobDropped => cases hjob'
  | _ => exact ⟨job', hjob', .refl job'⟩

/-- A step that fails leaves the job as it was. -/
theorem same_of_fails (h : BenchStep b action answer moves b') (hfails : answer.Fails) :
    b'.job = b.job := by
  cases h with
  | percentSet | prioritySet | concurrentSet | noBinsSet | policySet | optionsSet | uncheckedSet
  | attached | keptAttached | jobDropped => cases hfails
  | _ => rfl

/-- Options that are not refused are set. -/
theorem overridden {raw : Json} (h : BenchStep b (.applyOptions raw) answer moves b')
    (hok : ¬ answer.Fails) {job : Job} (hjob : b.job = some job) :
    ∃ job', b'.job = some job' ∧ job.Overridden raw job' := by
  cases h with
  | @optionsSet before _ o hbefore hparse =>
    obtain rfl : before = job := Option.some.inj (hbefore.symm.trans hjob)
    obtain ⟨hpercent, hpriority, hconcurrent, hnoBins⟩ := ScanOptions.heldAs_of_parse hparse
    exact ⟨_, rfl, inEffect_of_heldAs hpercent _, inEffect_of_heldAs hpriority _,
      inEffect_of_heldAs hconcurrent _, inEffect_of_heldAs hnoBins _, rfl⟩
  | optionsRefused => exact absurd (.outcome _) hok
  | nothingThere hlacks => exact nomatch hlacks.symm.trans hjob

end BenchStep

namespace Bench

theorem becomes_run (b : Bench) (actions : List BenchAction) {job' : Job}
    (hjob' : (b.run actions).job = some job') : ∃ job, b.job = some job ∧ job.Becomes job' := by
  refine history_induction
    (R := fun (now : Bench) _ =>
      ∀ job', now.job = some job' → ∃ job, b.job = some job ∧ job.Becomes job')
    ?_ (fun job hjob => ⟨job, hjob, .refl job⟩) actions job' hjob'
  intro now _ action h job'' hjob''
  obtain ⟨job', hjob', hnow⟩ := (now.benchStep_next action).becomes hjob''
  obtain ⟨job, hjob, hpast⟩ := h job' hjob'
  exact ⟨job, hjob, hpast.trans hnow⟩

end Bench

/-! ## 3. Jobs, their lists and their ledger -/

namespace Bench

/-- How many leases are held: those of the job, and one for each list outside of it. -/
def leases (b : Bench) : Nat := b.job.elim 0 Job.leases + b.kept.length

/-- What is true of a job that was made for a namespace and a set on a ledger, of the lists outside
of it, and of the ledger. -/
structure WellKept (l : Ledger) (space set : String) (b : Bench) : Prop where
  madeFor : ∀ job, b.job = some job → job.space = space ∧ job.set = set
  percent_le : ∀ job, b.job = some job → job.percent ≤ 100
  named : ∀ job udf, b.job = some job → job.udf = some udf → udf.Named
  ledger : ∃ n, b.journal.ledger = ⟨l.acquired + n + b.leases, l.released + n⟩
  outstanding : l.released ≤ l.acquired →
    b.journal.ledger.outstanding = l.outstanding + b.leases

theorem length_held (b : Bench) : b.held.length = b.leases := by
  rw [held, leases, List.length_append, List.length_map]
  cases b.job with
  | none => rfl
  | some job =>
    rw [Option.elim_some, Option.elim_some, Job.held, Job.leases]
    cases job.udf <;> rfl

/-- A ledger shows the leases that are held, besides what was on it when the job was made. -/
theorem ledger_run_on (l : Ledger) (space set : String) (actions : List BenchAction) :
    ∃ n, ((on l space set).run actions).journal.ledger =
      ⟨l.acquired + n + ((on l space set).run actions).leases, l.released + n⟩ := by
  have hledger := (on l space set).ledger_run actions
  have hlength := (conserves_run (on l space set) actions).length_eq
  rw [List.length_append, List.length_append, length_held, length_held] at hlength
  have hone : (on l space set).leases = 1 := rfl
  have hstart : (on l space set).journal.ledger = l.acquire := rfl
  refine ⟨(givenBack ((on l space set).movesOf actions)).length, ?_⟩
  rw [hledger, hstart, Ledger.after, Ledger.acquire, Ledger.mk.injEq]
  refine ⟨?_, rfl⟩
  dsimp only
  omega

theorem wellKept_run (l : Ledger) (space set : String) (actions : List BenchAction) :
    ((on l space set).run actions).WellKept l space set := by
  -- the job is what became of the one that was made
  have hjob {job : Job} (h : ((on l space set).run actions).job = some job) :
      (Job.new space set).Becomes job := by
    obtain ⟨made, hmade, hbecomes⟩ := (on l space set).becomes_run actions h
    obtain rfl := Option.some.inj hmade
    exact hbecomes
  obtain ⟨n, hledger⟩ := ledger_run_on l space set actions
  exact {
    madeFor := fun job h => ⟨(hjob h).space, (hjob h).set⟩
    percent_le := fun job h => (hjob h).percent_le UInt8.le_rfl
    named := fun job udf h => (hjob h).named (fun _ hnone => nomatch hnone) udf
    ledger := ⟨n, hledger⟩
    outstanding := by
      intro hle
      rw [hledger, Ledger.outstanding, Ledger.outstanding]
      dsimp only
      omega }

/-- After any work on a new job it is as it should be, whatever is tried on it next does what
`BenchStep` says, and what fails leaves it as it was. Options that are set override what they give,
and nothing else. No later work changes what `Job.Becomes` keeps. -/
theorem keeps_job (l : Ledger) (space set : String) (past : List BenchAction) :
    let b := (on l space set).run past
    b.WellKept l space set ∧
      (∀ action, BenchStep b action (b.step action).1 (b.moves action) (b.next action) ∧
        ((b.step action).1.Fails → (b.next action).job = b.job)) ∧
      (∀ raw job, b.job = some job → ¬ (b.step (.applyOptions raw)).1.Fails →
        ∃ job', (b.next (.applyOptions raw)).job = some job' ∧ job.Overridden raw job') ∧
      ∀ later job', (b.run later).job = some job' →
        ∃ job, b.job = some job ∧ job.Becomes job' := by
  intro b
  refine ⟨wellKept_run l space set past, ?_, ?_, fun later job' => b.becomes_run later⟩
  · intro action
    exact ⟨b.benchStep_next action, (b.benchStep_next action).same_of_fails⟩
  · intro raw job hjob hok
    exact (b.benchStep_next (.applyOptions raw)).overridden hok hjob

/-- A job on a ledger that others use has a function; another function was refused and its list
handed back, and so was a percentage past the range. Options that give a percentage are taken, and
the function stays. -/
theorem keeps_job_refused_function :
    let limits : Limits := ⟨10, 8⟩
    let five : Json := .object [("percent", .number (.integer 5 (by decide)))]
    let b := (on ⟨7, 5⟩ "test" "demo").run
      [.attach "geo" "move" (.array [.null]) limits false,
        .attach "geo" "stop" (.array []) limits true, .setPercent 101]
    ∃ job, b.job = some job ∧ job.percent ≤ 100 ∧
      b.journal.ledger.outstanding = 5 ∧
      (b.next (.setPercent 101)).job = b.job ∧
      (∃ job', (b.next (.applyOptions five)).job = some job' ∧ job.Overridden five job') ∧
      ∃ job', (b.run [.applyOptions five, .setNoBins true]).job = some job' ∧
        job'.udf = some ⟨"geo", "move", [.nil]⟩ := by
  intro limits five b
  obtain ⟨hkept, hsteps, hoptions, hlater⟩ := keeps_job ⟨7, 5⟩ "test" "demo"
    [.attach "geo" "move" (.array [.null]) limits false,
      .attach "geo" "stop" (.array []) limits true, .setPercent 101]
  obtain ⟨job, hjob⟩ : ∃ job, b.job = some job := ⟨_, rfl⟩
  have hrefused : (b.step (.setPercent 101)).1 = .flag false := rfl
  have hread : (b.step (.applyOptions five)).1 = .outcome (.ok ()) := rfl
  have hudf : job.udf = some ⟨"geo", "move", [.nil]⟩ := by
    obtain rfl := Option.some.inj hjob
    rfl
  refine ⟨job, hjob, hkept.percent_le job hjob, hkept.outstanding (by decide),
    (hsteps (.setPercent 101)).2 (hrefused ▸ .flag), hoptions five job hjob ?_, ?_⟩
  · rw [hread]
    rintro ⟨⟩
  · obtain ⟨job', hjob'⟩ : ∃ job', (b.run [.applyOptions five, .setNoBins true]).job = some job' :=
      ⟨_, rfl⟩
    obtain ⟨before, hbefore, hbecomes⟩ := hlater _ job' hjob'
    obtain rfl : before = job := Option.some.inj (hbefore.symm.trans hjob)
    exact ⟨job', hjob', hbecomes.udf _ hudf⟩

end Bench

end BackgroundScan
