import BackgroundScan.Proofs.Fleet

/-!
# A status query reads what was written last

The reference is a map from job ids to what is known of the jobs. It is written along
the history of a run, from the actions and the answers alone, and it knows nothing of
how a store keeps its jobs.

1. `Entries` and `Entries.after`: the map, and what an exchange writes into it.
2. `entries_step`: a step of any client changes the jobs of the store as its exchange
   changes the map.
3. `polling_reads_last_write`: after any run, answers about a job are those of the map.
-/

namespace BackgroundScan

/-! ## 1. The reference -/

/-- What is known of each job. -/
abbrev Entries := JobId → Option JobInfo

/-- The ids of the submissions that an answer shows as accepted, in their order. -/
def SessionAnswer.accepted : SessionAnswer → List JobId
  | .applied (.ok (.ok id)) => [id]
  | .submitted outcomes => outcomes.filterMap Except.toOption
  | _ => []

namespace Entries

/-- Nothing is known of any job. -/
def empty : Entries := fun _ => none

/-- Sets or forgets what is known of a job. -/
def set (t : Entries) (id : JobId) (entry : Option JobInfo) : Entries :=
  fun other => if id = other then entry else t other

/-- A job that begins: nothing is done, and it is in progress. -/
def begin (t : Entries) (id : JobId) : Entries := t.set id (some ⟨0, 0, 1⟩)

/-- What is known after an exchange. Jobs are set, changed if they are known, and
forgotten by hand; a submission that was accepted begins its job; and nothing else
changes anything. -/
def after (t : Entries) (e : Exchange) : Entries :=
  match e.action with
  | .insertJob id info => t.set id (some info)
  | .setProgress id progressPct recordsScanned status =>
    if (t id).isSome then
      t.set id (some ⟨min progressPct 100, recordsScanned, status.code⟩)
    else t
  | .expireJob id => t.set id none
  | _ => e.answer.accepted.foldl begin t

end Entries

/-- What a store knows of each job. -/
def Store.entries (s : Store) : Entries := fun id => s.jobs.find? id

/-! ## 2. Steps -/

namespace PollingLemmas

open CallLemmas

theorem entries_insertJob (s : Store) (id : JobId) (info : JobInfo) :
    (s.insertJob id info).entries = s.entries.set id (some info) :=
  funext fun other => JobTable.find?_insert id other info s.jobs

theorem entries_expireJob (s : Store) (id : JobId) :
    (s.expireJob id).2.entries = s.entries.set id none :=
  funext fun other => JobTable.find?_erase id other s.jobs

theorem entries_setProgress (s : Store) (id : JobId) (progressPct : UInt32)
    (recordsScanned : UInt64) (status : JobStatus) :
    (s.setProgress id progressPct recordsScanned status).2.entries =
      if (s.entries id).isSome then
        s.entries.set id (some ⟨min progressPct 100, recordsScanned, status.code⟩)
      else s.entries := by
  unfold Store.setProgress
  cases hfind : s.jobs.find? id with
  | none =>
    have hentry : (s.entries id).isSome = false := by rw [Store.entries, hfind]; rfl
    rw [hentry]
    rfl
  | some info =>
    have hentry : (s.entries id).isSome = true := by rw [Store.entries, hfind]; rfl
    rw [hentry, if_pos rfl]
    exact entries_insertJob s id _

theorem entries_submit (s : Store) (policy : Option ScanPolicy) (job : Job) :
    (s.submit policy job).2.entries =
      (s.submit policy job).1.toOption.toList.foldl Entries.begin s.entries := by
  rcases s.submit_cases policy job with ⟨e, -, h⟩ | ⟨-, -, h⟩ | ⟨udf, -, -, h⟩
  · rw [h]
    rfl
  · rw [h]
    rfl
  · rw [h]
    exact entries_insertJob s s.nextJobId _

theorem entries_query (s : Store) (policy : Option InfoPolicy) (id : JobId) :
    (s.query policy id).2.entries = s.entries := by
  rcases s.query_cases policy id with ⟨e, -, h⟩ | ⟨-, -, h⟩ | ⟨info, -, -, h⟩
  all_goals
    rw [h]
    rfl

theorem entries_askForStatus (s : Store) (id : JobId)
    (prepared : Except Failure (Option InfoPolicy)) :
    (s.acts (askFor (.query · id) prepared)).entries = s.entries := by
  cases prepared with
  | error f => rfl
  | ok policy => exact entries_query s policy id

/-- Handing a prepared job to the store begins the job that is reported as accepted. -/
theorem entries_dispatch (s : Store) (prepared : Except Failure Job) :
    (dispatch s prepared s.askToSubmit).2.entries =
      (SessionAnswer.applied (.ok (dispatch s prepared s.askToSubmit).1)).accepted.foldl
        Entries.begin s.entries := by
  cases prepared with
  | error f => rfl
  | ok job =>
    have hsubmit := entries_submit s job.policy job
    simp only [dispatch, Store.askToSubmit]
    rw [hsubmit]
    cases (s.submit job.policy job).1 <;> rfl

theorem entries_scanApply (c : Client) (s : Store) (r : ScanRequest) :
    (c.scanApply s r).store.entries =
      (SessionAnswer.applied (c.scanApply s r).outcome).accepted.foldl Entries.begin
        s.entries := by
  obtain ⟨houtcome, hstore⟩ := scanApply_seen c s r
  rw [houtcome, hstore]
  exact entries_dispatch s _

theorem entries_submitTimes (policy : Option ScanPolicy) (job : Job) (times : Nat) (s : Store)
    (j : Journal) :
    (Session.submitTimes policy job times s j).2.1.entries =
      ((Session.submitTimes policy job times s j).1.filterMap Except.toOption).foldl
        Entries.begin s.entries := by
  induction times generalizing s j with
  | zero => rfl
  | succ times ih =>
    have hbegun : (submitJob s policy job j).2.1.entries =
        (submitJob s policy job j).1.toOption.toList.foldl Entries.begin s.entries := by
      rw [submitJob_store, submitJob_fst, entries_submit]
      cases (s.submit policy job).1 <;> rfl
    rw [Session.submitTimes]
    show (Session.submitTimes policy job times _ _).2.1.entries =
      (List.filterMap Except.toOption (_ :: _)).foldl Entries.begin s.entries
    rw [ih, hbegun]
    cases (submitJob s policy job j).1 <;> rfl

end PollingLemmas

open PollingLemmas

/-- A step of a client changes what is known of the jobs as its exchange does. -/
theorem entries_step (c : Client) (s : Store) (action : SessionAction) :
    ((c.sessionAt s).step action).2.store.entries =
      s.entries.after (c.exchange s action) := by
  cases action with
  | scanApply request => exact entries_scanApply c s request
  | scanApplyDecoded raw =>
    simp only [Session.step, Client.exchange, Entries.after]
    cases ScanRequest.decode raw with
    | error e => rfl
    | ok request => exact entries_scanApply c s request
  | scanInfo id policy =>
    rw [step_store]
    exact entries_askForStatus s id _
  | read id policy =>
    rw [step_store]
    exact entries_askForStatus s id _
  | submit input times =>
    exact entries_submitTimes input.policy _ times s _
  | insertJob id info => exact entries_insertJob s id info
  | setProgress id progressPct recordsScanned status =>
    exact entries_setProgress s id progressPct recordsScanned status
  | expireJob id => exact entries_expireJob s id
  -- the rest leave the jobs alone, and their answers show no accepted submission
  | prepare policy => rfl
  | hasUpdateTime id => rfl
  | failNextSubmit e => rfl
  | failNextStatus e => rfl
  | submissions => rfl
  | settings => rfl
  | close => rfl
  | newClient settings => rfl

/-! ## 3. Answers after a run -/

/-- Whether a status query may answer so about a job with the given entry, at a store
with the given offset. -/
def Reads (id : JobId) (offset : Int64) (entry : Option JobInfo)
    (answer : Except Report Snapshot) : Prop :=
  match entry with
  | none => answer = .error ⟨.store 2, 2, "job " ++ toString id.toNat ++ " not found"⟩
  | some info =>
    if -0x8000000000000000 ≤ info.status.toInt + offset.toInt ∧
        info.status.toInt + offset.toInt < 0x8000000000000000 then
      ∃ snapshot, answer = .ok snapshot ∧ snapshot.progressPct = info.progressPct ∧
        snapshot.recordsScanned = info.recordsScanned ∧
        snapshot.status.toInt = info.status.toInt + offset.toInt
    else ∃ report, answer = .error report ∧ report.kind = .protocol

namespace PollingLemmas

theorem ofInfo_reads (id : JobId) (offset : Int64) (info : JobInfo) :
    Reads id offset (some info)
      (((Snapshot.ofInfo info offset).mapError RemapError.failure).mapError
        Failure.report) := by
  unfold Reads Snapshot.ofInfo signedWord?
  dsimp only
  split
  · next hfits =>
    exact ⟨_, rfl, rfl, rfl, Int64.toInt_ofInt_of_le (by omega) (by omega)⟩
  · exact ⟨_, rfl, rfl⟩

/-- A query that gets through to the store reads the entry of its job. -/
theorem scanInfo_reads {c : Client} {s : Store} (id : JobId) {policy : Option Json}
    (hopen : c.isOpen = true)
    (hpolicy : ∀ raw, policy = some raw → ∃ given, Policy.validate InfoPolicy raw = .ok given)
    (hunarmed : s.statusFailure = none) :
    ∃ answer, (c.scanInfo s id policy).outcome = .ok answer ∧
      Reads id s.statusOffset (s.entries id) answer := by
  refine ⟨_, (scanInfo_seen c s id policy).1, ?_⟩
  have hprepared : ∃ prepared, c.preparedQuery policy = .ok prepared := by
    unfold Client.preparedQuery
    rw [if_pos hopen]
    cases policy with
    | none => exact ⟨none, rfl⟩
    | some raw =>
      obtain ⟨given, hvalid⟩ := hpolicy raw rfl
      refine ⟨some (Policy.overlay given c.settings.infoPolicy), ?_⟩
      rw [Policy.resolve, hvalid]
      rfl
  obtain ⟨prepared, hprepared⟩ := hprepared
  rw [hprepared]
  simp only [dispatch, Store.askForStatus, Store.entries]
  cases hfind : s.jobs.find? id with
  | none =>
    rw [Store.query_of_unknown hunarmed _ hfind]
    rfl
  | some info =>
    rw [Store.query_of_known hunarmed _ hfind]
    exact ofInfo_reads id s.statusOffset info

end PollingLemmas

/-- After any run of any clients at a new store, the reference says what is answered
about a job: whether it is known to those who change or forget it by hand, and what a
status query reads that is not refused by its client and for which no error is armed. -/
theorem polling_reads_last_write (nextJobId : JobId) (offset : Int64) (clients : List Client)
    (actions : List FleetAction) (c : Client) (id : JobId) :
    let run := (Fleet.mk clients (.new nextJobId offset)).run actions
    let store := run.2.store
    let entry := run.1.foldl Entries.after .empty id
    (∀ progressPct recordsScanned status,
        (c.exchange store (.setProgress id progressPct recordsScanned status)).answer =
          .flag entry.isSome) ∧
      (c.exchange store (.expireJob id)).answer = .flag entry.isSome ∧
      ∀ policy, c.isOpen = true →
        (∀ raw, policy = some raw → ∃ given, Policy.validate InfoPolicy raw = .ok given) →
        store.statusFailure = none →
        ∃ answer, (c.exchange store (.scanInfo id policy)).answer = .polled (.ok answer) ∧
          Reads id offset entry answer := by
  intro run store entry
  -- the map is related to the store at the start, and every exchange keeps it so
  have hentries : store.entries = run.1.foldl Entries.after .empty :=
    run_induction (R := fun s t => s.entries = t)
      (fun c s action t h => h ▸ entries_step c s action) _ actions rfl
  have hentry : store.jobs.find? id = entry := congrFun hentries id
  have hoffset : store.statusOffset = offset :=
    (congrArg Store.statusOffset (run_store _ actions)).trans (statusOffset_acts _ _)
  refine ⟨?_, ?_, ?_⟩
  · intro progressPct recordsScanned status
    show SessionAnswer.flag (store.setProgress id progressPct recordsScanned status).1 = _
    rw [← hentry, Store.setProgress]
    cases store.jobs.find? id <;> rfl
  · show SessionAnswer.flag (store.jobs.find? id).isSome = _
    rw [hentry]
  · intro policy hopen hpolicy hunarmed
    obtain ⟨answer, houtcome, hreads⟩ := scanInfo_reads id hopen hpolicy hunarmed
    refine ⟨answer, congrArg SessionAnswer.polled houtcome, ?_⟩
    rwa [hoffset, Store.entries, hentry] at hreads

/-- A job that one client submits and then closes is read by another, as it was changed
last and not as it is after another job is forgotten. -/
theorem polling_reads_last_write_other_client :
    let r : ScanRequest := ⟨"test", "demo", "geo", "move", .array [], none, none⟩
    let run := (Fleet.mk [.new .standard] (.new 0xffffffffffffffff 100)).run
      [.act 0 (.scanApply r), .act 0 (.setProgress 0xffffffffffffffff 250 12 .completed),
        .join .standard, .act 0 .close, .act 1 (.scanApply r), .act 1 (.expireJob 0)]
    let c : Client := .new .standard
    c.isOpen = true ∧ run.2.store.statusFailure = none ∧
      ∃ snapshot, (c.exchange run.2.store (.scanInfo 0xffffffffffffffff none)).answer =
          .polled (.ok (.ok snapshot)) ∧
        snapshot.progressPct = 100 ∧ snapshot.status.toInt = 103 := by
  intro r run c
  have hunarmed : run.2.store.statusFailure = none := by rfl
  have hentry : run.1.foldl Entries.after .empty 0xffffffffffffffff = some ⟨100, 12, 3⟩ := by
    rfl
  obtain ⟨-, -, hpolled⟩ := polling_reads_last_write 0xffffffffffffffff 100 [.new .standard]
    [.act 0 (.scanApply r), .act 0 (.setProgress 0xffffffffffffffff 250 12 .completed),
      .join .standard, .act 0 .close, .act 1 (.scanApply r), .act 1 (.expireJob 0)]
    c 0xffffffffffffffff
  obtain ⟨answer, hanswer, hreads⟩ := hpolled none rfl nofun hunarmed
  rw [hentry, Reads, if_pos (by decide)] at hreads
  obtain ⟨snapshot, rfl, hprogress, -, hstatus⟩ := hreads
  exact ⟨rfl, hunarmed, snapshot, hanswer, hprogress, hstatus⟩

end BackgroundScan
