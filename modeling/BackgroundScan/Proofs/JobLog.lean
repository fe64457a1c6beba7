import BackgroundScan.Proofs.Answers

/-!
# Job ids and the log of a store

A store gives out its ids in order, one for every submission that it accepts, and keeps
the records of these submissions in its log. Nothing else touches the counter or the log:
a submission that fails consumes no id, and what is done to the jobs by hand leaves no
trace.

1. `nthId`: the ids in their order, which begin again from zero after the largest. Two
   of them that are less than a whole round apart differ.
2. `Logs`: what the log gains from one store to another. `logs_act` and `logs_acts`: it
   gains the jobs that the submissions in between were answered with.
3. `logs_accepted_jobs`: the log of a store and of a fleet.
-/

namespace BackgroundScan

/-! ## 1. Ids in order -/

/-- The id of the `k`-th job, counted from zero, if that of the first is `first`. -/
def nthId (first : JobId) (k : Nat) : JobId := first + .ofNat k

namespace JobLogLemmas

theorem nthId_zero (first : JobId) : nthId first 0 = first := UInt64.add_zero first

theorem nthId_add (first : JobId) (m n : Nat) :
    nthId (nthId first m) n = nthId first (m + n) := by
  unfold nthId
  rw [UInt64.add_assoc, ← UInt64.ofNat_add]

end JobLogLemmas

theorem toNat_nthId (first : JobId) (k : Nat) :
    (nthId first k).toNat = (first.toNat + k) % 0x10000000000000000 := by
  rw [nthId, UInt64.toNat_add, UInt64.toNat_ofNat']
  omega

example : nthId 0xffffffffffffffff 1 = 0 := by decide

/-- Ids differ that are less than a whole round apart. -/
theorem nthId_ne {first : JobId} {i j : Nat} (hlt : i < j) (hnear : j < i + 0x10000000000000000) :
    nthId first i ≠ nthId first j := by
  intro heq
  have hnat := congrArg UInt64.toNat heq
  rw [toNat_nthId, toNat_nthId] at hnat
  omega

/-! ## 2. What the log gains -/

/-- The ids among the answers to submissions. -/
def acceptedIds (attempts : List (Option JobId)) : List JobId := attempts.filterMap id

/-- From one store to another the log gains the records of jobs with these ids, which are
the next in order. -/
structure Logs (s s' : Store) (ids : List JobId) : Prop where
  gained : ∃ records, s'.submissions = s.submissions ++ records ∧
    records.map Submission.jobId = ids
  inOrder : ids = (List.range ids.length).map (nthId s.nextJobId)
  next : s'.nextJobId = nthId s.nextJobId ids.length

namespace JobLogLemmas

theorem logs_nothing {s s' : Store} (hlog : s'.submissions = s.submissions)
    (hnext : s'.nextJobId = s.nextJobId) : Logs s s' [] where
  gained := ⟨[], hlog.trans (List.append_nil _).symm, rfl⟩
  inOrder := rfl
  next := hnext.trans (nthId_zero _).symm

theorem logs_trans {s s' s'' : Store} {ids ids' : List JobId} (h : Logs s s' ids)
    (h' : Logs s' s'' ids') : Logs s s'' (ids ++ ids') where
  gained := by
    obtain ⟨records, hlog, hids⟩ := h.gained
    obtain ⟨records', hlog', hids'⟩ := h'.gained
    refine ⟨records ++ records', ?_, ?_⟩
    · rw [hlog', hlog, List.append_assoc]
    · rw [List.map_append, hids, hids']
  inOrder := by
    rw [List.length_append, List.range_add, List.map_append, ← h.inOrder, List.map_map]
    refine congrArg (ids ++ ·) (h'.inOrder.trans (List.map_congr_left ?_))
    intro k _
    rw [h.next, nthId_add]
    rfl
  next := by rw [h'.next, h.next, nthId_add, List.length_append]

end JobLogLemmas

open JobLogLemmas

/-- The log gains the job of a submission that is accepted. -/
theorem logs_act (s : Store) (action : StoreAction) :
    Logs s (s.act action) (acceptedIds (s.attempt action)) := by
  cases action with
  | submit policy job =>
    simp only [Store.act, Store.attempt]
    rcases s.submit_cases policy job with ⟨e, -, h⟩ | ⟨-, -, h⟩ | ⟨udf, -, -, h⟩ <;> rw [h]
    · exact logs_nothing rfl rfl
    · exact logs_nothing rfl rfl
    · exact {
        gained := ⟨[Store.record s.nextJobId policy job udf], rfl, rfl⟩
        inOrder := congrArg (fun id => [id]) (nthId_zero s.nextJobId).symm
        next := rfl }
  | query policy id =>
    simp only [Store.act]
    rcases s.query_cases policy id with ⟨e, -, h⟩ | ⟨-, -, h⟩ | ⟨info, -, -, h⟩ <;> rw [h]
    all_goals exact logs_nothing rfl rfl
  | setProgress id progressPct recordsScanned status =>
    simp only [Store.act, Store.setProgress]
    cases s.jobs.find? id <;> exact logs_nothing rfl rfl
  | insertJob _ _ | expireJob _ | failNextSubmit _ | failNextStatus _ => exact logs_nothing rfl rfl

/-- The log gains the jobs of all that are accepted. -/
theorem logs_acts (s : Store) (asked : List StoreAction) :
    Logs s (s.acts asked) (acceptedIds (s.attempts asked)) := by
  induction asked generalizing s with
  | nil => exact logs_nothing rfl rfl
  | cons action rest ih =>
    rw [Store.attempts, acceptedIds, List.filterMap_append]
    exact logs_trans (logs_act s action) (ih (s.act action))

/-! ## 3. The log -/

/-- What a store has logged that gave ids from `first` on, when its submissions were
answered so. -/
structure Logged (first : JobId) (attempts : List (Option JobId)) (s : Store) : Prop where
  accepted : s.submissions.length = attempts.countP Option.isSome
  returned : s.submissions.map Submission.jobId = acceptedIds attempts
  inOrder : ∀ k (hk : k < s.submissions.length),
    s.submissions[k].jobId.toNat = (first.toNat + k) % 0x10000000000000000
  differ : ∀ i j (hi : i < s.submissions.length) (hj : j < s.submissions.length),
    i < j → j < i + 0x10000000000000000 → s.submissions[i].jobId ≠ s.submissions[j].jobId
  counted : s.submitCalls = attempts.length
  atMost : s.submissions.length ≤ s.submitCalls
  /-- A word counts the submissions as long as there are fewer than fill it. -/
  inWords : attempts.length < UInt64.size → (wordCount s.submitCalls).toNat = attempts.length ∧
    s.submissions.length ≤ (wordCount s.submitCalls).toNat

namespace JobLogLemmas

theorem jobId_eq_nthId {log : List Submission} {first : JobId}
    (h : log.map Submission.jobId = (List.range log.length).map (nthId first)) {k : Nat}
    (hk : k < log.length) : log[k].jobId = nthId first k := by
  have hkth := congrArg (·[k]?) h
  simpa [hk] using hkth

theorem unlogged {s s' : Store} (h : Logs s s' []) :
    s'.submissions = s.submissions ∧ s'.nextJobId = s.nextJobId := by
  obtain ⟨records, hlog, hnone⟩ := h.gained
  rw [List.map_eq_nil_iff.mp hnone, List.append_nil] at hlog
  exact ⟨hlog, h.next.trans (nthId_zero _)⟩

/-- A submission that fails leaves no record and consumes no id. -/
theorem unlogged_of_error {s : Store} {policy : Option ScanPolicy} {job : Job} {e : StoreError}
    (h : (s.submit policy job).1 = .error e) :
    (s.submit policy job).2.submissions = s.submissions ∧
      (s.submit policy job).2.nextJobId = s.nextJobId := by
  have hlogs := logs_act s (.submit policy job)
  rw [Store.attempt, h] at hlogs
  exact unlogged hlogs

theorem logged_acts (first : JobId) (offset : Int64) (asked : List StoreAction) :
    Logged first ((Store.new first offset).attempts asked)
      ((Store.new first offset).acts asked) := by
  have hlogs := logs_acts (.new first offset) asked
  have hcalls := submitCalls_acts (.new first offset) asked
  rw [← AnswerLemmas.length_attempts] at hcalls
  generalize (Store.new first offset).attempts asked = attempts at hlogs hcalls ⊢
  generalize (Store.new first offset).acts asked = s at hlogs hcalls ⊢
  obtain ⟨records, hlog, hids⟩ := hlogs.gained
  obtain rfl : s.submissions = records := hlog
  have hlength : s.submissions.length = (acceptedIds attempts).length := by
    rw [← hids, List.length_map]
  have hnth {k : Nat} (hk : k < s.submissions.length) : s.submissions[k].jobId = nthId first k := by
    refine jobId_eq_nthId ?_ hk
    rw [hids, hlength]
    exact hlogs.inOrder
  have hcounted : s.submitCalls = attempts.length := hcalls.trans (Nat.zero_add _)
  have haccepted : s.submissions.length = attempts.countP Option.isSome :=
    hlength.trans List.length_filterMap_eq_countP
  have hatMost : s.submissions.length ≤ s.submitCalls := by
    rw [haccepted, hcounted]
    exact List.countP_le_length
  exact {
    accepted := haccepted
    returned := hids
    inOrder := fun k hk => by rw [hnth hk, toNat_nthId]
    differ := fun i j hi hj hlt hnear => by
      rw [hnth hi, hnth hj]
      exact nthId_ne hlt hnear
    counted := hcounted
    atMost := hatMost
    inWords := by
      intro hsize
      rw [← hcounted] at hsize
      rw [toNat_wordCount_of_lt hsize]
      exact ⟨hcounted, hatMost⟩ }

theorem log_grows (s : Store) (asked : List StoreAction) :
    s.submissions <+: (s.acts asked).submissions := by
  obtain ⟨records, hlog, -⟩ := (logs_acts s asked).gained
  exact ⟨records, hlog.symm⟩

end JobLogLemmas

/-- The log of a store holds one record for each submission that it accepted, with the id
that the submission was answered with, and nothing is ever taken from it. This is so
whatever is done to the store, and also for clients that share it, by the answers they
get. -/
theorem logs_accepted_jobs (first : JobId) (offset : Int64) (asked later : List StoreAction)
    (clients : List Client) (actions more : List FleetAction) :
    let s := Store.new first offset
    let f := Fleet.mk clients s
    (s.attempts asked).length = asked.countP StoreAction.isSubmit ∧
      Logged first (s.attempts asked) (s.acts asked) ∧
      (s.acts asked).submissions <+: (s.acts (asked ++ later)).submissions ∧
      Logged first ((f.run actions).1.flatMap fun e => e.answer.attempts)
        (f.run actions).2.store ∧
      (f.run actions).2.store.submissions <+: (f.run (actions ++ more)).2.store.submissions ∧
      ∀ (s : Store) (policy : Option ScanPolicy) (job : Job) (e : StoreError),
        (s.submit policy job).1 = .error e →
        (s.submit policy job).2.submissions = s.submissions ∧
          (s.submit policy job).2.nextJobId = s.nextJobId := by
  intro s f
  refine ⟨AnswerLemmas.length_attempts s asked, logged_acts first offset asked, ?_, ?_, ?_,
    fun _ _ _ _ => unlogged_of_error⟩
  · rw [StoreActionLemmas.acts_append]
    exact log_grows _ later
  · rw [attempts_run, run_store]
    exact logged_acts first offset _
  · rw [run_append, run_store (f.run actions).2 more]
    exact log_grows _ _

/-- A store that gives the largest id first goes on with zero. The submission in between
that meets the armed error counts, but has neither an id nor a record; and the first
record stays when its job has expired. -/
theorem logs_accepted_jobs_around :
    let job := { Job.new "test" "demo" with udf := some ⟨"geo", "move", []⟩ }
    let began := Store.new 0xffffffffffffffff 0
    let armed := began.acts [.submit none job, .failNextSubmit (.timeout "late")]
    let asked : List StoreAction := [.submit none job, .failNextSubmit (.timeout "late"),
      .submit none job, .expireJob 0xffffffffffffffff]
    (began.acts (asked ++ [.submit none job])).submissions.map Submission.jobId =
        [0xffffffffffffffff, 0] ∧
      (began.acts (asked ++ [.submit none job])).submitCalls = 3 ∧
      (began.acts asked).submissions <+:
        (began.acts (asked ++ [.submit none job])).submissions ∧
      (armed.submit none job).2.submissions = armed.submissions ∧
      (armed.submit none job).2.nextJobId = armed.nextJobId := by
  intro job began armed asked
  obtain ⟨-, hlogged, -⟩ :=
    logs_accepted_jobs 0xffffffffffffffff 0 (asked ++ [.submit none job]) [] [] [] []
  obtain ⟨-, -, hgrows, -, -, hfails⟩ :=
    logs_accepted_jobs 0xffffffffffffffff 0 asked [.submit none job] [] [] []
  obtain ⟨hrecord, hid⟩ := hfails armed none job (.timeout "late") rfl
  exact ⟨hlogged.returned.trans rfl, hlogged.counted.trans rfl, hgrows, hrecord, hid⟩

end BackgroundScan
