import BackgroundScan.Proofs.JobLog

/-!
# Whether the id of an accepted job is new

The counter of a store does not look at the jobs that the store knows. So an accepted
job takes the place of one that was inserted by hand under the same id; and after a whole
round of accepted jobs, of the one that had the id before. In all other cases its id is
new. The jobs of all other ids stay as they were.

1. `Store.puts` and `knows_acts`: a job is known exactly if it was put there by hand or
   by a submission, and was not expired since.
2. `round_of_accepted_again`: an id is given again after no less than a whole round.
3. `takes_over_inserted`: an accepted job in place of one inserted by hand.
   `accepts_new_ids`: when this happens, and what an accepted job leaves of the others.
-/

namespace BackgroundScan

/-! ## 1. Jobs that are known -/

/-- Whether an action inserts a job by hand under this id. -/
def StoreAction.inserts (id : JobId) : StoreAction → Prop
  | insertJob k _ => k = id
  | _ => False

namespace Store

/-- Whether a job is known. -/
def knows (s : Store) (id : JobId) : Bool := (s.jobs.find? id).isSome

/-- Whether an action is a submission that the store accepts under this id. -/
def accepts (s : Store) (id : JobId) : StoreAction → Prop
  | .submit policy job => (s.submit policy job).1 = .ok id
  | _ => False

/-- Whether an action puts a job under this id. -/
def puts (s : Store) (id : JobId) (action : StoreAction) : Prop :=
  action.inserts id ∨ s.accepts id action

end Store

namespace FreshIdLemmas

theorem knows_insertJob (s : Store) (id k : JobId) (info : JobInfo) :
    (s.insertJob k info).knows id = true ↔ k = id ∨ s.knows id = true := by
  unfold Store.knows Store.insertJob
  rw [JobTable.find?_insert]
  by_cases hk : k = id
  · simp [hk]
  · simp [hk]

theorem knows_submit (s : Store) (id : JobId) (policy : Option ScanPolicy) (job : Job) :
    (s.submit policy job).2.knows id = true ↔
      (s.submit policy job).1 = .ok id ∨ s.knows id = true := by
  rcases s.submit_cases policy job with ⟨e, -, h⟩ | ⟨-, -, h⟩ | ⟨udf, -, -, h⟩ <;> rw [h]
  · exact (or_iff_right nofun).symm
  · exact (or_iff_right nofun).symm
  · rw [Except.ok.injEq]
    exact knows_insertJob s id s.nextJobId _

theorem knows_expireJob (s : Store) (id k : JobId) :
    (s.expireJob k).2.knows id = true ↔ s.knows id = true ∧ k ≠ id := by
  unfold Store.knows Store.expireJob
  rw [JobTable.find?_erase]
  by_cases hk : k = id
  · simp [hk]
  · simp [hk]

theorem knows_setProgress (s : Store) (id k : JobId) (progressPct : UInt32)
    (recordsScanned : UInt64) (status : JobStatus) :
    (s.setProgress k progressPct recordsScanned status).2.knows id = s.knows id := by
  unfold Store.setProgress
  cases hfind : s.jobs.find? k with
  | none => rfl
  | some info =>
    -- the job that is changed was known
    have hknown : s.knows k = true := by rw [Store.knows, hfind]; rfl
    rw [Bool.eq_iff_iff, knows_insertJob]
    exact or_iff_right_of_imp fun hk => hk ▸ hknown

theorem knows_query (s : Store) (id k : JobId) (policy : Option InfoPolicy) :
    (s.query policy k).2.knows id = s.knows id := by
  rcases s.query_cases policy k with ⟨e, -, h⟩ | ⟨-, -, h⟩ | ⟨info, -, -, h⟩
  all_goals
    rw [h]
    rfl

/-- An action puts a job or keeps it, unless it expires it. -/
theorem knows_act (s : Store) (id : JobId) (action : StoreAction) :
    (s.act action).knows id = true ↔
      s.puts id action ∨ s.knows id = true ∧ action ≠ .expireJob id := by
  unfold Store.puts StoreAction.inserts Store.accepts
  cases action with
  | submit policy job => simp [Store.act, knows_submit]
  | query policy k => simp [Store.act, knows_query]
  | insertJob k info => simp [Store.act, knows_insertJob]
  | setProgress k progressPct recordsScanned status => simp [Store.act, knows_setProgress]
  | expireJob k => simp [Store.act, knows_expireJob]
  | failNextSubmit e | failNextStatus e =>
    simp only [false_or, ne_eq, reduceCtorEq, not_false_eq_true, and_true]
    rfl

end FreshIdLemmas

open FreshIdLemmas

/-- A job is known exactly if something put it there and nothing expired it since. -/
theorem knows_acts (s : Store) (id : JobId) (asked : List StoreAction) :
    (s.acts asked).knows id = true ↔
      (s.knows id = true ∧ .expireJob id ∉ asked) ∨
        ∃ earlier action later, asked = earlier ++ action :: later ∧
          (s.acts earlier).puts id action ∧ .expireJob id ∉ later := by
  induction asked generalizing s with
  | nil =>
    constructor
    · intro hknown
      exact .inl ⟨hknown, List.not_mem_nil⟩
    · rintro (⟨hknown, -⟩ | ⟨earlier, action, later, hsplit, -⟩)
      · exact hknown
      · exact absurd hsplit.symm (List.append_ne_nil_of_right_ne_nil _ (List.cons_ne_nil _ _))
  | cons first rest ih =>
    rw [show s.acts (first :: rest) = (s.act first).acts rest from rfl, ih, knows_act]
    constructor
    · rintro (⟨hputs | ⟨hknown, hkeeps⟩, hrest⟩ | ⟨earlier, action, later, rfl, hputs, hlater⟩)
      · exact .inr ⟨[], first, rest, rfl, hputs, hrest⟩
      · exact .inl ⟨hknown, List.not_mem_cons_of_ne_of_not_mem (Ne.symm hkeeps) hrest⟩
      · exact .inr ⟨first :: earlier, action, later, rfl, hputs, hlater⟩
    · rintro (⟨hknown, hkeeps⟩ | ⟨earlier, action, later, hsplit, hputs, hlater⟩)
      · have hfirst : first ≠ .expireJob id := (List.ne_of_not_mem_cons hkeeps).symm
        exact .inl ⟨.inr ⟨hknown, hfirst⟩, List.not_mem_of_not_mem_cons hkeeps⟩
      · cases earlier with
        | nil =>
          obtain ⟨rfl, rfl⟩ := List.cons.inj hsplit
          exact .inl ⟨.inl hputs, hlater⟩
        | cons _ earlier =>
          obtain ⟨rfl, rfl⟩ := List.cons.inj hsplit
          exact .inr ⟨earlier, action, later, rfl, hputs, hlater⟩

/-! ## 2. An id that is given again -/

/-- An id is given again after no less than a whole round of accepted jobs. -/
theorem round_of_accepted_again {s : Store} {id : JobId} {action : StoreAction}
    {later : List StoreAction} (haccepts : s.accepts id action)
    (hagain : (s.acts (action :: later)).nextJobId = id) :
    0x10000000000000000 ≤ (acceptedIds (s.attempts (action :: later))).length := by
  have hlogs := logs_acts s (action :: later)
  have hfirst : s.attempt action = [some id] := by
    cases action with
    | submit policy job =>
      have hid : (s.submit policy job).1 = .ok id := haccepts
      rw [Store.attempt, hid]
      rfl
    | _ => exact haccepts.elim
  have hids : acceptedIds (s.attempts (action :: later)) =
      id :: acceptedIds ((s.act action).attempts later) := by
    rw [Store.attempts, hfirst]
    rfl
  generalize acceptedIds (s.attempts (action :: later)) = ids at hlogs hids ⊢
  have hpos : 0 < ids.length := by
    rw [hids]
    exact Nat.zero_lt_succ _
  have hzeroth : nthId s.nextJobId 0 = id := by
    have hhead := congrArg (·[0]?) hlogs.inOrder
    simpa [hids] using hhead.symm
  have hlast : nthId s.nextJobId ids.length = id := hlogs.next.symm.trans hagain
  -- were it less than a round, the two places would have different ids
  apply Nat.le_of_not_lt
  intro hnear
  exact nthId_ne hpos (by rwa [Nat.zero_add]) (hzeroth.trans hlast.symm)

/-! ## 3. What an accepted job takes over -/

/-- A job that was inserted by hand under the next id, and has completed, begins anew when
a submission is accepted; and there is no job more than before. -/
theorem takes_over_inserted :
    let s := Store.standard.acts [.insertJob 1 ⟨55, 1000, 3⟩]
    let job := { Job.new "test" "demo" with udf := some ⟨"geo", "move", []⟩ }
    (s.submit none job).1 = .ok 1 ∧
      s.jobs.find? 1 = some ⟨55, 1000, 3⟩ ∧
      (s.submit none job).2.jobs.find? 1 = some ⟨0, 0, 1⟩ ∧
      (s.submit none job).2.jobs.length = s.jobs.length :=
  ⟨rfl, rfl, rfl, rfl⟩

namespace FreshIdLemmas

theorem submit_eq_ok {s : Store} {policy : Option ScanPolicy} {job : Job} {id : JobId}
    (h : (s.submit policy job).1 = .ok id) :
    s.nextJobId = id ∧
      (s.submit policy job).2.jobs = s.jobs.insert id ⟨0, 0, JobStatus.inProgress.code⟩ := by
  rcases s.submit_cases policy job with ⟨e, -, hs⟩ | ⟨-, -, hs⟩ | ⟨udf, -, -, hs⟩ <;>
    rw [hs] at h ⊢
  · cases h
  · cases h
  · obtain rfl := Except.ok.inj h
    exact ⟨rfl, rfl⟩

/-- Where a job came from that a new store has come to know, when its id is the next. -/
theorem knows_next_iff (first : JobId) (offset : Int64) (before : List StoreAction)
    (id : JobId) (hnext : ((Store.new first offset).acts before).nextJobId = id) :
    ((Store.new first offset).acts before).knows id = true ↔
      ∃ earlier action later, before = earlier ++ action :: later ∧ .expireJob id ∉ later ∧
        (action.inserts id ∨
          ((Store.new first offset).acts earlier).accepts id action ∧
            0x10000000000000000 ≤ (acceptedIds
              (((Store.new first offset).acts earlier).attempts (action :: later))).length) := by
  rw [knows_acts]
  constructor
  · rintro (⟨hbegan, -⟩ | ⟨earlier, action, later, rfl, hputs, hlater⟩)
    · cases hbegan
    · refine ⟨earlier, action, later, rfl, hlater, ?_⟩
      rw [StoreActionLemmas.acts_append] at hnext
      exact hputs.imp_right fun haccepts => ⟨haccepts, round_of_accepted_again haccepts hnext⟩
  · rintro ⟨earlier, action, later, hsplit, hlater, hputs⟩
    exact .inr ⟨earlier, action, later, hsplit, hputs.imp_right And.left, hlater⟩

end FreshIdLemmas

/-- The id of an accepted job was known exactly if it had been inserted by hand, or
accepted no less than a whole round of accepted jobs before, and not expired since. If it
was not known there is one job more, and else as many as before; all others are known
as they were. -/
theorem accepts_new_ids (first : JobId) (offset : Int64) (before : List StoreAction)
    (policy : Option ScanPolicy) (job : Job) (id : JobId)
    (h : (((Store.new first offset).acts before).submit policy job).1 = .ok id) :
    let began := Store.new first offset
    let s := began.acts before
    let s' := (s.submit policy job).2
    (s.knows id = true ↔
        ∃ earlier action later, before = earlier ++ action :: later ∧
          .expireJob id ∉ later ∧
          (action.inserts id ∨
            (began.acts earlier).accepts id action ∧
              0x10000000000000000 ≤
                (acceptedIds ((began.acts earlier).attempts (action :: later))).length)) ∧
      s'.jobs.length = (if s.knows id then s.jobs.length else s.jobs.length + 1) ∧
      ∀ other, other ≠ id → s'.jobs.find? other = s.jobs.find? other := by
  intro began s s'
  obtain ⟨hnext, hjobs⟩ := submit_eq_ok h
  refine ⟨knows_next_iff first offset before id hnext, ?_, ?_⟩
  · show (s.submit policy job).2.jobs.length = _
    rw [hjobs]
    exact JobTable.length_insert id _ s.jobs
  · intro other hother
    show (s.submit policy job).2.jobs.find? other = _
    rw [hjobs, JobTable.find?_insert, if_neg (Ne.symm hother)]

/-- After another job was accepted, the next id was inserted by hand, once with and once
without being expired since. -/
theorem accepts_new_ids_expired :
    let job := { Job.new "test" "demo" with udf := some ⟨"geo", "move", []⟩ }
    let before : List StoreAction := [.submit none job, .insertJob 2 ⟨55, 1000, 3⟩]
    let s := Store.standard.acts before
    let t := Store.standard.acts (before ++ [.expireJob 2])
    (s.submit none job).1 = .ok 2 ∧ s.knows 2 = true ∧
      (s.submit none job).2.jobs.length = 2 ∧
      (s.submit none job).2.jobs.find? 1 = some ⟨0, 0, 1⟩ ∧
      (t.submit none job).1 = .ok 2 ∧ t.knows 2 = false ∧
      (t.submit none job).2.jobs.length = 2 ∧
      (t.submit none job).2.jobs.find? 1 = some ⟨0, 0, 1⟩ := by
  intro job before s t
  obtain ⟨hknown, hlength, hothers⟩ := accepts_new_ids 1 0 before none job 2 rfl
  obtain ⟨-, hlength', hothers'⟩ :=
    accepts_new_ids 1 0 (before ++ [.expireJob 2]) none job 2 rfl
  have hs : s.knows 2 = true :=
    hknown.mpr ⟨[.submit none job], .insertJob 2 ⟨55, 1000, 3⟩, [], rfl, List.not_mem_nil, .inl rfl⟩
  refine ⟨rfl, hs, hlength.trans (if_pos hs), hothers 1 (by decide), rfl, rfl, hlength',
    hothers' 1 (by decide)⟩

end BackgroundScan
