import BackgroundScan.Proofs.Polling

/-!
# Which percentages a status query shows

A job begins with nothing done, and a job that is changed by hand has its percentage
capped at 100. But one that is inserted by hand keeps the percentage that it is given,
and a status query shows it as it is. So a snapshot can show more than 100, and it does
so exactly as long as nothing else was written about such a job.

1. `Store.writes` and `Store.spares`: which actions set or forget what is known of a job.
   `entries_acts`: what is known of it is what the last of them left.
2. `inRange_of_writes`: every write leaves a percentage up to 100, but for a job that is
   inserted.
3. `shows_more_than_whole`: a snapshot that shows more. `shows_more_only_if_inserted`:
   when snapshots do.
-/

namespace BackgroundScan

/-! ## 1. The last write -/

namespace Store

/-- Whether an action sets or forgets what is known of a job. -/
def writes (s : Store) (id : JobId) : StoreAction → Prop
  | .submit policy job => (s.submit policy job).1 = .ok id
  | .insertJob k _ => k = id
  | .setProgress k _ _ _ => k = id
  | .expireJob k => k = id
  | _ => False

/-- Whether none of several actions does. -/
def spares (s : Store) (id : JobId) : List StoreAction → Prop
  | [] => True
  | action :: rest => ¬ s.writes id action ∧ (s.act action).spares id rest

end Store

namespace ProgressLemmas

open PollingLemmas

theorem entries_act_of_not_writes {s : Store} {id : JobId} {action : StoreAction}
    (h : ¬ s.writes id action) : (s.act action).entries id = s.entries id := by
  cases action with
  | submit policy job =>
    have hother : (s.submit policy job).1 ≠ .ok id := h
    simp only [Store.act, entries_submit]
    cases hsubmit : (s.submit policy job).1 with
    | error e => rfl
    | ok k =>
      rw [hsubmit] at hother
      exact if_neg fun hk => hother (congrArg Except.ok hk)
  | query policy k => exact congrFun (entries_query s policy k) id
  | insertJob k info => exact (congrFun (entries_insertJob s k info) id).trans (if_neg h)
  | setProgress k progressPct recordsScanned status =>
    refine (congrFun (entries_setProgress s k progressPct recordsScanned status) id).trans ?_
    cases (s.entries k).isSome with
    | true => exact if_neg h
    | false => rfl
  | expireJob k => exact (congrFun (entries_expireJob s k) id).trans (if_neg h)
  | failNextSubmit e | failNextStatus e => rfl

theorem entries_of_spares {s : Store} {id : JobId} {asked : List StoreAction}
    (h : s.spares id asked) : (s.acts asked).entries id = s.entries id := by
  induction asked generalizing s with
  | nil => rfl
  | cons action rest ih => exact (ih h.2).trans (entries_act_of_not_writes h.1)

end ProgressLemmas

open ProgressLemmas

/-- What is known of a job is what the last action left that wrote it, or what was known
at the beginning if none did. -/
theorem entries_acts (s : Store) (id : JobId) (asked : List StoreAction) :
    (s.acts asked).entries id = s.entries id ∨
      ∃ earlier action later, asked = earlier ++ action :: later ∧
        (s.acts earlier).writes id action ∧
        ((s.acts earlier).act action).spares id later ∧
        (s.acts asked).entries id = ((s.acts earlier).act action).entries id := by
  suffices h : s.spares id asked ∨
      ∃ earlier action later, asked = earlier ++ action :: later ∧
        (s.acts earlier).writes id action ∧
        ((s.acts earlier).act action).spares id later by
    rcases h with hspares | ⟨earlier, action, later, rfl, hwrites, hspares⟩
    · exact .inl (entries_of_spares hspares)
    · refine .inr ⟨earlier, action, later, rfl, hwrites, hspares, ?_⟩
      rw [StoreActionLemmas.acts_append]
      exact entries_of_spares hspares
  induction asked generalizing s with
  | nil => exact .inl trivial
  | cons first rest ih =>
    rcases ih (s.act first) with hrest | ⟨earlier, action, later, rfl, hwrites, hspares⟩
    · by_cases hfirst : s.writes id first
      · exact .inr ⟨[], first, rest, rfl, hfirst, hrest⟩
      · exact .inl ⟨hfirst, hrest⟩
    · exact .inr ⟨first :: earlier, action, later, rfl, hwrites, hspares⟩

/-! ## 2. What a write leaves -/

/-- Whether the percentage that is known of a job, if any, is at most 100. -/
def InRange (entry : Option JobInfo) : Prop := ∀ info, entry = some info → info.progressPct ≤ 100

namespace ProgressLemmas

open PollingLemmas

theorem set_self (t : Entries) (id : JobId) (entry : Option JobInfo) : t.set id entry id = entry :=
  if_pos rfl

theorem inRange_set (t : Entries) (id : JobId) {info : JobInfo} (h : info.progressPct ≤ 100) :
    InRange (t.set id (some info) id) := by
  rw [set_self]
  rintro _ ⟨⟩
  exact h

theorem min_le_hundred (progressPct : UInt32) : min progressPct 100 ≤ 100 := by
  show (if progressPct ≤ 100 then progressPct else 100) ≤ 100
  split
  · assumption
  · exact UInt32.le_refl 100

theorem inRange_accepted {s : Store} {id : JobId} {policy : Option ScanPolicy} {job : Job}
    (h : (s.submit policy job).1 = .ok id) : InRange ((s.submit policy job).2.entries id) := by
  rw [entries_submit, h]
  exact inRange_set s.entries id (by decide)

theorem inRange_setProgress (s : Store) (id : JobId) (progressPct : UInt32)
    (recordsScanned : UInt64) (status : JobStatus) :
    InRange ((s.setProgress id progressPct recordsScanned status).2.entries id) := by
  rw [entries_setProgress]
  cases hentry : s.entries id with
  | none =>
    -- nothing is known of the job, and so nothing changes
    intro info hinfo
    cases hentry.symm.trans hinfo
  | some known => exact inRange_set s.entries id (min_le_hundred progressPct)

/-- A write leaves a percentage up to 100, unless it inserts the job. -/
theorem inRange_of_writes {s : Store} {id : JobId} {action : StoreAction}
    (h : s.writes id action) :
    (∃ info, action = .insertJob id info) ∨ InRange ((s.act action).entries id) := by
  cases action with
  | submit policy job => exact .inr (inRange_accepted h)
  | insertJob k info =>
    obtain rfl : k = id := h
    exact .inl ⟨info, rfl⟩
  | setProgress k progressPct recordsScanned status =>
    obtain rfl : k = id := h
    exact .inr (inRange_setProgress s k progressPct recordsScanned status)
  | expireJob k =>
    obtain rfl : k = id := h
    refine .inr fun info hinfo => ?_
    rw [Store.act, entries_expireJob, set_self] at hinfo
    cases hinfo
  | query policy k | failNextSubmit e | failNextStatus e => exact h.elim

end ProgressLemmas

/-! ## 3. Snapshots -/

/-- A job that was inserted by hand as 250 percent done is shown so. -/
theorem shows_more_than_whole :
    ((Client.new .standard).scanInfo (Store.standard.acts [.insertJob 7 ⟨250, 12, 1⟩]) 7
      none).outcome = .ok (.ok ⟨250, 12, 1⟩) :=
  rfl

namespace ProgressLemmas

open PollingLemmas

theorem snapshot_of_ofInfo {info : JobInfo} {offset : Int64} {snapshot : Snapshot}
    (h : Snapshot.ofInfo info offset = .ok snapshot) :
    snapshot.progressPct = info.progressPct := by
  unfold Snapshot.ofInfo at h
  split at h
  · obtain rfl := Except.ok.inj h
    rfl
  · cases h

/-- A snapshot shows the percentage that is known of its job. -/
theorem entry_of_scanInfo {c : Client} {s : Store} {id : JobId} {policy : Option Json}
    {snapshot : Snapshot} (h : (c.scanInfo s id policy).outcome = .ok (.ok snapshot)) :
    ∃ info, s.entries id = some info ∧ snapshot.progressPct = info.progressPct := by
  have hseen := Except.ok.inj ((scanInfo_seen c s id policy).1.symm.trans h)
  cases hprepared : c.preparedQuery policy with
  | error f =>
    rw [hprepared] at hseen
    cases hseen
  | ok prepared =>
    rw [hprepared] at hseen
    simp only [dispatch, Store.askForStatus] at hseen
    rcases s.query_cases prepared id with ⟨e, -, hq⟩ | ⟨-, -, hq⟩ | ⟨info, -, hfind, hq⟩ <;>
      rw [hq] at hseen
    · cases hseen
    · cases hseen
    · refine ⟨info, hfind, ?_⟩
      exact snapshot_of_ofInfo (mapError_eq_ok_iff.mp (mapError_eq_ok_iff.mp hseen))

/-- A job that was inserted is known as it was, until something else is written about it. -/
theorem entries_of_inserted {s : Store} {id : JobId} {info : JobInfo} {later : List StoreAction}
    (h : (s.insertJob id info).spares id later) :
    (s.acts (.insertJob id info :: later)).entries id = some info := by
  refine (entries_of_spares h).trans ?_
  rw [entries_insertJob, set_self]

end ProgressLemmas

/-- A snapshot shows more than 100 exactly if its job was inserted by hand with more, and
nothing else was written about it since. -/
theorem shows_more_only_if_inserted (first : JobId) (offset : Int64) (asked : List StoreAction)
    (c : Client) (id : JobId) (policy : Option Json) (snapshot : Snapshot)
    (h : (c.scanInfo ((Store.new first offset).acts asked) id policy).outcome =
      .ok (.ok snapshot)) :
    100 < snapshot.progressPct ↔
      ∃ earlier info later, asked = earlier ++ .insertJob id info :: later ∧
        100 < info.progressPct ∧
        (((Store.new first offset).acts earlier).insertJob id info).spares id later := by
  obtain ⟨known, hentry, hshown⟩ := entry_of_scanInfo h
  rw [hshown]
  constructor
  · intro hmore
    rcases entries_acts (Store.new first offset) id asked with
      hnever | ⟨earlier, action, later, rfl, hwrites, hspares, hleft⟩
    · -- a new store knows no job
      cases hentry.symm.trans hnever
    · rw [hentry] at hleft
      rcases inRange_of_writes hwrites with ⟨info, rfl⟩ | hrange
      · have hinserted := entries_of_inserted hspares
        rw [← StoreActionLemmas.acts_append, hentry] at hinserted
        exact ⟨earlier, info, later, rfl, Option.some.inj hinserted ▸ hmore, hspares⟩
      · exact absurd (hrange known hleft.symm) (UInt32.not_le.mpr hmore)
  · rintro ⟨earlier, info, later, rfl, hmore, hspares⟩
    have hinserted := entries_of_inserted hspares
    rw [← StoreActionLemmas.acts_append, hentry] at hinserted
    exact Option.some.inj hinserted ▸ hmore

/-- A job that was capped is inserted again as 250 percent done, and shown so while
another job is changed. -/
theorem shows_more_only_if_inserted_again :
    let asked : List StoreAction := [.insertJob 7 ⟨150, 0, 1⟩, .setProgress 7 180 20 .completed,
      .insertJob 7 ⟨250, 12, 1⟩, .setProgress 8 90 0 .completed]
    let c : Client := .new .standard
    ∃ snapshot, (c.scanInfo (Store.standard.acts asked) 7 none).outcome = .ok (.ok snapshot) ∧
      100 < snapshot.progressPct := by
  intro asked c
  have hentry : (Store.standard.acts asked).entries 7 = some ⟨250, 12, 1⟩ := by rfl
  have hread : ∃ answer, (c.scanInfo (Store.standard.acts asked) 7 none).outcome = .ok answer ∧
      Reads 7 0 ((Store.standard.acts asked).entries 7) answer :=
    PollingLemmas.scanInfo_reads 7 rfl nofun (by rfl)
  obtain ⟨answer, houtcome, hreads⟩ := hread
  rw [hentry, Reads, if_pos (by decide)] at hreads
  obtain ⟨snapshot, rfl, -⟩ := hreads
  have hother : (8 : JobId) ≠ 7 := by decide
  refine ⟨snapshot, houtcome, ?_⟩
  refine (shows_more_only_if_inserted 1 0 asked c 7 none snapshot houtcome).mpr ?_
  exact ⟨asked.take 2, ⟨250, 12, 1⟩, asked.drop 3, rfl, by decide, hother, trivial⟩

end BackgroundScan
