import BackgroundScan.Proofs.NoFaults

/-!
# Moving a status code back

Where a snapshot is taken the offset of the store is added to the code of the status, and where it
is decoded an offset is taken off again. The sum is checked against the signed range. The
difference is not: past the range it is a fault, although no status could be meant there.

1. `ofCode?_eq_some_iff`: a code is that of at most one status.
   `signedWord?_cases`: an integer becomes the signed word with its value, or none.
2. `faults_past_range`: a snapshot that cannot be decoded. `decodes_within_range`: which status
   a snapshot shows, and when decoding it is a fault. With the offset that it was taken with it
   is none.
-/

namespace BackgroundScan

/-! ## 1. Codes and words -/

/-- Whether a signed word holds an integer. -/
def InSignedRange (n : Int) : Prop := -0x8000000000000000 ≤ n ∧ n < 0x8000000000000000

namespace StatusCodeLemmas

theorem ofCode?_eq_some_iff {code : Int64} {status : JobStatus} :
    JobStatus.ofCode? code = some status ↔ code.toInt = status.code.toInt := by
  constructor
  · intro h
    unfold JobStatus.ofCode? at h
    repeat' split at h
    case isFalse => cases h
    all_goals
      obtain rfl := Option.some.inj h
      next hcode => rw [hcode]; rfl
  · intro h
    obtain rfl := Int64.toInt_inj.mp h
    exact JobStatus.ofCode_code status

theorem signedWord?_cases (n : Int) :
    (InSignedRange n ∧ ∃ word, signedWord? n = some word ∧ word.toInt = n) ∨
      (¬ InSignedRange n ∧ signedWord? n = none) := by
  by_cases h : InSignedRange n
  · exact .inl ⟨h, _, if_pos h, Int64.toInt_ofInt_of_le h.1 h.2⟩
  · exact .inr ⟨h, if_neg h⟩

theorem inSignedRange_toInt (word : Int64) : InSignedRange word.toInt :=
  ⟨word.le_toInt, word.toInt_lt⟩

/-- A snapshot is decoded as the status whose code is the difference, or as none if there is no
such status; past the signed range it is not decoded at all. -/
theorem jobStatus_cases (s : Snapshot) (offset : Int64) :
    (InSignedRange (s.status.toInt - offset.toInt) ∧
        ∃ word : Int64, s.jobStatus offset = .ok (JobStatus.ofCode? word) ∧
          word.toInt = s.status.toInt - offset.toInt) ∨
      (¬ InSignedRange (s.status.toInt - offset.toInt) ∧
        s.jobStatus offset = .error .differenceOverflow) := by
  unfold Snapshot.jobStatus
  rcases signedWord?_cases (s.status.toInt - offset.toInt) with ⟨h, word, hword, hvalue⟩ | ⟨h, hword⟩
  · exact .inl ⟨h, word, by rw [hword], hvalue⟩
  · exact .inr ⟨h, by rw [hword]⟩

/-- The code of a status is far inside the signed range, and so is what an offset makes of it. -/
theorem inSignedRange_of_shows {n : Int} {status : JobStatus} {offset : Int64}
    (h : n = status.code.toInt + offset.toInt) : InSignedRange (n - offset.toInt) := by
  have hcode : n - offset.toInt = status.code.toInt := by omega
  rw [hcode]
  exact inSignedRange_toInt status.code

end StatusCodeLemmas

open StatusCodeLemmas

/-! ## 2. Snapshots -/

/-- The least status code cannot be moved back by one, though no status is at that place. -/
theorem faults_past_range :
    let least : Int64 := -0x8000000000000000
    Snapshot.ofInfo ⟨0, 0, least⟩ 0 = .ok ⟨0, 0, least⟩ ∧
      (∀ status : JobStatus, least.toInt ≠ status.code.toInt + (1 : Int64).toInt) ∧
      Snapshot.jobStatus ⟨0, 0, least⟩ 1 = .error .differenceOverflow := by
  intro least
  refine ⟨by rfl, ?_, by rfl⟩
  intro status
  cases status <;> decide

/-- A snapshot shows the status whose code lies at the offset below its own. It shows none if there
is no such status, as far as the difference is in the signed range, and past that decoding is a
fault. With the offset that the snapshot was taken with, the code that the store gave is decoded. -/
theorem decodes_within_range {info : JobInfo} {base : Int64} {s : Snapshot}
    (h : Snapshot.ofInfo info base = .ok s) :
    s.status.toInt = info.status.toInt + base.toInt ∧
      s.jobStatus base = .ok (JobStatus.ofCode? info.status) ∧
      ∀ offset : Int64,
        (∀ status, s.jobStatus offset = .ok (some status) ↔
          s.status.toInt = status.code.toInt + offset.toInt) ∧
        (s.jobStatus offset = .ok none ↔
          InSignedRange (s.status.toInt - offset.toInt) ∧
            ∀ status : JobStatus, s.status.toInt ≠ status.code.toInt + offset.toInt) ∧
        (s.jobStatus offset = .error .differenceOverflow ↔
          ¬ InSignedRange (s.status.toInt - offset.toInt)) := by
  have hsum : s.status.toInt = info.status.toInt + base.toInt := by
    rcases ofInfo_cases info base with ⟨taken, htaken, hvalue⟩ | ⟨hrefused, -⟩
    · obtain rfl := Except.ok.inj (htaken.symm.trans h)
      exact hvalue
    · cases hrefused.symm.trans h
  refine ⟨hsum, ?_, fun offset => ?_⟩
  · have hback : s.status.toInt - base.toInt = info.status.toInt := by omega
    rcases jobStatus_cases s base with ⟨-, word, hstatus, hword⟩ | ⟨hpast, -⟩
    · obtain rfl := Int64.toInt_inj.mp (hword.trans hback)
      exact hstatus
    · exact absurd (hback ▸ inSignedRange_toInt info.status) hpast
  · rcases jobStatus_cases s offset with ⟨hrange, word, hstatus, hword⟩ | ⟨hpast, hstatus⟩
    · have hshows (status : JobStatus) : JobStatus.ofCode? word = some status ↔
          s.status.toInt = status.code.toInt + offset.toInt := by
        rw [ofCode?_eq_some_iff, hword]
        omega
      rw [hstatus]
      refine ⟨fun status => ?_, ?_, iff_of_false nofun (not_not_intro hrange)⟩
      · rw [← hshows]
        exact ⟨Except.ok.inj, congrArg _⟩
      · simp only [Except.ok.injEq, hrange, true_and, ← hshows, ne_eq]
        exact Option.eq_none_iff_forall_ne_some
    · rw [hstatus]
      refine ⟨fun status => iff_of_false nofun fun hshows => ?_, iff_of_false nofun ?_,
        iff_of_true rfl hpast⟩
      · exact hpast (inSignedRange_of_shows hshows)
      · exact fun hnone => hpast hnone.1

/-- A code that an offset brought to the top of the range: with the offset of its store it is an
aborted job, with the one below the next status, and with a negative one it is a fault. -/
theorem decodes_within_range_at_top :
    let s : Snapshot := ⟨55, 1000, 0x7FFFFFFFFFFFFFFF⟩
    Snapshot.ofInfo ⟨55, 1000, 2⟩ 0x7FFFFFFFFFFFFFFD = .ok s ∧
      s.jobStatus 0x7FFFFFFFFFFFFFFD = .ok (some .aborted) ∧
      s.jobStatus 0x7FFFFFFFFFFFFFFC = .ok (some .completed) ∧
      s.jobStatus 0 = .ok none ∧
      s.jobStatus (-1) = .error .differenceOverflow := by
  intro s
  have htaken : Snapshot.ofInfo ⟨55, 1000, 2⟩ 0x7FFFFFFFFFFFFFFD = .ok s := by rfl
  obtain ⟨-, hbase, hall⟩ := decodes_within_range htaken
  refine ⟨htaken, hbase, ?_, ?_, ?_⟩
  · exact ((hall 0x7FFFFFFFFFFFFFFC).1 .completed).mpr (by decide)
  · refine (hall 0).2.1.mpr ⟨⟨by decide, by decide⟩, ?_⟩
    intro status
    cases status <;> decide
  · exact (hall (-1)).2.2.mpr fun hrange => absurd hrange.2 (by decide)

end BackgroundScan
