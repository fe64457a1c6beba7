import BackgroundScan.JobId
import BackgroundScan.JobStatus

/-!
# The jobs a store knows

A finite map from job ids to what the store knows of the jobs.

Main statements: `find?_insert`, `find?_erase` and `length_insert`, what each operation does to the
entries.
-/

namespace BackgroundScan

/-- What a store knows of its jobs. -/
abbrev JobTable := List (JobId × JobInfo)

namespace JobTable

/-- What is known of a job. -/
def find? (id : JobId) : JobTable → Option JobInfo
  | [] => none
  | (k, info) :: rest => if k = id then some info else find? id rest

/-- Sets what is known of a job. -/
def insert (id : JobId) (info : JobInfo) : JobTable → JobTable
  | [] => [(id, info)]
  | (k, old) :: rest => if k = id then (k, info) :: rest else (k, old) :: insert id info rest

/-- Forgets a job. -/
def erase (id : JobId) : JobTable → JobTable
  | [] => []
  | (k, info) :: rest => if k = id then erase id rest else (k, info) :: erase id rest

theorem find?_insert (id other : JobId) (info : JobInfo) (t : JobTable) :
    find? other (insert id info t) = if id = other then some info else find? other t := by
  induction t with
  | nil => simp [insert, find?]
  | cons entry rest ih =>
    obtain ⟨k, old⟩ := entry
    by_cases hk : k = id
    · subst hk
      by_cases ho : k = other <;> simp [insert, find?, ho]
    · by_cases ho : k = other
      · subst ho
        simp [insert, find?, hk, Ne.symm hk]
      · simp [insert, find?, hk, ho, ih]

theorem find?_erase (id other : JobId) (t : JobTable) :
    find? other (erase id t) = if id = other then none else find? other t := by
  induction t with
  | nil => simp [erase, find?]
  | cons entry rest ih =>
    obtain ⟨k, info⟩ := entry
    by_cases hk : k = id
    · subst hk
      by_cases ho : k = other <;> simp_all [erase, find?]
    · by_cases ho : k = other
      · subst ho
        simp [erase, find?, hk, Ne.symm hk]
      · simp [erase, find?, hk, ho, ih]

theorem length_insert (id : JobId) (info : JobInfo) (t : JobTable) :
    (insert id info t).length = if (find? id t).isSome then t.length else t.length + 1 := by
  induction t with
  | nil => simp [insert, find?]
  | cons entry rest ih =>
    obtain ⟨k, old⟩ := entry
    by_cases hk : k = id
    · simp [insert, find?, hk]
    · simp only [insert, find?, hk, ↓reduceIte, List.length_cons, ih]
      split <;> rfl

end JobTable

end BackgroundScan
