import BackgroundScan.Job.Basic
import BackgroundScan.Store.JobTable

/-!
# A store in memory

The store keeps a table of jobs, a log of the submissions it accepted, and counts of the calls made
to it, which are unbounded. Job ids are 64-bit words taken in order, from the largest back to zero.
A test can change a job by hand, and can arm an error for the next submission or the next status
query; an armed error is delivered once.

Main statements: `submit_cases` and `query_cases`, all that the two calls of a client can come to.
-/

namespace BackgroundScan

/-- What the store received with a job it accepted. -/
structure Submission where
  jobId : JobId
  space : String
  set : String
  moduleName : String
  functionName : String
  args : List Value
  policy : Option ScanPolicy
  percent : UInt8
  priority : Priority
  concurrent : Bool
  noBins : Bool

/-- A store in memory. -/
structure Store where
  /-- The id of the next job. -/
  nextJobId : JobId
  /-- By how much clients see status codes moved. -/
  statusOffset : Int64
  jobs : JobTable
  /-- The accepted submissions, the oldest first. -/
  submissions : List Submission
  /-- The policy of the last status query. -/
  lastInfoPolicy : Option InfoPolicy
  submitCalls : Nat
  statusCalls : Nat
  /-- The error armed for the next submission. -/
  submitFailure : Option StoreError
  /-- The error armed for the next status query. -/
  statusFailure : Option StoreError

namespace Store

/-- A store that knows no job. -/
def new (nextJobId : JobId) (statusOffset : Int64) : Store :=
  ⟨nextJobId, statusOffset, [], [], none, 0, 0, none, none⟩

/-- The store where nothing else is asked for: ids from one on, and codes not moved. -/
def standard : Store := new 1 0

/-! ## By hand -/

/-- Sets what is known of a job. -/
def insertJob (s : Store) (id : JobId) (info : JobInfo) : Store :=
  { s with jobs := s.jobs.insert id info }

/-- Changes a job that is known; answers whether it was. A percentage above 100 counts as 100. -/
def setProgress (s : Store) (id : JobId) (progressPct : UInt32) (recordsScanned : UInt64)
    (status : JobStatus) : Bool × Store :=
  match s.jobs.find? id with
  | none => (false, s)
  | some _ => (true, s.insertJob id ⟨min progressPct 100, recordsScanned, status.code⟩)

/-- Forgets a job; answers whether it was known. -/
def expireJob (s : Store) (id : JobId) : Bool × Store :=
  ((s.jobs.find? id).isSome, { s with jobs := s.jobs.erase id })

/-- Arms an error for the next submission. -/
def failNextSubmit (s : Store) (e : StoreError) : Store := { s with submitFailure := some e }

/-- Arms an error for the next status query. -/
def failNextStatus (s : Store) (e : StoreError) : Store := { s with statusFailure := some e }

/-! ## The calls of a client -/

/-- The record of a job accepted with its function under an id. -/
def record (id : JobId) (policy : Option ScanPolicy) (job : Job) (udf : Udf) : Submission where
  jobId := id
  space := job.space
  set := job.set
  moduleName := udf.moduleName
  functionName := udf.functionName
  args := udf.args
  policy := policy
  percent := job.percent
  priority := job.priority
  concurrent := job.concurrent
  noBins := job.noBins

/-- Accepts a job with its function. -/
def accept (s : Store) (policy : Option ScanPolicy) (job : Job) (udf : Udf) : Store :=
  { s with
    nextJobId := s.nextJobId + 1
    jobs := s.jobs.insert s.nextJobId ⟨0, 0, JobStatus.inProgress.code⟩
    submissions := s.submissions ++ [record s.nextJobId policy job udf] }

/-- Takes a job for execution. An armed error comes first, then a job without a function is
refused. -/
def submit (s : Store) (policy : Option ScanPolicy) (job : Job) :
    Except StoreError JobId × Store :=
  let s := { s with submitCalls := s.submitCalls + 1 }
  match s.submitFailure with
  | some e => (.error e, { s with submitFailure := none })
  | none =>
    match job.udf with
    | none => (.error (.requestInvalid "background scan requires a UDF"), s)
    | some udf => (.ok s.nextJobId, s.accept policy job udf)

/-- Answers what is known of a job. An armed error comes first. -/
def query (s : Store) (policy : Option InfoPolicy) (id : JobId) :
    Except StoreError JobInfo × Store :=
  let s := { s with statusCalls := s.statusCalls + 1, lastInfoPolicy := policy }
  match s.statusFailure with
  | some e => (.error e, { s with statusFailure := none })
  | none =>
    match s.jobs.find? id with
    | none => (.error (.notFound ("job " ++ id.text ++ " not found")), s)
    | some info => (.ok info, s)

theorem submit_of_armed {s : Store} {e : StoreError} (h : s.submitFailure = some e)
    (policy : Option ScanPolicy) (job : Job) :
    s.submit policy job =
      (.error e, { s with submitCalls := s.submitCalls + 1, submitFailure := none }) := by
  simp [submit, h]

theorem submit_accepted {s : Store} (h : s.submitFailure = none) (policy : Option ScanPolicy)
    {job : Job} {udf : Udf} (hu : job.udf = some udf) :
    s.submit policy job =
      (.ok s.nextJobId, { s with submitCalls := s.submitCalls + 1 }.accept policy job udf) := by
  simp [submit, h, hu]

theorem submit_without_udf {s : Store} (h : s.submitFailure = none) (policy : Option ScanPolicy)
    {job : Job} (hu : job.udf = none) :
    s.submit policy job =
      (.error (.requestInvalid "background scan requires a UDF"),
        { s with submitCalls := s.submitCalls + 1 }) := by
  simp [submit, h, hu]

theorem query_of_armed {s : Store} {e : StoreError} (h : s.statusFailure = some e)
    (policy : Option InfoPolicy) (id : JobId) :
    s.query policy id =
      (.error e, { s with
        statusCalls := s.statusCalls + 1, lastInfoPolicy := policy, statusFailure := none }) := by
  simp [query, h]

theorem query_of_unknown {s : Store} (h : s.statusFailure = none) (policy : Option InfoPolicy)
    {id : JobId} (hf : s.jobs.find? id = none) :
    s.query policy id =
      (.error (.notFound ("job " ++ id.text ++ " not found")),
        { s with statusCalls := s.statusCalls + 1, lastInfoPolicy := policy }) := by
  simp [query, h, hf]

theorem query_of_known {s : Store} (h : s.statusFailure = none) (policy : Option InfoPolicy)
    {id : JobId} {info : JobInfo} (hf : s.jobs.find? id = some info) :
    s.query policy id =
      (.ok info, { s with statusCalls := s.statusCalls + 1, lastInfoPolicy := policy }) := by
  simp [query, h, hf]

/-- All that a submission can come to. -/
theorem submit_cases (s : Store) (policy : Option ScanPolicy) (job : Job) :
    (∃ e, s.submitFailure = some e ∧ s.submit policy job =
      (.error e, { s with submitCalls := s.submitCalls + 1, submitFailure := none })) ∨
    (s.submitFailure = none ∧ job.udf = none ∧ s.submit policy job =
      (.error (.requestInvalid "background scan requires a UDF"),
        { s with submitCalls := s.submitCalls + 1 })) ∨
    ∃ udf, s.submitFailure = none ∧ job.udf = some udf ∧ s.submit policy job =
      (.ok s.nextJobId, { s with submitCalls := s.submitCalls + 1 }.accept policy job udf) := by
  rcases Option.eq_none_or_eq_some s.submitFailure with harmed | ⟨e, harmed⟩
  · rcases Option.eq_none_or_eq_some job.udf with hudf | ⟨udf, hudf⟩
    · exact .inr (.inl ⟨harmed, hudf, submit_without_udf harmed policy hudf⟩)
    · exact .inr (.inr ⟨udf, harmed, hudf, submit_accepted harmed policy hudf⟩)
  · exact .inl ⟨e, harmed, submit_of_armed harmed policy job⟩

/-- All that a status query can come to. -/
theorem query_cases (s : Store) (policy : Option InfoPolicy) (id : JobId) :
    (∃ e, s.statusFailure = some e ∧ s.query policy id =
      (.error e, { s with
        statusCalls := s.statusCalls + 1, lastInfoPolicy := policy, statusFailure := none })) ∨
    (s.statusFailure = none ∧ s.jobs.find? id = none ∧ s.query policy id =
      (.error (.notFound ("job " ++ id.text ++ " not found")),
        { s with statusCalls := s.statusCalls + 1, lastInfoPolicy := policy })) ∨
    ∃ info, s.statusFailure = none ∧ s.jobs.find? id = some info ∧ s.query policy id =
      (.ok info, { s with statusCalls := s.statusCalls + 1, lastInfoPolicy := policy }) := by
  rcases Option.eq_none_or_eq_some s.statusFailure with harmed | ⟨e, harmed⟩
  · rcases Option.eq_none_or_eq_some (s.jobs.find? id) with hfind | ⟨info, hfind⟩
    · exact .inr (.inl ⟨harmed, hfind, query_of_unknown harmed policy hfind⟩)
    · exact .inr (.inr ⟨info, harmed, hfind, query_of_known harmed policy hfind⟩)
  · exact .inl ⟨e, harmed, query_of_armed harmed policy id⟩

end Store

end BackgroundScan
