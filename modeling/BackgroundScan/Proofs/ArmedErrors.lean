import BackgroundScan.Proofs.Erasure

/-!
# Armed errors are delivered once

A store holds one error for the next submission and one for the next status query. The
two are apart, and each is a buffer of one place: arming again replaces the error, and
the next attempt at the operation takes it away, whatever it asks for. A call that the
client refuses is no attempt.

1. `Store.armed`: the error that is held for an operation. `armed_act`: what an action
   makes of it.
2. `LastArmed`: the last arming with no attempt since. `armed_acts`: that is the error
   that is held.
3. `delivers_last_armed`: the attempts that are answered with an armed error are those
   right after an arming; and what such an attempt leaves.
-/

namespace BackgroundScan

/-! ## 1. The two places -/

/-- The error that is held for the next attempt at an operation. -/
def Store.armed (s : Store) : Operation → Option StoreError
  | .scanApply => s.submitFailure
  | .scanInfo => s.statusFailure

namespace StoreAction

/-- Arms an error for the next attempt at an operation. -/
def arm : Operation → StoreError → StoreAction
  | .scanApply, e => .failNextSubmit e
  | .scanInfo, e => .failNextStatus e

/-- Whether an action is an attempt at an operation, or arms an error for one. -/
def touches : Operation → StoreAction → Bool
  | .scanApply, submit _ _ => true
  | .scanApply, failNextSubmit _ => true
  | .scanInfo, query _ _ => true
  | .scanInfo, failNextStatus _ => true
  | _, _ => false

/-- The error that an action arms. -/
def arms : StoreAction → Option StoreError
  | failNextSubmit e => some e
  | failNextStatus e => some e
  | _ => none

end StoreAction

namespace ArmedErrorLemmas

theorem eq_arm_iff (operation : Operation) (e : StoreError) (action : StoreAction) :
    action = .arm operation e ↔ action.touches operation = true ∧ action.arms = some e := by
  cases operation <;> cases action <;> simp [StoreAction.arm, StoreAction.touches, StoreAction.arms]

theorem armed_submit (s : Store) (policy : Option ScanPolicy) (job : Job) :
    (s.submit policy job).2.submitFailure = none ∧
      (s.submit policy job).2.statusFailure = s.statusFailure := by
  rcases s.submit_cases policy job with ⟨e, -, h⟩ | ⟨hunarmed, -, h⟩ | ⟨udf, hunarmed, -, h⟩ <;>
    rw [h]
  · exact ⟨rfl, rfl⟩
  · exact ⟨hunarmed, rfl⟩
  · exact ⟨hunarmed, rfl⟩

/-- A status query counts, keeps its policy and takes away the error that is held. -/
theorem query_store (s : Store) (policy : Option InfoPolicy) (id : JobId) :
    (s.query policy id).2 =
      { s with
        statusCalls := s.statusCalls + 1, lastInfoPolicy := policy, statusFailure := none } := by
  rcases s.query_cases policy id with ⟨e, -, h⟩ | ⟨hunarmed, -, h⟩ | ⟨info, hunarmed, -, h⟩ <;>
    rw [h]
  · rw [← hunarmed]
  · rw [← hunarmed]

end ArmedErrorLemmas

open ArmedErrorLemmas

/-- An action changes what is held for an operation only if it touches it: then that is
the error that it arms, and after an attempt nothing. -/
theorem armed_act (s : Store) (action : StoreAction) (operation : Operation) :
    (s.act action).armed operation =
      if action.touches operation then action.arms else s.armed operation := by
  cases action with
  | submit policy job =>
    obtain ⟨htaken, hkept⟩ := armed_submit s policy job
    cases operation with
    | scanApply => exact htaken
    | scanInfo => exact hkept
  | query policy id =>
    show (s.query policy id).2.armed operation = _
    rw [query_store]
    cases operation <;> rfl
  | setProgress id progressPct recordsScanned status =>
    simp only [Store.act, Store.setProgress]
    cases s.jobs.find? id <;> cases operation <;> rfl
  | insertJob _ _ | expireJob _ | failNextSubmit _ | failNextStatus _ => cases operation <;> rfl

/-! ## 2. The last arming -/

/-- This error was the last that was armed for an operation, with no attempt since. -/
def LastArmed (operation : Operation) (e : StoreError) (asked : List StoreAction) : Prop :=
  ∃ earlier later, asked = earlier ++ .arm operation e :: later ∧
    ∀ action ∈ later, action.touches operation = false

namespace ArmedErrorLemmas

theorem not_lastArmed_nil (operation : Operation) (e : StoreError) :
    ¬ LastArmed operation e [] := by
  rintro ⟨earlier, later, hsplit, -⟩
  exact absurd hsplit.symm (List.append_ne_nil_of_right_ne_nil _ (List.cons_ne_nil _ _))

theorem lastArmed_cons {operation : Operation} {e : StoreError} {first : StoreAction}
    {rest : List StoreAction} :
    LastArmed operation e (first :: rest) ↔
      (first = .arm operation e ∧ ∀ action ∈ rest, action.touches operation = false) ∨
        LastArmed operation e rest := by
  constructor
  · rintro ⟨earlier, later, hsplit, hlater⟩
    cases earlier with
    | nil =>
      obtain ⟨rfl, rfl⟩ := List.cons.inj hsplit
      exact .inl ⟨rfl, hlater⟩
    | cons _ earlier =>
      obtain ⟨rfl, rfl⟩ := List.cons.inj hsplit
      exact .inr ⟨earlier, later, rfl, hlater⟩
  · rintro (⟨rfl, hrest⟩ | ⟨earlier, later, rfl, hlater⟩)
    · exact ⟨[], rest, rfl, hrest⟩
    · exact ⟨first :: earlier, later, rfl, hlater⟩

end ArmedErrorLemmas

/-- What is held for an operation was armed last, or was held and nothing touched it. -/
theorem armed_acts (s : Store) (operation : Operation) (e : StoreError)
    (asked : List StoreAction) :
    (s.acts asked).armed operation = some e ↔
      (s.armed operation = some e ∧ ∀ action ∈ asked, action.touches operation = false) ∨
        LastArmed operation e asked := by
  induction asked generalizing s with
  | nil => simp [Store.acts, not_lastArmed_nil]
  | cons first rest ih =>
    rw [show s.acts (first :: rest) = (s.act first).acts rest from rfl, ih, armed_act,
      lastArmed_cons, eq_arm_iff, List.forall_mem_cons, ← or_assoc]
    refine or_congr_left ?_
    cases first.touches operation <;> simp

/-! ## 3. Attempts -/

namespace Store

/-- The answer to a submission where no error is armed. -/
def answerToSubmit (s : Store) (job : Job) : Except StoreError JobId :=
  match job.udf with
  | none => .error ⟨4, "background scan requires a UDF"⟩
  | some _ => .ok s.nextJobId

/-- The answer to a status query where no error is armed. -/
def answerToQuery (s : Store) (id : JobId) : Except StoreError JobInfo :=
  match s.jobs.find? id with
  | none => .error ⟨2, "job " ++ toString id.toNat ++ " not found"⟩
  | some info => .ok info

end Store

/-- How a store treats attempts that was asked for these actions since it was new. An error
that was armed last is delivered to any attempt, and taken away; and where none was, the
answer is that of a store without such errors. -/
structure DeliversArmed (asked : List StoreAction) (s : Store) : Prop where
  held : ∀ operation e, s.armed operation = some e ↔ LastArmed operation e asked
  kept : ∀ operation action, action.touches operation = false →
    (s.act action).armed operation = s.armed operation
  submitted : ∀ e, LastArmed .scanApply e asked → ∀ policy job,
    s.submit policy job =
      (.error e, { s with submitCalls := s.submitCalls + 1, submitFailure := none })
  submittedUnarmed : (∀ e, ¬ LastArmed .scanApply e asked) → ∀ policy job,
    (s.submit policy job).1 = s.answerToSubmit job
  queried : ∀ e, LastArmed .scanInfo e asked → ∀ policy id,
    s.query policy id =
      (.error e, { s with
        statusCalls := s.statusCalls + 1, lastInfoPolicy := policy, statusFailure := none })
  queriedUnarmed : (∀ e, ¬ LastArmed .scanInfo e asked) → ∀ policy id,
    (s.query policy id).1 = s.answerToQuery id
  refused : ∀ c action, (Client.exchange c s action).answer.isClientSide = true →
    ((c.sessionAt s).step action).2.store = s
  applied : ∀ e, LastArmed .scanApply e asked → ∀ c r,
    (Client.exchange c s (.scanApply r)).answer.isClientSide = false →
    (c.scanApply s r).outcome = .ok (.error e.failure.report)
  polled : ∀ e, LastArmed .scanInfo e asked → ∀ c id policy,
    (Client.exchange c s (.scanInfo id policy)).answer.isClientSide = false →
    (c.scanInfo s id policy).outcome = .ok (.error e.failure.report)

namespace ArmedErrorLemmas

open CallLemmas ErasureLemmas

theorem submit_unarmed {s : Store} (h : s.submitFailure = none) (policy : Option ScanPolicy)
    (job : Job) : (s.submit policy job).1 = s.answerToSubmit job := by
  unfold Store.answerToSubmit
  cases hudf : job.udf with
  | none =>
    rw [Store.submit_without_udf h policy hudf]
    rfl
  | some udf => rw [Store.submit_accepted h policy hudf]

theorem query_unarmed {s : Store} (h : s.statusFailure = none) (policy : Option InfoPolicy)
    (id : JobId) : (s.query policy id).1 = s.answerToQuery id := by
  unfold Store.answerToQuery
  cases hfind : s.jobs.find? id with
  | none =>
    rw [Store.query_of_unknown h policy hfind]
    rfl
  | some info => rw [Store.query_of_known h policy hfind]

/-- A call that gets through to the store reports what its attempt is answered with. -/
theorem dispatch_error {α β : Type} {s : Store} {prepared : Except Failure α}
    {ask : α → Except Failure β × Store} {action : α → StoreAction} {f : Failure}
    (hthrough : (askFor action prepared).isEmpty = false) (hask : ∀ a, (ask a).1 = .error f) :
    (dispatch s prepared ask).1 = .error f.report := by
  cases prepared with
  | error _ => cases hthrough
  | ok a =>
    show (ask a).1.mapError Failure.report = _
    rw [hask a]
    rfl

theorem scanApply_armed {s : Store} {e : StoreError} (h : s.submitFailure = some e) {c : Client}
    {r : ScanRequest} (hside : (c.exchange s (.scanApply r)).answer.isClientSide = false) :
    (c.scanApply s r).outcome = .ok (.error e.failure.report) := by
  rw [(scanApply_seen c s r).1]
  refine congrArg Except.ok (dispatch_error ((isClientSide_applied c s r).symm.trans hside) ?_)
  intro job
  rw [Store.askToSubmit, Store.submit_of_armed h]
  rfl

theorem scanInfo_armed {s : Store} {e : StoreError} (h : s.statusFailure = some e) {c : Client}
    {id : JobId} {policy : Option Json}
    (hside : (c.exchange s (.scanInfo id policy)).answer.isClientSide = false) :
    (c.scanInfo s id policy).outcome = .ok (.error e.failure.report) := by
  rw [(scanInfo_seen c s id policy).1]
  refine congrArg Except.ok (dispatch_error ((isClientSide_polled c s id policy).symm.trans hside) ?_)
  intro prepared
  rw [Store.askForStatus, Store.query_of_armed h]

theorem deliversArmed_acts (first : JobId) (offset : Int64) (asked : List StoreAction) :
    DeliversArmed asked ((Store.new first offset).acts asked) := by
  have hheld (operation : Operation) (e : StoreError) :
      ((Store.new first offset).acts asked).armed operation = some e ↔
        LastArmed operation e asked := by
    rw [armed_acts]
    refine or_iff_right ?_
    -- nothing is armed at a new store
    rintro ⟨hnew, -⟩
    cases operation <;> cases hnew
  generalize (Store.new first offset).acts asked = s at hheld ⊢
  have hnone {operation : Operation} (h : ∀ e, ¬ LastArmed operation e asked) :
      s.armed operation = none :=
    Option.eq_none_iff_forall_ne_some.mpr fun e he => h e ((hheld operation e).mp he)
  exact {
    held := hheld
    kept := fun operation action h => by rw [armed_act, h]; rfl
    submitted := fun e h => Store.submit_of_armed ((hheld .scanApply e).mpr h)
    submittedUnarmed := fun h => submit_unarmed (hnone h)
    queried := fun e h => Store.query_of_armed ((hheld .scanInfo e).mpr h)
    queriedUnarmed := fun h => query_unarmed (hnone h)
    refused := fun c action h => by
      rw [step_store]
      exact congrArg s.acts (asks_of_clientSide h)
    applied := fun e h _ _ => scanApply_armed ((hheld .scanApply e).mpr h)
    polled := fun e h _ _ _ => scanInfo_armed ((hheld .scanInfo e).mpr h) }

end ArmedErrorLemmas

/-- Armed errors are delivered once, each to the next attempt at its operation. This is so
at every point of a run of a store, and of the clients that share it; there a call that
the client refuses has asked for nothing, and so was no attempt. -/
theorem delivers_last_armed (first : JobId) (offset : Int64) (asked : List StoreAction)
    (clients : List Client) (actions : List FleetAction) :
    let run := (Fleet.mk clients (.new first offset)).run actions
    DeliversArmed asked ((Store.new first offset).acts asked) ∧
      DeliversArmed (run.1.flatMap Exchange.asked) run.2.store ∧
      ∀ e ∈ run.1, e.answer.isClientSide = true → e.asked = [] := by
  intro run
  refine ⟨deliversArmed_acts first offset asked, ?_, ?_⟩
  · have hstore : run.2.store = _ := run_store (Fleet.mk clients (.new first offset)) actions
    rw [hstore]
    exact deliversArmed_acts first offset _
  · exact run_history (fun _ _ _ => asks_of_clientSide) _ actions

/-- Of two errors that were armed for a submission the second is delivered, to a job that
has no function, although a status was asked for in between; the next submission of the
same job is refused for what it lacks. -/
theorem delivers_last_armed_without_udf :
    let asked : List StoreAction := [.failNextSubmit (.timeout "late"),
      .failNextSubmit (.server "down"), .query none 9, .insertJob 9 ⟨10, 0, 1⟩]
    let bare := Job.new "test" "demo"
    ((Store.standard.acts asked).submit none bare).1 = .error ⟨1, "down"⟩ ∧
      ((Store.standard.acts (asked ++ [.submit none bare])).submit none bare).1 =
        .error ⟨4, "background scan requires a UDF"⟩ := by
  intro asked bare
  obtain ⟨hdelivers, -⟩ := delivers_last_armed 1 0 asked [] []
  obtain ⟨hafter, -⟩ := delivers_last_armed 1 0 (asked ++ [.submit none bare]) [] []
  have harmed : LastArmed .scanApply (.server "down") asked :=
    ⟨asked.take 1, asked.drop 2, rfl, by decide⟩
  have htaken : ∀ e, ¬ LastArmed .scanApply e (asked ++ [.submit none bare]) := by
    intro e he
    cases (hafter.held .scanApply e).mpr he
  exact ⟨congrArg Prod.fst (hdelivers.submitted _ harmed none bare),
    hafter.submittedUnarmed htaken none bare⟩

end BackgroundScan
