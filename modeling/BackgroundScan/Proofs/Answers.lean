import BackgroundScan.Proofs.Dispatch
import BackgroundScan.Proofs.Fleet

/-!
# What the answers of a session are made of

The answer to an action comes from the settings of the client, whether it is open, the
store and the input; the ledger and the journal have no part in it. And as far as
submissions go, an answer is what the store answered to the submissions that the action
asked for, in their order.

1. `answer_ledger`: a client gets the same answers whatever its ledger holds.
2. `Store.attempts`: what a store answers to the submissions among its primitive actions.
   `attempts_exchange` and `attempts_run`: that is what the answers show, after one action
   and along the history of a run.
-/

namespace BackgroundScan

/-! ## 1. What an answer depends on -/

namespace AnswerLemmas

open CallLemmas StoreActionLemmas

theorem scanApply_outcome_ledger (c : Client) (l : Ledger) (s : Store) (r : ScanRequest) :
    (Client.scanApply { c with ledger := l } s r).outcome = (c.scanApply s r).outcome := by
  rw [(scanApply_seen { c with ledger := l } s r).1, (scanApply_seen c s r).1]
  rfl

theorem scanInfo_outcome_ledger (c : Client) (l : Ledger) (s : Store) (id : JobId)
    (policy : Option Json) :
    (Client.scanInfo { c with ledger := l } s id policy).outcome =
      (c.scanInfo s id policy).outcome := by
  rw [(scanInfo_seen { c with ledger := l } s id policy).1, (scanInfo_seen c s id policy).1]
  rfl

/-- Reading a status asks the store for it, if there is a policy to ask with. -/
theorem readStatus_fst (s : Store) (baseline : InfoPolicy) (id : JobId) (policy : Option Json)
    (j : Journal) :
    (readStatus s baseline id policy j).1 =
      ((Policy.resolve baseline policy).mapError PolicyError.failure).bind
        fun prepared => (s.askForStatus id prepared).1 := by
  unfold readStatus
  rw [← preparePolicy_fst baseline policy j]
  rcases preparePolicy baseline policy j with ⟨f | prepared, j⟩
  · rfl
  · exact queryStatus_fst s prepared id j

theorem submitTimes_fst_journal (policy : Option ScanPolicy) (job : Job) (times : Nat)
    (s : Store) (j j' : Journal) :
    (Session.submitTimes policy job times s j).1 =
      (Session.submitTimes policy job times s j').1 := by
  induction times generalizing s j j' with
  | zero => rfl
  | succ times ih =>
    show (submitJob s policy job j).1 ::
        (Session.submitTimes policy job times (submitJob s policy job j).2.1 _).1 =
      (submitJob s policy job j').1 ::
        (Session.submitTimes policy job times (submitJob s policy job j').2.1 _).1
    rw [submitJob_fst, submitJob_fst, submitJob_store, submitJob_store]
    exact congrArg _ (ih _ _ _)

end AnswerLemmas

open AnswerLemmas

/-- A client gets the same answers whatever its ledger holds. -/
theorem answer_ledger (c : Client) (l : Ledger) (s : Store) (action : SessionAction) :
    (Client.exchange { c with ledger := l } s action).answer = (c.exchange s action).answer := by
  cases action with
  | scanApply request =>
    exact congrArg SessionAnswer.applied (scanApply_outcome_ledger c l s request)
  | scanApplyDecoded raw =>
    simp only [Client.exchange, Session.step]
    cases ScanRequest.decode raw with
    | error e => rfl
    | ok request =>
      exact congrArg SessionAnswer.applied (scanApply_outcome_ledger c l s request)
  | scanInfo id policy =>
    exact congrArg SessionAnswer.polled (scanInfo_outcome_ledger c l s id policy)
  | read id policy =>
    refine congrArg SessionAnswer.status ?_
    exact (readStatus_fst s _ id policy _).trans (readStatus_fst s _ id policy _).symm
  | prepare policy =>
    refine congrArg SessionAnswer.policy ?_
    exact (CallLemmas.preparePolicy_fst _ policy _).trans
      (CallLemmas.preparePolicy_fst _ policy _).symm
  | submit input times =>
    -- the job is the same, and the journals in which it is made and submitted do not matter
    show SessionAnswer.submitted (Session.submitTimes input.policy
        (Session.attachInput c.settings.limits _ _ input.udf).1 times s _).1 =
      .submitted (Session.submitTimes input.policy
        (Session.attachInput c.settings.limits _ _ input.udf).1 times s _).1
    rw [StoreActionLemmas.attachInput_fst, StoreActionLemmas.attachInput_fst]
    exact congrArg SessionAnswer.submitted (submitTimes_fst_journal _ _ times s _ _)
  | insertJob _ _ | setProgress _ _ _ _ | expireJob _ | hasUpdateTime _ | failNextSubmit _
  | failNextStatus _ | submissions | settings | close | newClient _ => rfl

/-! ## 2. What an answer shows of submissions -/

namespace Store

/-- What is answered to an action if it is a submission: an id, or none. -/
def attempt (s : Store) : StoreAction → List (Option JobId)
  | .submit policy job => [(s.submit policy job).1.toOption]
  | _ => []

/-- What is answered to the submissions among several actions, in their order. -/
def attempts (s : Store) : List StoreAction → List (Option JobId)
  | [] => []
  | action :: rest => s.attempt action ++ (s.act action).attempts rest

end Store

/-- The submissions that reached the store as far as an answer shows them, each with its
id if it was accepted. -/
def SessionAnswer.attempts : SessionAnswer → List (Option JobId)
  | .applied (.ok (.ok id)) => [some id]
  | .applied (.ok (.error report)) => if report.isClientSide then [] else [none]
  | .submitted outcomes => outcomes.map Except.toOption
  | _ => []

namespace AnswerLemmas

open CallLemmas DispatchLemmas StoreActionLemmas

theorem toOption_mapError {ε ε' α : Type} (f : ε → ε') (x : Except ε α) :
    (x.mapError f).toOption = x.toOption := by
  cases x <;> rfl

theorem attempts_append (s : Store) (before after : List StoreAction) :
    s.attempts (before ++ after) = s.attempts before ++ (s.acts before).attempts after := by
  induction before generalizing s with
  | nil => rfl
  | cons action rest ih =>
    rw [List.cons_append, Store.attempts, Store.attempts, ih, List.append_assoc]
    rfl

theorem length_attempts (s : Store) (asked : List StoreAction) :
    (s.attempts asked).length = asked.countP StoreAction.isSubmit := by
  induction asked generalizing s with
  | nil => rfl
  | cons action rest ih =>
    have hfirst : (s.attempt action).length = if action.isSubmit then 1 else 0 := by
      cases action <;> rfl
    rw [Store.attempts, List.length_append, List.countP_cons, ih, hfirst, Nat.add_comm]

theorem attempts_of_not_submit (s : Store) {asked : List StoreAction}
    (h : ∀ action ∈ asked, ¬ action.isSubmit = true) : s.attempts asked = [] := by
  rw [← List.length_eq_zero_iff, length_attempts]
  exact List.countP_eq_zero.mpr h

theorem attempts_dispatch (s : Store) {prepared : Except Failure Job}
    (hbefore : ∀ f, prepared = .error f → f.kind.isClientSide = true) :
    (SessionAnswer.applied (.ok (dispatch s prepared s.askToSubmit).1)).attempts =
      s.attempts (askFor (fun job => .submit job.policy job) prepared) := by
  cases prepared with
  | error f => exact if_pos (hbefore f rfl)
  | ok job =>
    simp only [dispatch, Store.askToSubmit, askFor, Store.attempts, Store.attempt]
    cases (s.submit job.policy job).1 with
    | ok id => rfl
    | error e =>
      have hside : e.failure.report.isClientSide = false := storeError_not_clientSide e
      exact if_neg (by rw [hside]; exact Bool.false_ne_true)

theorem attempts_scanApply (c : Client) (s : Store) (r : ScanRequest) :
    (SessionAnswer.applied (c.scanApply s r).outcome).attempts =
      s.attempts (c.asksToSubmit r) := by
  rw [(scanApply_seen c s r).1]
  exact attempts_dispatch s fun f => preparedJob_clientSide

theorem attempts_submitTimes (policy : Option ScanPolicy) (job : Job) (times : Nat) (s : Store)
    (j : Journal) :
    (Session.submitTimes policy job times s j).1.map Except.toOption =
      s.attempts (List.replicate times (.submit policy job)) := by
  induction times generalizing s j with
  | zero => rfl
  | succ times ih =>
    rw [Session.submitTimes, List.replicate_succ, Store.attempts]
    show (submitJob s policy job j).1.toOption ::
      (Session.submitTimes policy job times (submitJob s policy job j).2.1 _).1.map
        Except.toOption = _
    rw [ih, submitJob_fst, submitJob_store, toOption_mapError]
    rfl

end AnswerLemmas

/-- An answer shows what the store answered to the submissions it was asked for. -/
theorem attempts_exchange (c : Client) (s : Store) (action : SessionAction) :
    (c.exchange s action).answer.attempts = s.attempts (c.asks action) := by
  cases action with
  | scanApply request => exact attempts_scanApply c s request
  | scanApplyDecoded raw =>
    simp only [Client.exchange, Session.step, Client.asks]
    cases ScanRequest.decode raw with
    | error e => rfl
    | ok request => exact attempts_scanApply c s request
  | submit input times =>
    rw [Client.asks, ← StoreActionLemmas.attachInput_fst _ _ (c.sessionAt s).journal.openJob]
    exact attempts_submitTimes input.policy _ times s _
  -- the others ask for no submission
  | scanInfo id policy =>
    exact (attempts_of_not_submit s fun asked hm =>
      (DispatchLemmas.asks_scanInfo c id policy asked hm).2).symm
  | read id policy =>
    exact (attempts_of_not_submit s (DispatchLemmas.forall_mem_askFor
      (fun _ => Bool.false_ne_true) _)).symm
  | prepare _ | insertJob _ _ | setProgress _ _ _ _ | expireJob _ | hasUpdateTime _
  | failNextSubmit _ | failNextStatus _ | submissions | settings | close | newClient _ => rfl

/-- Along a run the answers show what the store answered to all the submissions. -/
theorem attempts_run (f : Fleet) (actions : List FleetAction) :
    (f.run actions).1.flatMap (fun e => e.answer.attempts) =
      f.store.attempts ((f.run actions).1.flatMap Exchange.asked) := by
  induction actions generalizing f with
  | nil => rfl
  | cons action rest ih =>
    -- the first step, to which the run of the rest is added
    have hfirst : (f.step action).1.flatMap (fun e => e.answer.attempts) =
        f.store.attempts ((f.step action).1.flatMap Exchange.asked) ∧
        (f.step action).2.store = f.store.acts ((f.step action).1.flatMap Exchange.asked) := by
      cases action with
      | join settings => exact ⟨rfl, rfl⟩
      | act place action =>
        simp only [Fleet.step]
        cases f.clients[place]? with
        | none => exact ⟨rfl, rfl⟩
        | some c =>
          simp only [List.flatMap_cons, List.flatMap_nil, List.append_nil]
          exact ⟨attempts_exchange c f.store action, step_store (c.sessionAt f.store) action⟩
    rw [run_cons, List.flatMap_append, List.flatMap_append, AnswerLemmas.attempts_append,
      hfirst.1, ih, hfirst.2]

end BackgroundScan
