import BackgroundScan.Proofs.Answers
import BackgroundScan.Proofs.FirstFailure
import BackgroundScan.Proofs.Leases

/-!
# Failed calls can be erased

An action that fails on the client's side asks nothing of the store, so the store is as
it was. All that the action leaves is the ledger of its client, turned over by what the
action took; and no answer depends on a ledger. So the run from which the action is
erased is the same run, but for that ledger.

1. `onClientSide_dispatch`: a call fails on the client's side exactly when it asks for
   nothing. `asks_of_clientSide`: no action that fails so asks for anything.
2. `isClientSide_scanApply` and `isClientSide_scanInfo`: the calls that do so are those
   that one of the client's checks refuses.
3. `step_turnOver` and `run_turnOver`: fleets that differ in the ledger of one client go
   on in the same way, and differ in it until that client is renewed.
4. `submit_failed`: what a submission leaves that fails in the store.
5. `erases_failed_calls`: the runs with and without the action.
-/

namespace BackgroundScan

/-! ## 1. Nothing is asked -/

/-- Whether a call failed before the store was asked. -/
def onClientSide {α : Type} : Except Report α → Bool
  | .ok _ => false
  | .error report => report.isClientSide

/-- Whether an answer is that of a failure on the client's side. -/
def SessionAnswer.isClientSide : SessionAnswer → Bool
  | .applied (.ok result) => onClientSide result
  | .polled (.ok result) => onClientSide result
  | .status result => onClientSide (result.mapError Failure.report)
  | .policy result => onClientSide (result.mapError Failure.report)
  | .undecodable _ => true
  | _ => false

namespace ErasureLemmas

open CallLemmas

theorem onClientSide_dispatch {α β : Type} {s : Store} {prepared : Except Failure α}
    {ask : α → Except Failure β × Store} (action : α → StoreAction)
    (hbefore : ∀ f, prepared = .error f → f.kind.isClientSide = true)
    (hafter : ∀ a f, (ask a).1 = .error f → f.kind.isClientSide = false) :
    onClientSide (dispatch s prepared ask).1 = (askFor action prepared).isEmpty := by
  cases prepared with
  | error f => exact hbefore f rfl
  | ok a =>
    show onClientSide ((ask a).1.mapError Failure.report) = false
    cases hask : (ask a).1 with
    | ok value => rfl
    | error f => exact hafter a f hask

theorem isClientSide_applied (c : Client) (s : Store) (r : ScanRequest) :
    (SessionAnswer.applied (c.scanApply s r).outcome).isClientSide =
      (c.asksToSubmit r).isEmpty := by
  rw [(scanApply_seen c s r).1]
  exact onClientSide_dispatch _ (fun _ => preparedJob_clientSide)
    fun _ _ => askToSubmit_not_clientSide

theorem isClientSide_polled (c : Client) (s : Store) (id : JobId) (policy : Option Json) :
    (SessionAnswer.polled (c.scanInfo s id policy).outcome).isClientSide =
      (c.asks (.scanInfo id policy)).isEmpty := by
  rw [(scanInfo_seen c s id policy).1]
  exact onClientSide_dispatch _ (fun _ => preparedQuery_clientSide)
    fun _ _ => askForStatus_not_clientSide

theorem dispatch_fst {α β : Type} (s : Store) (prepared : Except Failure α)
    (ask : α → Except Failure β × Store) :
    (dispatch s prepared ask).1 =
      (prepared.bind fun a => (ask a).1).mapError Failure.report := by
  cases prepared <;> rfl

theorem isClientSide_status (s : Store) (baseline : InfoPolicy) (id : JobId)
    (policy : Option Json) (j : Journal) :
    (SessionAnswer.status (readStatus s baseline id policy j).1).isClientSide =
      (askFor (.query · id)
        ((Policy.resolve baseline policy).mapError PolicyError.failure)).isEmpty := by
  rw [SessionAnswer.isClientSide, AnswerLemmas.readStatus_fst, ← dispatch_fst s]
  refine onClientSide_dispatch _ ?_ fun _ _ => askForStatus_not_clientSide
  intro f hf
  obtain ⟨e, -, rfl⟩ := mapError_eq_error_iff.mp hf
  rfl

end ErasureLemmas

open ErasureLemmas

/-- An action that fails on the client's side asks for nothing. -/
theorem asks_of_clientSide {c : Client} {s : Store} {action : SessionAction}
    (h : (c.exchange s action).answer.isClientSide = true) : c.asks action = [] := by
  cases action with
  | scanApply request =>
    exact List.isEmpty_iff.mp ((isClientSide_applied c s request).symm.trans h)
  | scanApplyDecoded raw =>
    simp only [Client.exchange, Session.step] at h
    simp only [Client.asks]
    cases hraw : ScanRequest.decode raw with
    | error e => rfl
    | ok request =>
      rw [hraw] at h
      exact List.isEmpty_iff.mp ((isClientSide_applied c s request).symm.trans h)
  | scanInfo id policy =>
    exact List.isEmpty_iff.mp ((isClientSide_polled c s id policy).symm.trans h)
  | read id policy =>
    exact List.isEmpty_iff.mp ((isClientSide_status s _ id policy _).symm.trans h)
  | prepare _ => rfl
  | submit _ _ | insertJob _ _ | setProgress _ _ _ _ | expireJob _ | hasUpdateTime _
  | failNextSubmit _ | failNextStatus _ | submissions | settings | close | newClient _ => cases h

/-! ## 2. Which calls fail so -/

namespace ErasureLemmas

theorem isEmpty_askFor {α : Type} (action : α → StoreAction) (prepared : Except Failure α)
    {first : Option Failure}
    (h : match first with
      | some f => prepared = .error f
      | none => ∃ a, prepared = .ok a) :
    (askFor action prepared).isEmpty = first.isSome := by
  cases first with
  | some f =>
    rw [h]
    rfl
  | none =>
    obtain ⟨a, ha⟩ := h
    rw [ha]
    rfl

end ErasureLemmas

/-- A submission fails on the client's side exactly when a check of the client fails. -/
theorem isClientSide_scanApply (c : Client) (s : Store) (r : ScanRequest) :
    (c.exchange s (.scanApply r)).answer.isClientSide =
      (SubmissionCheck.ofClient.findSome? (SubmissionCheck.verdict c s r)).isSome := by
  refine (isClientSide_applied c s r).trans (isEmpty_askFor _ _ ?_)
  have hclient := preparedJob_checked c s r
  cases hfirst : SubmissionCheck.ofClient.findSome? (SubmissionCheck.verdict c s r) with
  | some f =>
    rw [hfirst] at hclient
    exact hclient
  | none =>
    rw [hfirst] at hclient
    obtain ⟨job, -, hjob, -⟩ := hclient
    exact ⟨job, hjob⟩

/-- The same for a status query. -/
theorem isClientSide_scanInfo (c : Client) (s : Store) (id : JobId) (policy : Option Json) :
    (c.exchange s (.scanInfo id policy)).answer.isClientSide =
      (StatusCheck.ofClient.findSome? (StatusCheck.verdict c s id policy)).isSome :=
  (isClientSide_polled c s id policy).trans
    (isEmpty_askFor _ _ (preparedQuery_checked c s id policy))

/-! ## 3. Fleets that differ in one ledger -/

/-- Whether an action puts a new client in place of the client. -/
def SessionAction.renews : SessionAction → Bool
  | newClient _ => true
  | _ => false

/-- Whether a step puts a new client at that place. -/
def FleetAction.renews (place : Nat) : FleetAction → Bool
  | join _ => false
  | act acting action => acting == place && action.renews

/-- What an action was and how it was answered. -/
def Exchange.seen (e : Exchange) : SessionAction × SessionAnswer := (e.action, e.answer)

/-- The fleet in which the ledger of the client at a place is turned over. -/
def Fleet.turnOver (f : Fleet) (place n : Nat) : Fleet :=
  { f with clients := f.clients.modify place (·.turnOver n) }

namespace ErasureLemmas

theorem turnOver_comm (c : Client) (m n : Nat) :
    (c.turnOver m).turnOver n = (c.turnOver n).turnOver m := by
  unfold Client.turnOver Ledger.turnOver
  rw [Nat.add_right_comm c.ledger.acquired, Nat.add_right_comm c.ledger.released]

theorem after_turnOver (c : Client) (n : Nat) (action : SessionAction) :
    (c.turnOver n).after action = (c.after action).turnOver (if action.renews then 0 else n) := by
  cases action with
  | close | newClient _ => rfl
  | _ => exact turnOver_comm c n _

theorem set_modify_self {α : Type} (l : List α) (i : Nat) (g h : α → α) (a : α) :
    (l.modify i g).set i (h a) = (l.set i a).modify i h := by
  apply List.ext_getElem?
  intro k
  by_cases hk : i = k
  · subst hk
    simp only [List.getElem?_modify_eq, List.getElem?_set_self', Option.map_eq_map,
      Option.map_map]
    rfl
  · rw [List.getElem?_set_ne hk, List.getElem?_modify_ne _ _ hk, List.getElem?_modify_ne _ _ hk,
      List.getElem?_set_ne hk]

theorem set_modify_ne {α : Type} (l : List α) {i place : Nat} (h : place ≠ i) (g : α → α)
    (a : α) : (l.modify place g).set i a = (l.set i a).modify place g := by
  apply List.ext_getElem?
  intro k
  simp only [List.getElem?_modify, List.getElem?_set, List.length_modify]
  by_cases hk : i = k
  · subst hk
    simp [h]
  · simp [hk]

theorem modify_append {α : Type} {l : List α} {place : Nat} (h : place < l.length)
    (g : α → α) (a : α) : l.modify place g ++ [a] = (l ++ [a]).modify place g := by
  induction l generalizing place with
  | nil => cases h
  | cons b rest ih =>
    cases place with
    | zero => rfl
    | succ place => exact congrArg (b :: ·) (ih (Nat.lt_of_succ_lt_succ h))

theorem length_step (f : Fleet) (action : FleetAction) :
    f.clients.length ≤ (f.step action).2.clients.length := by
  cases action with
  | join settings =>
    rw [Fleet.step, List.length_append]
    exact Nat.le_add_right ..
  | act place action =>
    simp only [Fleet.step]
    cases f.clients[place]? with
    | none => exact Nat.le_refl _
    | some c => exact Nat.le_of_eq (List.length_set ..).symm

end ErasureLemmas

theorem step_idle {f : Fleet} {place : Nat} (h : f.clients[place]? = none)
    (action : SessionAction) : f.step (.act place action) = ([], f) := by
  simp only [Fleet.step, h]

/-- A client that acts is after it as `after` says, and the store is asked. -/
theorem step_act {f : Fleet} {place : Nat} {c : Client} (h : f.clients[place]? = some c)
    (action : SessionAction) :
    f.step (.act place action) =
      ([c.exchange f.store action],
        ⟨f.clients.set place (c.after action), f.store.acts (c.asks action)⟩) := by
  simp only [Fleet.step, h, step_client, step_store]
  rfl

/-- A step is seen in the same way, whatever one of the ledgers holds. -/
theorem step_turnOver {f : Fleet} {place : Nat} (hplace : place < f.clients.length) (n : Nat)
    (action : FleetAction) :
    ((f.turnOver place n).step action).1.map Exchange.seen =
        (f.step action).1.map Exchange.seen ∧
      ((f.turnOver place n).step action).2 =
        (f.step action).2.turnOver place (if action.renews place then 0 else n) := by
  cases action with
  | join settings => exact ⟨rfl, congrArg (Fleet.mk · f.store) (modify_append hplace _ _)⟩
  | act acting action =>
    by_cases hacts : place = acting
    · -- the client whose ledger is another one acts
      subst hacts
      have hc : f.clients[place]? = some f.clients[place] := List.getElem?_eq_getElem hplace
      generalize f.clients[place] = c at hc
      have hturned : (f.turnOver place n).clients[place]? = some (c.turnOver n) := by
        rw [Fleet.turnOver, List.getElem?_modify_eq, hc]
        rfl
      rw [step_act hc, step_act hturned, after_turnOver]
      refine ⟨congrArg (fun answer => [(action, answer)]) (answer_ledger c _ f.store action), ?_⟩
      have hrenews : (FleetAction.act place action).renews place = action.renews := by
        rw [FleetAction.renews, beq_self_eq_true, Bool.true_and]
      rw [hrenews]
      exact congrArg (Fleet.mk · (f.store.acts (c.asks action)))
        (set_modify_self f.clients place (·.turnOver n)
          (·.turnOver (if action.renews then 0 else n)) (c.after action))
    · have hother : (f.turnOver place n).clients[acting]? = f.clients[acting]? :=
        List.getElem?_modify_ne _ _ hacts
      have hrenews : (FleetAction.act acting action).renews place = false := by
        rw [FleetAction.renews, beq_eq_false_iff_ne.mpr (Ne.symm hacts), Bool.false_and]
      rw [hrenews]
      cases hc : f.clients[acting]? with
      | none =>
        rw [hc] at hother
        rw [step_idle hc, step_idle hother]
        exact ⟨rfl, rfl⟩
      | some c =>
        rw [hc] at hother
        rw [step_act hc, step_act hother]
        exact ⟨rfl, congrArg (Fleet.mk · (f.store.acts (c.asks action)))
          (set_modify_ne f.clients hacts _ (c.after action))⟩

/-- And so is a run; the ledgers differ until the client is renewed. -/
theorem run_turnOver {f : Fleet} {place : Nat} (hplace : place < f.clients.length) (n : Nat)
    (actions : List FleetAction) :
    ((f.turnOver place n).run actions).1.map Exchange.seen =
        (f.run actions).1.map Exchange.seen ∧
      ((f.turnOver place n).run actions).2 =
        (f.run actions).2.turnOver place
          (if actions.any (FleetAction.renews place) then 0 else n) := by
  induction actions generalizing f n with
  | nil => exact ⟨rfl, rfl⟩
  | cons action rest ih =>
    obtain ⟨hseen, hstep⟩ := step_turnOver hplace n action
    obtain ⟨hseenRest, hrest⟩ := ih (Nat.lt_of_lt_of_le hplace (length_step f action))
      (if action.renews place then 0 else n)
    rw [run_cons, run_cons, hstep, List.map_append, List.map_append, hseen, hseenRest, hrest,
      List.any_cons]
    refine ⟨rfl, ?_⟩
    cases action.renews place with
    | false => rfl
    | true =>
      rw [Bool.true_or, if_pos rfl, ite_self]

/-! ## 4. Failures in the store -/

/-- A submission fails in the store if an error is armed or the job has no function. Then
it counts, and consumes what was armed; the rest of the store is as it was. -/
theorem submit_failed (s : Store) (policy : Option ScanPolicy) (job : Job) :
    ((∃ e, (s.submit policy job).1 = .error e) ↔ s.submitFailure ≠ none ∨ job.udf = none) ∧
      ((∃ e, (s.submit policy job).1 = .error e) →
        (s.submit policy job).2 =
          { s with submitCalls := s.submitCalls + 1, submitFailure := none }) := by
  rcases s.submit_cases policy job with
    ⟨e, harmed, h⟩ | ⟨hunarmed, hudf, h⟩ | ⟨udf, hunarmed, hudf, h⟩ <;> rw [h]
  · have hleft : s.submitFailure ≠ none := by
      rw [harmed]
      exact Option.some_ne_none e
    exact ⟨⟨fun _ => .inl hleft, fun _ => ⟨e, rfl⟩⟩, fun _ => rfl⟩
  · exact ⟨⟨fun _ => .inr hudf, fun _ => ⟨_, rfl⟩⟩, fun _ => by rw [← hunarmed]⟩
  · have hnot : ¬ ∃ e, (.ok s.nextJobId : Except StoreError JobId) = .error e := by
      rintro ⟨e, he⟩
      cases he
    refine ⟨⟨fun hfails => absurd hfails hnot, ?_⟩, fun hfails => absurd hfails hnot⟩
    rintro (harmed | hnone)
    · exact absurd hunarmed harmed
    · rw [hudf] at hnone
      cases hnone

/-- What a request leaves in the store that failed there. -/
theorem scanApply_failed {c : Client} {s : Store} {r : ScanRequest} {report : Report}
    (h : (c.scanApply s r).outcome = .ok (.error report))
    (hside : report.isClientSide = false) :
    s.submitFailure ≠ none ∧
      (c.scanApply s r).store =
        { s with submitCalls := s.submitCalls + 1, submitFailure := none } := by
  rw [(scanApply_seen c s r).1] at h
  rw [(scanApply_seen c s r).2]
  cases hjob : c.preparedJob r with
  | error f =>
    rw [hjob] at h
    obtain rfl := Except.error.inj (Except.ok.inj h)
    rw [Failure.report, Report.isClientSide, preparedJob_clientSide hjob] at hside
    cases hside
  | ok job =>
    rw [hjob] at h
    obtain ⟨f, hf, -⟩ := mapError_eq_error_iff.mp (Except.ok.inj h)
    obtain ⟨e, he, -⟩ := mapError_eq_error_iff.mp hf
    obtain ⟨hfails, hstore⟩ := submit_failed s job.policy job
    refine ⟨?_, hstore ⟨e, he⟩⟩
    obtain ⟨policy, options, args, -, -, -, rfl⟩ := preparedJob_eq_ok hjob
    exact (hfails.mp ⟨e, he⟩).resolve_right nofun

/-! ## 5. With and without the action -/

namespace ErasureLemmas

/-- An action that fails on the client's side was none that replaces or closes the client. -/
theorem after_of_clientSide {c : Client} {s : Store} {action : SessionAction}
    (h : (c.exchange s action).answer.isClientSide = true) :
    c.after action = c.turnOver (c.leases action) := by
  cases action with
  | close | newClient _ => cases h
  | _ => rfl

theorem set_eq_modify {α : Type} {l : List α} {i : Nat} {a : α} (h : l[i]? = some a)
    (g : α → α) : l.set i (g a) = l.modify i g := by
  obtain ⟨hi, rfl⟩ := List.getElem?_eq_some_iff.mp h
  have hset := set_modify_self l i id g l[i]
  rwa [List.modify_id, List.set_getElem_self] at hset

/-- All that an action leaves which fails on the client's side. -/
theorem step_of_clientSide {f : Fleet} {place : Nat} {c : Client}
    (hplace : f.clients[place]? = some c) {action : SessionAction}
    (h : (c.exchange f.store action).answer.isClientSide = true) :
    f.step (.act place action) =
      ([c.exchange f.store action], f.turnOver place (c.leases action)) := by
  rw [step_act hplace, asks_of_clientSide h, after_of_clientSide h,
    set_eq_modify hplace (·.turnOver (c.leases action))]
  rfl

end ErasureLemmas

/-- A failed call is erasable. If an action fails on the client's side, the store is as it
was; in the run without the action all others get the same answers, and the run ends
with the same store and the same clients, but for the ledger of the one that acted, turned
over by what the action took. The calls that fail so are those that a check of the client
refuses. A submission that fails in the store only counts, and consumes the armed error. -/
theorem erases_failed_calls (f : Fleet) (before after : List FleetAction) (place : Nat)
    (c : Client) (action : SessionAction) (s : Store) (r : ScanRequest) (id : JobId)
    (given : Option Json) (policy : Option ScanPolicy) (job : Job) :
    (let reached := (f.run before).2
      let exchange := c.exchange reached.store action
      reached.clients[place]? = some c → exchange.answer.isClientSide = true →
        let kept := f.run (before ++ .act place action :: after)
        let erased := f.run (before ++ after)
        (reached.step (.act place action)).2.store = reached.store ∧
          erased.1.map Exchange.seen =
            (f.run before).1.map Exchange.seen ++ (reached.run after).1.map Exchange.seen ∧
          kept.1.map Exchange.seen =
            (f.run before).1.map Exchange.seen ++
              exchange.seen :: (reached.run after).1.map Exchange.seen ∧
          kept.2 = erased.2.turnOver place
            (if after.any (FleetAction.renews place) then 0 else c.leases action)) ∧
      (c.exchange s (.scanApply r)).answer.isClientSide =
        (SubmissionCheck.ofClient.findSome? (SubmissionCheck.verdict c s r)).isSome ∧
      (c.exchange s (.scanInfo id given)).answer.isClientSide =
        (StatusCheck.ofClient.findSome? (StatusCheck.verdict c s id given)).isSome ∧
      ((∃ e, (s.submit policy job).1 = .error e) ↔ s.submitFailure ≠ none ∨ job.udf = none) ∧
      ((∃ e, (s.submit policy job).1 = .error e) →
        (s.submit policy job).2 =
          { s with submitCalls := s.submitCalls + 1, submitFailure := none }) ∧
      ∀ report, (c.scanApply s r).outcome = .ok (.error report) → report.isClientSide = false →
        s.submitFailure ≠ none ∧
          (c.scanApply s r).store =
            { s with submitCalls := s.submitCalls + 1, submitFailure := none } := by
  obtain ⟨hfails, hstore⟩ := submit_failed s policy job
  refine ⟨?_, isClientSide_scanApply c s r, isClientSide_scanInfo c s id given, hfails, hstore,
    fun _ => scanApply_failed⟩
  intro reached exchange hplace hside kept erased
  have hstep : reached.step (.act place action) =
      ([exchange], reached.turnOver place (c.leases action)) := step_of_clientSide hplace hside
  obtain ⟨hlt, -⟩ := List.getElem?_eq_some_iff.mp hplace
  obtain ⟨hseen, hend⟩ := run_turnOver hlt (c.leases action) after
  have herased : erased = _ := run_append f before after
  have hkept : kept = _ := run_append f before (.act place action :: after)
  rw [run_cons, hstep] at hkept
  rw [hkept, herased, hstep]
  refine ⟨rfl, List.map_append .., ?_, hend⟩
  rw [List.map_append, List.singleton_append, List.map_cons, hseen]

/-- A request is refused for its options while an error is armed for the next submission.
Without it the next request still consumes that error, and is the only one that counts;
but the client has taken one lease less. -/
theorem erases_failed_calls_refused_options :
    let r : ScanRequest := ⟨"test", "demo", "geo", "move", .array [.null], none, none⟩
    let refused : SessionAction := .scanApply { r with options := some (.array []) }
    let f : Fleet := ⟨[.new .standard], .standard⟩
    let before : List FleetAction :=
      [.act 0 (.insertJob 7 ⟨55, 1000, 1⟩), .act 0 (.failNextSubmit (.timeout "late"))]
    let after : List FleetAction := [.act 0 (.scanApply r), .act 0 (.scanInfo 7 none)]
    let kept := f.run (before ++ .act 0 refused :: after)
    let erased := f.run (before ++ after)
    (∃ earlier later, erased.1.map Exchange.seen = earlier ++ later ∧
        kept.1.map Exchange.seen = earlier ++
          (refused, .applied (.ok (.error ⟨.validation, -2, "scan options should be an object"⟩)))
            :: later) ∧
      kept.2.store = erased.2.store ∧ kept.2.store.submitCalls = 1 ∧
      kept.2.store.submitFailure = none ∧
      kept.2.clients.map Client.ledger = [⟨3, 3⟩] ∧
      erased.2.clients.map Client.ledger = [⟨2, 2⟩] := by
  intro r refused f before after kept erased
  obtain ⟨herase, -⟩ := erases_failed_calls f before after 0 (.new .standard) refused .standard r 7
    none none (.new "test" "demo")
  obtain ⟨-, herased, hkept, hend⟩ := herase rfl rfl
  have hstore : kept.2.store = erased.2.store := by
    rw [hend, Fleet.turnOver]
  refine ⟨⟨_, _, herased, hkept⟩, hstore, ?_⟩
  decide +kernel

end BackgroundScan
