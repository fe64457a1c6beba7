import BackgroundScan.Number.WordCount
import BackgroundScan.Proofs.StoreActions

/-!
# Failures of the client's side never reach the store

A report says by its kind whether its failure is of the client's side. The kinds of the
store and of the client never meet, though their numeric codes may: whatever code a
store answers with, its error is not of the client's side, and neither is a status code
that cannot be moved by the offset, which is found after the store was asked.

1. `preparedJob_clientSide` and `preparedQuery_clientSide`: what the client refuses
   before it asks is of its side.
2. `askToSubmit_not_clientSide` and `askForStatus_not_clientSide`: what it finds
   afterwards is not.
3. `asks_unless_client_side`: a call asks the store once, or not at all when its
   failure is of the client's side, and the store counts it so, also in words.
-/

namespace BackgroundScan

/-! ## 1. Before the store is asked -/

theorem preparedJob_clientSide {c : Client} {r : ScanRequest} {f : Failure}
    (h : c.preparedJob r = .error f) : f.kind.isClientSide = true := by
  unfold Client.preparedJob at h
  cases hend : r.buildEnd c.settings c.isOpen with
  | built job =>
    rw [hend] at h
    cases h
  | refused e | policyRefused e | optionsRefused e | argumentsRefused e | notAttached =>
    rw [hend] at h
    obtain rfl := Except.error.inj h
    rfl

theorem preparedQuery_clientSide {c : Client} {policy : Option Json} {f : Failure}
    (h : c.preparedQuery policy = .error f) : f.kind.isClientSide = true := by
  unfold Client.preparedQuery at h
  cases hopen : c.isOpen with
  | false =>
    rw [hopen] at h
    obtain rfl := Except.error.inj h
    rfl
  | true =>
    rw [hopen, if_pos rfl] at h
    obtain ⟨e, -, rfl⟩ := mapError_eq_error_iff.mp h
    rfl

/-! ## 2. After the store was asked -/

namespace DispatchLemmas

theorem storeError_not_clientSide (e : StoreError) : e.failure.kind.isClientSide = false := by
  unfold StoreError.failure
  by_cases hcode : e.code = 4
  · simp only [if_pos hcode]
    rfl
  · simp only [if_neg hcode]
    rfl

end DispatchLemmas

open DispatchLemmas

theorem askToSubmit_not_clientSide {s : Store} {job : Job} {f : Failure}
    (h : (s.askToSubmit job).1 = .error f) : f.kind.isClientSide = false := by
  obtain ⟨e, -, rfl⟩ := mapError_eq_error_iff.mp h
  exact storeError_not_clientSide e

theorem askForStatus_not_clientSide {s : Store} {id : JobId} {policy : Option InfoPolicy}
    {f : Failure} (h : (s.askForStatus id policy).1 = .error f) :
    f.kind.isClientSide = false := by
  unfold Store.askForStatus at h
  dsimp only at h
  cases hquery : (s.query policy id).1 with
  | error e =>
    rw [hquery] at h
    obtain rfl := Except.error.inj h
    exact storeError_not_clientSide e
  | ok info =>
    rw [hquery] at h
    dsimp only at h
    -- found after the store was asked, though the store itself saw no error
    obtain ⟨e, -, rfl⟩ := mapError_eq_error_iff.mp h
    rfl

/-! ## 3. One question for each call -/

/-- How often a call with this result asks the store: once, but not for a failure of the
client's side. -/
def timesAsked {α : Type} : Except Report α → Nat
  | .ok _ => 1
  | .error report => if report.isClientSide then 0 else 1

namespace DispatchLemmas

/-- If the client's own failures are of its side and the others are not, the store is
asked as often as the result says. -/
theorem length_askFor {α β : Type} {s : Store} {prepared : Except Failure α}
    {ask : α → Except Failure β × Store} (action : α → StoreAction)
    (hbefore : ∀ f, prepared = .error f → f.kind.isClientSide = true)
    (hafter : ∀ a f, (ask a).1 = .error f → f.kind.isClientSide = false) :
    (askFor action prepared).length = timesAsked (dispatch s prepared ask).1 := by
  cases prepared with
  | error f => exact (if_pos (hbefore f rfl)).symm
  | ok a =>
    show 1 = timesAsked ((ask a).1.mapError Failure.report)
    cases hask : (ask a).1 with
    | ok value => rfl
    | error f =>
      have hside : f.report.isClientSide = false := hafter a f hask
      exact (if_neg (by rw [hside]; exact Bool.false_ne_true)).symm

theorem forall_mem_askFor {α : Type} {action : α → StoreAction} {P : StoreAction → Prop}
    (h : ∀ a, P (action a)) (prepared : Except Failure α) :
    ∀ asked ∈ askFor action prepared, P asked := by
  cases prepared with
  | error f => exact fun asked hm => absurd hm List.not_mem_nil
  | ok a => exact List.forall_mem_singleton.mpr (h a)

/-- Submitting a request is no status query. -/
theorem asks_scanApply (c : Client) (r : ScanRequest) :
    ∀ asked ∈ c.asks (.scanApply r), asked.isSubmit = true ∧ ¬ asked.isQuery = true :=
  forall_mem_askFor (fun _ => ⟨rfl, Bool.false_ne_true⟩) _

/-- Asking for a status is no submission. -/
theorem asks_scanInfo (c : Client) (id : JobId) (policy : Option Json) :
    ∀ asked ∈ c.asks (.scanInfo id policy), asked.isQuery = true ∧ ¬ asked.isSubmit = true :=
  forall_mem_askFor (fun _ => ⟨rfl, Bool.false_ne_true⟩) _

end DispatchLemmas

/-- Every call has a result. It asks the store once, or not at all when the result is a
failure of the client's side; the store is left as it is after what was asked, and has
counted that in the one counter and left the other alone. The words that show the
counters do the same, as far as a word can count. -/
theorem asks_unless_client_side (s : Session) (r : ScanRequest) (id : JobId)
    (policy : Option Json) :
    (∃ result, (s.step (.scanApply r)).1 = .applied (.ok result) ∧
        (s.client.asks (.scanApply r)).length = timesAsked result ∧
        (s.step (.scanApply r)).2.store = s.store.acts (s.client.asks (.scanApply r)) ∧
        (s.step (.scanApply r)).2.store.submitCalls =
          s.store.submitCalls + timesAsked result ∧
        (s.step (.scanApply r)).2.store.statusCalls = s.store.statusCalls ∧
        WordGrows (timesAsked result) s.store.submitCalls
          (s.step (.scanApply r)).2.store.submitCalls ∧
        WordGrows 0 s.store.statusCalls (s.step (.scanApply r)).2.store.statusCalls) ∧
      ∃ result, (s.step (.scanInfo id policy)).1 = .polled (.ok result) ∧
        (s.client.asks (.scanInfo id policy)).length = timesAsked result ∧
        (s.step (.scanInfo id policy)).2.store =
          s.store.acts (s.client.asks (.scanInfo id policy)) ∧
        (s.step (.scanInfo id policy)).2.store.statusCalls =
          s.store.statusCalls + timesAsked result ∧
        (s.step (.scanInfo id policy)).2.store.submitCalls = s.store.submitCalls ∧
        WordGrows (timesAsked result) s.store.statusCalls
          (s.step (.scanInfo id policy)).2.store.statusCalls ∧
        WordGrows 0 s.store.submitCalls (s.step (.scanInfo id policy)).2.store.submitCalls := by
  constructor
  · have hlength : (s.client.asks (.scanApply r)).length =
        timesAsked (dispatch s.store (s.client.preparedJob r) s.store.askToSubmit).1 :=
      length_askFor _ (fun _ => preparedJob_clientSide) fun _ _ => askToSubmit_not_clientSide
    have hstore := step_store s (.scanApply r)
    have hsubmit : (s.step (.scanApply r)).2.store.submitCalls = s.store.submitCalls + timesAsked
        (dispatch s.store (s.client.preparedJob r) s.store.askToSubmit).1 := by
      rw [hstore, submitCalls_acts, ← hlength,
        List.countP_eq_length.mpr fun asked hm => (asks_scanApply s.client r asked hm).1]
    have hstatus : (s.step (.scanApply r)).2.store.statusCalls = s.store.statusCalls := by
      rw [hstore, statusCalls_acts,
        List.countP_eq_zero.mpr fun asked hm => (asks_scanApply s.client r asked hm).2]
      rfl
    exact ⟨_, congrArg SessionAnswer.applied (scanApply_seen s.client s.store r).1, hlength,
      hstore, hsubmit, hstatus, wordGrows hsubmit, wordGrows hstatus⟩
  · have hlength : (s.client.asks (.scanInfo id policy)).length = timesAsked
        (dispatch s.store (s.client.preparedQuery policy) (s.store.askForStatus id)).1 :=
      length_askFor _ (fun _ => preparedQuery_clientSide) fun _ _ => askForStatus_not_clientSide
    have hstore := step_store s (.scanInfo id policy)
    have hstatus : (s.step (.scanInfo id policy)).2.store.statusCalls =
        s.store.statusCalls + timesAsked
          (dispatch s.store (s.client.preparedQuery policy) (s.store.askForStatus id)).1 := by
      rw [hstore, statusCalls_acts, ← hlength,
        List.countP_eq_length.mpr fun asked hm => (asks_scanInfo s.client id policy asked hm).1]
    have hsubmit : (s.step (.scanInfo id policy)).2.store.submitCalls = s.store.submitCalls := by
      rw [hstore, submitCalls_acts,
        List.countP_eq_zero.mpr fun asked hm => (asks_scanInfo s.client id policy asked hm).2]
      rfl
    exact ⟨_, congrArg SessionAnswer.polled (scanInfo_seen s.client s.store id policy).1,
      hlength, hstore, hstatus, hsubmit, wordGrows hstatus, wordGrows hsubmit⟩

end BackgroundScan
