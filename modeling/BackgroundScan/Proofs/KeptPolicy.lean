import BackgroundScan.Proofs.Erasure
import BackgroundScan.Proofs.Overrides

/-!
# The policy that a store keeps

A store keeps the policy of the last status query that got through to it, and forgets
the one before, also where the last query came without a policy. A query gets through
unless its client refuses it; whether the store then fails it, or knows the job, or
answers with a code that cannot be moved, makes no difference.

1. `Client.LetsThrough`: the status queries that a client lets through.
   `asks_of_letsThrough` and `asks_of_refused`: they are the only ones of which the
   store is asked.
2. `Overlaid`: what the store gets with such a query, setting by setting.
   `lastInfoPolicy_step` and `lastInfoPolicy_of_refused`: what an action leaves.
3. `KeptAfter`: what is kept, read off the history of a run. `keeps_last_policy`: that
   is what the store of the run keeps.
-/

namespace BackgroundScan

/-! ## 1. Queries that get through -/

/-- Whether a caller gives no policy, or one that passes validation. -/
def ValidPolicy (policy : Option Json) : Prop :=
  ∀ raw, policy = some raw → ∃ given, Policy.validate InfoPolicy raw = .ok given

/-- A client lets a status query with the given policy through. Only a query of the client
itself depends on whether it is open; a reader by itself does not look at that. -/
inductive Client.LetsThrough (c : Client) : SessionAction → Option Json → Prop
  | polled {id : JobId} {policy : Option Json} :
      c.isOpen = true → ValidPolicy policy → c.LetsThrough (.scanInfo id policy) policy
  | read {id : JobId} {policy : Option Json} :
      ValidPolicy policy → c.LetsThrough (.read id policy) policy

/-- What comes to the store as the policy of a status query: nothing if the caller gives
none, and otherwise the baseline with exactly the settings that the caller gives. -/
inductive Overlaid (baseline : InfoPolicy) : Option Json → Option InfoPolicy → Prop
  | absent : Overlaid baseline none none
  | given {raw : Json} {p : InfoPolicy} :
      InEffect (some raw) "timeout" (fun value t => value.IsInteger t.toNat)
        baseline.timeoutMs p.timeoutMs →
      InEffect (some raw) "send_as_is" (fun value b => value = .bool b)
        baseline.sendAsIs p.sendAsIs →
      InEffect (some raw) "check_bounds" (fun value b => value = .bool b)
        baseline.checkBounds p.checkBounds →
      Overlaid baseline (some raw) (some p)

namespace KeptPolicyLemmas

theorem resolve_of_valid (baseline : InfoPolicy) {policy : Option Json}
    (h : ValidPolicy policy) :
    ∃ kept, Policy.resolve baseline policy = .ok kept ∧ Overlaid baseline policy kept := by
  cases policy with
  | none => exact ⟨none, rfl, .absent⟩
  | some raw =>
    obtain ⟨given, hgiven⟩ := h raw rfl
    have hresolve : Policy.resolve baseline (some raw) =
        .ok (some (Policy.overlay given baseline)) := by
      rw [Policy.resolve, hgiven]
      rfl
    obtain ⟨htimeout, hsend, hcheck⟩ := infoPolicy_inEffect hresolve
    exact ⟨_, hresolve, .given htimeout hsend hcheck⟩

theorem resolve_of_invalid (baseline : InfoPolicy) {policy : Option Json}
    (h : ¬ ValidPolicy policy) : ∃ e, Policy.resolve baseline policy = .error e := by
  cases hresolve : Policy.resolve baseline policy with
  | error e => exact ⟨e, rfl⟩
  | ok kept =>
    refine absurd ?_ h
    rintro raw rfl
    obtain ⟨given, hgiven, -⟩ := map_eq_ok_iff.mp hresolve
    exact ⟨given, hgiven⟩

theorem preparedQuery_of_valid {c : Client} (hopen : c.isOpen = true) {policy : Option Json}
    (h : ValidPolicy policy) :
    ∃ kept, c.preparedQuery policy = .ok kept ∧ Overlaid c.settings.infoPolicy policy kept := by
  obtain ⟨kept, hresolve, hkept⟩ := resolve_of_valid c.settings.infoPolicy h
  refine ⟨kept, ?_, hkept⟩
  rw [Client.preparedQuery, if_pos hopen, hresolve]
  rfl

theorem preparedQuery_of_refused (c : Client) (policy : Option Json)
    (h : ¬ (c.isOpen = true ∧ ValidPolicy policy)) : ∃ f, c.preparedQuery policy = .error f := by
  unfold Client.preparedQuery
  by_cases hopen : c.isOpen = true
  · obtain ⟨e, he⟩ := resolve_of_invalid c.settings.infoPolicy fun hvalid => h ⟨hopen, hvalid⟩
    rw [if_pos hopen, he]
    exact ⟨e.failure, rfl⟩
  · rw [if_neg hopen]
    exact ⟨_, rfl⟩

end KeptPolicyLemmas

open KeptPolicyLemmas

/-- A query that is let through is the one thing that is asked of the store. -/
theorem asks_of_letsThrough {c : Client} {action : SessionAction} {policy : Option Json}
    (h : c.LetsThrough action policy) :
    ∃ kept id, c.asks action = [.query kept id] ∧
      Overlaid c.settings.infoPolicy policy kept := by
  cases h with
  | @polled id policy hopen hvalid =>
    obtain ⟨kept, hprepared, hkept⟩ := preparedQuery_of_valid hopen hvalid
    refine ⟨kept, id, ?_, hkept⟩
    rw [Client.asks, hprepared]
    rfl
  | @read id policy hvalid =>
    obtain ⟨kept, hresolve, hkept⟩ := resolve_of_valid c.settings.infoPolicy hvalid
    refine ⟨kept, id, ?_, hkept⟩
    rw [Client.asks, hresolve]
    rfl

/-- No other action asks for a status. -/
theorem asks_of_refused {c : Client} {action : SessionAction}
    (h : ∀ policy, ¬ c.LetsThrough action policy) :
    ∀ asked ∈ c.asks action, asked.isQuery = false := by
  cases action with
  | scanInfo id policy =>
    obtain ⟨f, hf⟩ := preparedQuery_of_refused c policy
      fun ⟨hopen, hvalid⟩ => h policy (.polled hopen hvalid)
    rw [Client.asks, hf]
    exact fun _ hm => absurd hm List.not_mem_nil
  | read id policy =>
    obtain ⟨e, he⟩ := resolve_of_invalid c.settings.infoPolicy fun hvalid => h policy (.read hvalid)
    rw [Client.asks, he]
    exact fun _ hm => absurd hm List.not_mem_nil
  | scanApply request =>
    intro asked hm
    exact Bool.eq_false_iff.mpr (DispatchLemmas.asks_scanApply c request asked hm).2
  | scanApplyDecoded raw =>
    simp only [Client.asks]
    cases ScanRequest.decode raw with
    | error e => exact fun _ hm => absurd hm List.not_mem_nil
    | ok request =>
      intro asked hm
      exact Bool.eq_false_iff.mpr (DispatchLemmas.asks_scanApply c request asked hm).2
  | submit input times =>
    intro asked hm
    obtain rfl := List.eq_of_mem_replicate hm
    rfl
  | insertJob _ _ | setProgress _ _ _ _ | expireJob _ | failNextSubmit _ | failNextStatus _ =>
    exact List.forall_mem_singleton.mpr rfl
  | prepare _ | hasUpdateTime _ | submissions | settings | close | newClient _ =>
    exact fun _ hm => absurd hm List.not_mem_nil

/-! ## 2. What an action leaves -/

namespace KeptPolicyLemmas

theorem lastInfoPolicy_query (s : Store) (policy : Option InfoPolicy) (id : JobId) :
    (s.query policy id).2.lastInfoPolicy = policy := by
  rcases s.query_cases policy id with ⟨e, -, h⟩ | ⟨-, -, h⟩ | ⟨info, -, -, h⟩
  all_goals exact congrArg (fun answer => answer.2.lastInfoPolicy) h

theorem lastInfoPolicy_act (s : Store) {action : StoreAction} (h : action.isQuery = false) :
    (s.act action).lastInfoPolicy = s.lastInfoPolicy := by
  cases action with
  | query policy id => cases h
  | submit policy job =>
    show (s.submit policy job).2.lastInfoPolicy = _
    rcases s.submit_cases policy job with ⟨e, -, h⟩ | ⟨-, -, h⟩ | ⟨udf, -, -, h⟩
    all_goals exact congrArg (fun answer => answer.2.lastInfoPolicy) h
  | setProgress id progressPct recordsScanned status =>
    simp only [Store.act, Store.setProgress]
    cases s.jobs.find? id <;> rfl
  | insertJob _ _ | expireJob _ | failNextSubmit _ | failNextStatus _ => rfl

theorem lastInfoPolicy_acts (s : Store) {asked : List StoreAction}
    (h : ∀ action ∈ asked, action.isQuery = false) :
    (s.acts asked).lastInfoPolicy = s.lastInfoPolicy := by
  induction asked generalizing s with
  | nil => rfl
  | cons first rest ih =>
    obtain ⟨hfirst, hrest⟩ := List.forall_mem_cons.mp h
    exact (ih (s.act first) hrest).trans (lastInfoPolicy_act s hfirst)

end KeptPolicyLemmas

/-- A query that gets through counts, and the store keeps its policy. -/
theorem lastInfoPolicy_step {c : Client} {action : SessionAction} {policy : Option Json}
    (h : c.LetsThrough action policy) (s : Store) :
    let store := ((c.sessionAt s).step action).2.store
    store.statusCalls = s.statusCalls + 1 ∧
      Overlaid c.settings.infoPolicy policy store.lastInfoPolicy := by
  obtain ⟨kept, id, hasks, hkept⟩ := asks_of_letsThrough h
  have hstore : ((c.sessionAt s).step action).2.store = s.acts [.query kept id] := by
    rw [← hasks]
    exact step_store (c.sessionAt s) action
  rw [hstore]
  refine ⟨statusCalls_acts s [.query kept id], ?_⟩
  rwa [show (s.acts [.query kept id]).lastInfoPolicy = kept from lastInfoPolicy_query s kept id]

/-- Any other action leaves the policy and the count as they are. -/
theorem lastInfoPolicy_of_refused {c : Client} {action : SessionAction}
    (h : ∀ policy, ¬ c.LetsThrough action policy) (s : Store) :
    let store := ((c.sessionAt s).step action).2.store
    store.statusCalls = s.statusCalls ∧ store.lastInfoPolicy = s.lastInfoPolicy := by
  have hasks := asks_of_refused h
  have hstore : ((c.sessionAt s).step action).2.store = s.acts (c.asks action) :=
    step_store (c.sessionAt s) action
  have hnone : (c.asks action).countP StoreAction.isQuery = 0 :=
    List.countP_eq_zero.mpr fun asked hm => Bool.eq_false_iff.mp (hasks asked hm)
  rw [hstore]
  refine ⟨?_, lastInfoPolicy_acts s hasks⟩
  rw [statusCalls_acts, hnone, Nat.add_zero]

/-- The queries of a client that are let through are those that do not fail on its side. -/
theorem letsThrough_iff (c : Client) (s : Store) (id : JobId) (policy : Option Json) :
    c.LetsThrough (.scanInfo id policy) policy ↔
      (c.exchange s (.scanInfo id policy)).answer.isClientSide = false := by
  have hside : (c.exchange s (.scanInfo id policy)).answer.isClientSide =
      (c.asks (.scanInfo id policy)).isEmpty := ErasureLemmas.isClientSide_polled c s id policy
  rw [hside]
  constructor
  · intro h
    obtain ⟨kept, id', hasks, -⟩ := asks_of_letsThrough h
    rw [hasks]
    rfl
  · intro h
    by_cases hthrough : c.isOpen = true ∧ ValidPolicy policy
    · exact .polled hthrough.1 hthrough.2
    · obtain ⟨f, hf⟩ := preparedQuery_of_refused c policy hthrough
      rw [Client.asks, hf] at h
      cases h

/-! ## 3. What a run leaves -/

/-- What is kept after a history: nothing if no status query got through, and otherwise
the policy of the last one that did, with the baseline of its own client. -/
inductive KeptAfter : List Exchange → Option InfoPolicy → Prop
  | never {history : List Exchange} :
      (∀ e ∈ history, ∀ policy, ¬ e.client.LetsThrough e.action policy) → KeptAfter history none
  | last {earlier later : List Exchange} {e : Exchange} {policy : Option Json}
      {kept : Option InfoPolicy} :
      e.client.LetsThrough e.action policy →
      (∀ other ∈ later, ∀ policy, ¬ other.client.LetsThrough other.action policy) →
      Overlaid e.client.settings.infoPolicy policy kept →
      KeptAfter (earlier ++ e :: later) kept

namespace KeptPolicyLemmas

theorem keptAfter_concat {history : List Exchange} {c : Client} {s : Store}
    (h : KeptAfter history s.lastInfoPolicy) (action : SessionAction) :
    KeptAfter (history ++ [c.exchange s action])
      ((c.sessionAt s).step action).2.store.lastInfoPolicy := by
  by_cases hthrough : ∃ policy, c.LetsThrough action policy
  · obtain ⟨policy, hpolicy⟩ := hthrough
    obtain ⟨-, hkept⟩ := lastInfoPolicy_step hpolicy s
    exact .last hpolicy (fun _ hm => absurd hm List.not_mem_nil) hkept
  · have hrefused : ∀ policy, ¬ c.LetsThrough action policy :=
      fun policy hpolicy => hthrough ⟨policy, hpolicy⟩
    obtain ⟨-, hsame⟩ := lastInfoPolicy_of_refused hrefused s
    rw [hsame]
    generalize s.lastInfoPolicy = kept at h
    cases h with
    | never hnone =>
      refine .never fun e he => ?_
      rcases List.mem_append.mp he with he | he
      · exact hnone e he
      · obtain rfl := List.mem_singleton.mp he
        exact hrefused
    | @last earlier later e policy _ hquery hlater hkept =>
      rw [List.append_assoc, List.cons_append]
      refine .last hquery (fun other hm => ?_) hkept
      rcases List.mem_append.mp hm with hm | hm
      · exact hlater other hm
      · obtain rfl := List.mem_singleton.mp hm
        exact hrefused

theorem foldl_concat (history earlier : List Exchange) :
    history.foldl (fun t e => t ++ [e]) earlier = earlier ++ history := by
  induction history generalizing earlier with
  | nil => exact (List.append_nil earlier).symm
  | cons e rest ih => rw [List.foldl_cons, ih, List.append_assoc, List.singleton_append]

end KeptPolicyLemmas

/-- At every point of a run of any clients at a new store, the store keeps what the history
says: the policy of the last status query that got through, on the baseline of its client. A
query that gets through is counted and its policy kept, whatever comes of it, and these are
the queries that do not fail on the client's side; any other action leaves both alone. -/
theorem keeps_last_policy (first : JobId) (offset : Int64) (clients : List Client)
    (actions : List FleetAction) (c : Client) (s : Store) (action : SessionAction) (id : JobId)
    (given : Option Json) :
    let run := (Fleet.mk clients (.new first offset)).run actions
    let store := ((c.sessionAt s).step action).2.store
    KeptAfter run.1 run.2.store.lastInfoPolicy ∧
      (∀ policy, c.LetsThrough action policy →
        store.statusCalls = s.statusCalls + 1 ∧
          Overlaid c.settings.infoPolicy policy store.lastInfoPolicy) ∧
      ((∀ policy, ¬ c.LetsThrough action policy) →
        store.statusCalls = s.statusCalls ∧ store.lastInfoPolicy = s.lastInfoPolicy) ∧
      (c.LetsThrough (.scanInfo id given) given ↔
        (c.exchange s (.scanInfo id given)).answer.isClientSide = false) := by
  intro run store
  refine ⟨?_, fun policy h => lastInfoPolicy_step h s, fun h => lastInfoPolicy_of_refused h s,
    letsThrough_iff c s id given⟩
  have hnew : KeptAfter [] (Store.new first offset).lastInfoPolicy :=
    .never fun _ hm => absurd hm List.not_mem_nil
  have hkept : KeptAfter (run.1.foldl (fun t e => t ++ [e]) []) run.2.store.lastInfoPolicy :=
    run_induction (R := fun s t => KeptAfter t s.lastInfoPolicy)
      (fun _ _ action _ h => keptAfter_concat h action)
      (Fleet.mk clients (.new first offset)) actions hnew
  rwa [foldl_concat, List.nil_append] at hkept

/-- A query for a job that nobody knows, with an error armed, leaves its policy on the baseline
of its client; the same query of the client that was closed leaves what another has left. -/
theorem keeps_last_policy_armed :
    let c : Client := .new { Settings.standard with infoPolicy := ⟨7, false, true⟩ }
    let given : Json := .object [("timeout", .null), ("send_as_is", .bool true)]
    let s := Store.standard.failNextStatus (.timeout "late")
    let asked : SessionAction := .scanInfo 9 (some given)
    let polled := ((c.sessionAt s).step asked).2.store
    let kept := s.acts [.query (some ⟨1, true, false⟩) 3]
    let refused := ((c.close.sessionAt kept).step asked).2.store
    polled.statusCalls = 1 ∧ Overlaid ⟨7, false, true⟩ (some given) polled.lastInfoPolicy ∧
      polled.lastInfoPolicy = some ⟨7, true, true⟩ ∧
      refused.statusCalls = 1 ∧ refused.lastInfoPolicy = some ⟨1, true, false⟩ := by
  intro c given s asked polled kept refused
  have hvalid : ValidPolicy (some given) := by
    rintro _ ⟨⟩
    exact ⟨⟨none, some true, none⟩, rfl⟩
  have hrefused : ∀ policy, ¬ c.close.LetsThrough (.scanInfo 9 (some given)) policy := by
    rintro _ ⟨hopen, -⟩
    cases hopen
  obtain ⟨-, hthrough, -⟩ := keeps_last_policy 1 0 [c] [] c s asked 9 (some given)
  obtain ⟨-, -, hsame, -⟩ := keeps_last_policy 1 0 [c] [] c.close kept asked 9 (some given)
  obtain ⟨hcalls, hkept⟩ := hthrough (some given) (.polled rfl hvalid)
  obtain ⟨hcallsSame, hkeptSame⟩ := hsame hrefused
  exact ⟨hcalls, hkept, rfl, hcallsSame, hkeptSame⟩

end BackgroundScan
