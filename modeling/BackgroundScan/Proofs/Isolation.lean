import BackgroundScan.Proofs.Erasure

/-!
# Clients at one store do not see each other

A client keeps its settings, whether it is open, and a ledger; and nothing that it is
answered depends on the ledger. So it makes no difference which of several open clients
with the same settings makes a call. All that a client does to others is what it asks of
the store, and a client that was closed asks for nothing.

1. `exchange_congr`: what the answer to an action, and what it asks for, depend on.
2. `run_moved` and `run_fresh`: a call is made by another client, or by a new one.
3. `run_client`: the client at a place after a run, from its own actions.
4. `step_closed`: a call of a closed client. `run_closed`: a run in which a client is
   closed, and the run in which it is not and only falls silent.
5. `isolates_clients`: all of this together.
-/

namespace BackgroundScan

/-! ## 1. What an action depends on -/

/-- Whether an action is a call of the client. -/
def SessionAction.isCall : SessionAction → Bool
  | scanApply _ => true
  | scanApplyDecoded _ => true
  | scanInfo _ _ => true
  | _ => false

/-- What an action is answered and asks for, and what it takes, depends on the settings of
its client and on whether that is open, and not on its ledger. -/
theorem exchange_congr (c c' : Client) (hsettings : c.settings = c'.settings)
    (hopen : c.isOpen = c'.isOpen) (s : Store) (action : SessionAction) :
    (c.exchange s action).answer = (c'.exchange s action).answer ∧
      c.asks action = c'.asks action ∧ c.leases action = c'.leases action := by
  obtain ⟨settings, isOpen, ledger⟩ := c
  obtain ⟨settings', isOpen', ledger'⟩ := c'
  obtain rfl : settings = settings' := hsettings
  obtain rfl : isOpen = isOpen' := hopen
  have hanswer := answer_ledger ⟨settings, isOpen, ledger'⟩ ledger s action
  refine ⟨hanswer, ?_, ?_⟩
  · cases action <;> rfl
  · cases action <;> rfl

/-! ## 2. Calls of another client -/

/-- Whether two runs are answered the same and leave the same store. -/
def SeenAlike (run run' : List Exchange × Fleet) : Prop :=
  run.1.map Exchange.seen = run'.1.map Exchange.seen ∧ run.2.store = run'.2.store

/-- The step when a client was put in at a place: the clients from there on have moved up. -/
def FleetAction.movedUp (place : Nat) : FleetAction → FleetAction
  | join settings => join settings
  | act acting action => act (if acting < place then acting else acting + 1) action

/-- The fleet with a client put in at a place. -/
def Fleet.putIn (f : Fleet) (place : Nat) (c : Client) : Fleet :=
  { f with clients := f.clients.insertIdx place c }

/-- The fleet after the store was asked. -/
def Fleet.asking (f : Fleet) (asked : List StoreAction) : Fleet :=
  { f with store := f.store.acts asked }

namespace IsolationLemmas

open ErasureLemmas

theorem after_call {action : SessionAction} (h : action.isCall = true) (c : Client) :
    c.after action = c.turnOver (c.leases action) := by
  cases action with
  | scanApply _ | scanApplyDecoded _ | scanInfo _ _ => rfl
  | _ => cases h

/-- All that a call leaves is what it asks for, and the ledger of its client. -/
theorem step_call {f : Fleet} {place : Nat} {c : Client} (hplace : f.clients[place]? = some c)
    {call : SessionAction} (hcall : call.isCall = true) :
    f.step (.act place call) =
      ([c.exchange f.store call],
        (f.asking (c.asks call)).turnOver place (c.leases call)) := by
  rw [step_act hplace, after_call hcall, set_eq_modify hplace (·.turnOver (c.leases call))]
  rfl

/-- What follows a call is seen as it is where only its store was asked. -/
theorem run_call {f : Fleet} {place : Nat} {c : Client} (hplace : f.clients[place]? = some c)
    {call : SessionAction} (hcall : call.isCall = true) (after : List FleetAction) :
    let rest := (f.asking (c.asks call)).run after
    (f.run (.act place call :: after)).1.map Exchange.seen =
        (call, (c.exchange f.store call).answer) :: rest.1.map Exchange.seen ∧
      (f.run (.act place call :: after)).2.store = rest.2.store := by
  intro rest
  obtain ⟨hlt, -⟩ := List.getElem?_eq_some_iff.mp hplace
  obtain ⟨hseen, hend⟩ :=
    run_turnOver (f := f.asking (c.asks call)) hlt (c.leases call) after
  rw [run_cons, step_call hplace hcall]
  refine ⟨?_, (congrArg Fleet.store hend).trans rfl⟩
  rw [List.map_append, hseen]
  rfl

theorem insertIdx_append {α : Type} {l : List α} {i : Nat} (h : i ≤ l.length) (a b : α) :
    l.insertIdx i a ++ [b] = (l ++ [b]).insertIdx i a := by
  induction l generalizing i with
  | nil =>
    obtain rfl := Nat.le_zero.mp h
    rfl
  | cons first rest ih =>
    cases i with
    | zero => rfl
    | succ i => exact congrArg (first :: ·) (ih (Nat.le_of_succ_le_succ h))

theorem getElem?_insertIdx_movedUp {α : Type} (l : List α) (i k : Nat) (a : α) :
    (l.insertIdx i a)[if k < i then k else k + 1]? = l[k]? := by
  rw [List.getElem?_insertIdx]
  by_cases hk : k < i
  · rw [if_pos hk, if_pos hk]
  · rw [if_neg hk, if_neg (by omega), if_neg (by omega), Nat.add_sub_cancel]

theorem set_insertIdx_movedUp {α : Type} (l : List α) (i k : Nat) (a b : α) :
    (l.insertIdx i a).set (if k < i then k else k + 1) b = (l.set k b).insertIdx i a := by
  induction l generalizing i k with
  | nil => cases i <;> cases k <;> simp
  | cons first rest ih =>
    cases i with
    | zero => rfl
    | succ i =>
      cases k with
      | zero => rfl
      | succ k =>
        have hrest := ih i k
        by_cases hk : k < i
        · rw [if_pos hk] at hrest
          rw [if_pos (Nat.succ_lt_succ hk)]
          exact congrArg (first :: ·) hrest
        · rw [if_neg hk] at hrest
          rw [if_neg (fun h => hk (Nat.lt_of_succ_lt_succ h))]
          exact congrArg (first :: ·) hrest

theorem step_putIn {f : Fleet} {place : Nat} (h : place ≤ f.clients.length) (d : Client)
    (action : FleetAction) :
    (f.putIn place d).step (action.movedUp place) =
      ((f.step action).1, (f.step action).2.putIn place d) := by
  cases action with
  | join settings =>
    exact congrArg (fun clients => ([], Fleet.mk clients f.store)) (insertIdx_append h d _)
  | act acting action =>
    have hsame := getElem?_insertIdx_movedUp f.clients place acting d
    cases hc : f.clients[acting]? with
    | none =>
      rw [step_idle hc]
      exact step_idle (hsame.trans hc) action
    | some c =>
      rw [step_act hc]
      refine (step_act (hsame.trans hc) action).trans ?_
      exact congrArg (fun clients => ([c.exchange f.store action],
        Fleet.mk clients (f.store.acts (c.asks action))))
        (set_insertIdx_movedUp f.clients place acting d (c.after action))

theorem run_putIn {f : Fleet} {place : Nat} (h : place ≤ f.clients.length) (d : Client)
    (actions : List FleetAction) :
    (f.putIn place d).run (actions.map (FleetAction.movedUp place)) =
      ((f.run actions).1, (f.run actions).2.putIn place d) := by
  induction actions generalizing f with
  | nil => rfl
  | cons action rest ih =>
    rw [List.map_cons, run_cons, step_putIn h d action,
      ih (Nat.le_trans h (length_step f action)), run_cons]

theorem seenAlike_append {f : Fleet} {before after after' : List FleetAction}
    (h : SeenAlike ((f.run before).2.run after) ((f.run before).2.run after')) :
    SeenAlike (f.run (before ++ after)) (f.run (before ++ after')) := by
  obtain ⟨hseen, hstore⟩ := h
  rw [run_append, run_append]
  refine ⟨?_, hstore⟩
  rw [List.map_append, List.map_append, hseen]

end IsolationLemmas

open ErasureLemmas IsolationLemmas

/-- It makes no difference which client makes a call, if they have the same settings and both
are open, or both closed. -/
theorem run_moved {f : Fleet} {place other : Nat} {c c' : Client}
    (hplace : f.clients[place]? = some c) (hother : f.clients[other]? = some c')
    (hsettings : c.settings = c'.settings) (hopen : c.isOpen = c'.isOpen)
    {call : SessionAction} (hcall : call.isCall = true) (after : List FleetAction) :
    SeenAlike (f.run (.act other call :: after)) (f.run (.act place call :: after)) := by
  obtain ⟨hseen, hstore⟩ := run_call hplace hcall after
  obtain ⟨hseen', hstore'⟩ := run_call hother hcall after
  obtain ⟨hanswer, hasks, -⟩ := exchange_congr c c' hsettings hopen f.store call
  rw [SeenAlike, hseen, hseen', hstore, hstore', hanswer, hasks]
  exact ⟨rfl, rfl⟩

/-- Nor if the call is made by a client that has just joined. -/
theorem run_fresh {f : Fleet} {place : Nat} {c : Client} (hplace : f.clients[place]? = some c)
    (hopen : c.isOpen = true) {call : SessionAction} (hcall : call.isCall = true)
    (after : List FleetAction) :
    let fresh := f.clients.length
    SeenAlike
      (f.run (.join c.settings :: .act fresh call :: after.map (FleetAction.movedUp fresh)))
      (f.run (.act place call :: after)) := by
  intro fresh
  obtain ⟨hseen, hstore⟩ := run_call hplace hcall after
  obtain ⟨hanswer, hasks, -⟩ :=
    exchange_congr c (.new c.settings) rfl hopen f.store call
  -- the new client joins at the end, so it is as if it had been put in there
  have hjoined : (f.step (.join c.settings)).2.clients[fresh]? = some (.new c.settings) :=
    List.getElem?_concat_length
  have hfresh : (f.step (.join c.settings)).2.step (.act fresh call) =
      ([(Client.new c.settings).exchange f.store call],
        (f.asking (c.asks call)).putIn fresh ((Client.new c.settings).after call)) := by
    rw [step_act hjoined, ← hasks]
    refine congrArg (fun clients => ([(Client.new c.settings).exchange f.store call],
      Fleet.mk clients (f.store.acts (c.asks call)))) ?_
    show (f.clients ++ [Client.new c.settings]).set fresh _ = f.clients.insertIdx fresh _
    rw [List.set_append_right _ _ (Nat.le_refl _), Nat.sub_self, List.insertIdx_length_self]
    rfl
  have hrest := run_putIn (f := f.asking (c.asks call)) (Nat.le_refl fresh)
    ((Client.new c.settings).after call) after
  rw [SeenAlike, hseen, hstore, hanswer, run_cons, run_cons, hfresh, hrest]
  exact ⟨rfl, rfl⟩

/-! ## 3. The client at a place -/

/-- What a step lets the client at a place do. -/
def FleetAction.own (place : Nat) : FleetAction → Option SessionAction
  | join _ => none
  | act acting action => if acting = place then some action else none

/-- A client comes out of a run as its own actions leave it, whatever the others do and
whatever the store holds. -/
theorem run_client {f : Fleet} {place : Nat} {c : Client} (h : f.clients[place]? = some c)
    (actions : List FleetAction) :
    (f.run actions).2.clients[place]? =
      some ((actions.filterMap (FleetAction.own place)).foldl Client.after c) := by
  induction actions generalizing f c with
  | nil => exact h
  | cons action rest ih =>
    obtain ⟨hlt, -⟩ := List.getElem?_eq_some_iff.mp h
    rw [run_cons]
    cases action with
    | join settings => exact ih ((List.getElem?_append_left hlt).trans h)
    | act acting action =>
      by_cases hacts : acting = place
      · subst hacts
        have hown : FleetAction.own acting (.act acting action) = some action := if_pos rfl
        rw [List.filterMap_cons_some hown, List.foldl_cons, step_act h]
        exact ih (List.getElem?_set_self hlt)
      · have hown : FleetAction.own place (.act acting action) = none := if_neg hacts
        rw [List.filterMap_cons_none hown]
        cases hc : f.clients[acting]? with
        | none =>
          rw [step_idle hc]
          exact ih h
        | some other =>
          rw [step_act hc]
          exact ih ((List.getElem?_set_ne hacts).trans h)

/-! ## 4. Closed clients -/

/-- The report of a call of a client that was closed. -/
def closedReport : Report := ⟨.invalidParam, -2, "invalid client object"⟩

/-- The fleet in which the client at a place was closed. -/
def Fleet.closeAt (f : Fleet) (place : Nat) : Fleet :=
  { f with clients := f.clients.modify place Client.close }

/-- Whether a step lets the client at a place act. -/
def FleetAction.isAt (place : Nat) : FleetAction → Bool
  | join _ => false
  | act acting _ => acting == place

/-- Whether a step is a call of the client at a place. -/
def FleetAction.isCallAt (place : Nat) : FleetAction → Bool
  | join _ => false
  | act acting action => acting == place && action.isCall

/-- The steps without the calls of the client at a place, up to where a new client takes
its place. -/
def silence (place : Nat) : List FleetAction → List FleetAction
  | [] => []
  | action :: rest =>
    if action.renews place then action :: rest
    else if action.isCallAt place then silence place rest
    else action :: silence place rest

/-- What the client at a place does along a run, and what it is answered. -/
def Fleet.resultsAt (f : Fleet) (place : Nat) :
    List FleetAction → List (SessionAction × SessionAnswer)
  | [] => []
  | action :: rest =>
    (if action.isAt place then (f.step action).1.map Exchange.seen else []) ++
      (f.step action).2.resultsAt place rest

namespace IsolationLemmas

open ErasureLemmas CallLemmas

theorem preparedJob_closed {c : Client} (h : c.isOpen = false) (r : ScanRequest) :
    c.preparedJob r = .error RequestError.closedClient.failure := by
  rw [Client.preparedJob, ScanRequest.buildEnd, ScanRequest.check, h]
  rfl

theorem preparedQuery_closed {c : Client} (h : c.isOpen = false) (policy : Option Json) :
    c.preparedQuery policy = .error RequestError.closedClient.failure := by
  rw [Client.preparedQuery, h]
  rfl

theorem outcome_scanApply_closed {c : Client} (h : c.isOpen = false) (s : Store)
    (r : ScanRequest) : (c.scanApply s r).outcome = .ok (.error closedReport) := by
  rw [(scanApply_seen c s r).1, preparedJob_closed h]
  rfl

theorem outcome_scanInfo_closed {c : Client} (h : c.isOpen = false) (s : Store) (id : JobId)
    (policy : Option Json) : (c.scanInfo s id policy).outcome = .ok (.error closedReport) := by
  rw [(scanInfo_seen c s id policy).1, preparedQuery_closed h]
  rfl

theorem exchange_scanApply_closed {c : Client} (h : c.isOpen = false) (s : Store)
    (r : ScanRequest) :
    c.exchange s (.scanApply r) = ⟨c, .scanApply r, .applied (.ok (.error closedReport))⟩ := by
  have houtcome := outcome_scanApply_closed h s r
  exact congrArg (fun outcome => Exchange.mk c (.scanApply r) (.applied outcome)) houtcome

theorem exchange_scanApplyDecoded_closed {c : Client} (h : c.isOpen = false) (s : Store)
    {raw : Json} {r : ScanRequest} (hraw : ScanRequest.decode raw = .ok r) :
    c.exchange s (.scanApplyDecoded raw) =
      ⟨c, .scanApplyDecoded raw, .applied (.ok (.error closedReport))⟩ := by
  have houtcome := outcome_scanApply_closed h s r
  simp only [Client.exchange, Session.step]
  rw [hraw]
  exact congrArg (fun outcome => Exchange.mk c (.scanApplyDecoded raw) (.applied outcome)) houtcome

theorem exchange_scanInfo_closed {c : Client} (h : c.isOpen = false) (s : Store) (id : JobId)
    (policy : Option Json) :
    c.exchange s (.scanInfo id policy) =
      ⟨c, .scanInfo id policy, .polled (.ok (.error closedReport))⟩ := by
  have houtcome := outcome_scanInfo_closed h s id policy
  exact congrArg (fun outcome => Exchange.mk c (.scanInfo id policy) (.polled outcome)) houtcome

theorem leases_build_closed {c : Client} (h : c.isOpen = false) (r : ScanRequest) :
    (r.buildEnd c.settings c.isOpen).leases = 0 := by
  rw [ScanRequest.buildEnd, ScanRequest.check, h]
  rfl

/-- A call of a closed client takes nothing and asks for nothing. -/
theorem idle_of_closed {c : Client} (h : c.isOpen = false) {call : SessionAction}
    (hcall : call.isCall = true) : c.leases call = 0 ∧ c.asks call = [] := by
  cases call with
  | scanApply r =>
    refine ⟨leases_build_closed h r, ?_⟩
    rw [Client.asks, Client.asksToSubmit, preparedJob_closed h]
    rfl
  | scanApplyDecoded raw =>
    simp only [Client.leases, Client.asks]
    cases ScanRequest.decode raw with
    | error e => exact ⟨rfl, rfl⟩
    | ok r =>
      refine ⟨leases_build_closed h r, ?_⟩
      show askFor _ (c.preparedJob r) = []
      rw [preparedJob_closed h]
      rfl
  | scanInfo id policy =>
    refine ⟨rfl, ?_⟩
    rw [Client.asks, preparedQuery_closed h]
    rfl
  | _ => cases hcall

end IsolationLemmas

/-- A call of a closed client leaves the fleet as it is. -/
theorem step_closed {f : Fleet} {place : Nat} {c : Client} (hplace : f.clients[place]? = some c)
    (hclosed : c.isOpen = false) {call : SessionAction} (hcall : call.isCall = true) :
    f.step (.act place call) = ([c.exchange f.store call], f) := by
  obtain ⟨hleases, hasks⟩ := idle_of_closed hclosed hcall
  rw [step_act hplace, hasks, after_call hcall, hleases]
  obtain ⟨hlt, hget⟩ := List.getElem?_eq_some_iff.mp hplace
  have hset : f.clients.set place (c.turnOver 0) = f.clients := by
    show f.clients.set place c = _
    rw [← hget, List.set_getElem_self]
  rw [hset]
  rfl

namespace IsolationLemmas

open ErasureLemmas

theorem isOpen_after {action : SessionAction} (h : action.renews = false) (c : Client)
    (hclosed : c.isOpen = false) : (c.after action).isOpen = false := by
  cases action with
  | newClient settings => cases h
  | close => rfl
  | _ => exact hclosed

theorem isOpen_foldl_after {own : List SessionAction} (h : ∀ action ∈ own, action.renews = false)
    (c : Client) (hclosed : c.isOpen = false) : (own.foldl Client.after c).isOpen = false := by
  induction own generalizing c with
  | nil => exact hclosed
  | cons action rest ih =>
    obtain ⟨hfirst, hrest⟩ := List.forall_mem_cons.mp h
    exact ih hrest (c.after action) (isOpen_after hfirst c hclosed)

theorem renews_own {place : Nat} {actions : List FleetAction}
    (h : ∀ action ∈ actions, action.renews place = false) :
    ∀ own ∈ actions.filterMap (FleetAction.own place), own.renews = false := by
  intro own hown
  obtain ⟨action, hm, hsome⟩ := List.mem_filterMap.mp hown
  have hrenews := h action hm
  cases action with
  | join settings => cases hsome
  | act acting action =>
    by_cases hacts : acting = place
    · rw [FleetAction.own, if_pos hacts] at hsome
      obtain rfl := Option.some.inj hsome
      rwa [FleetAction.renews, hacts, beq_self_eq_true, Bool.true_and] at hrenews
    · rw [FleetAction.own, if_neg hacts] at hsome
      cases hsome

/-- What is no call does not depend on whether its client is open. -/
theorem exchange_close {action : SessionAction} (hcall : action.isCall = false)
    (hrenews : action.renews = false) (c : Client) :
    c.close.after action = (c.after action).close ∧ c.close.asks action = c.asks action := by
  cases action with
  | scanApply _ | scanApplyDecoded _ | scanInfo _ _ => cases hcall
  | newClient _ => cases hrenews
  | _ => exact ⟨rfl, rfl⟩

theorem closeAt_self {f : Fleet} {place : Nat} {c : Client} (h : f.clients[place]? = some c) :
    (f.closeAt place).clients[place]? = some c.close := by
  rw [Fleet.closeAt, List.getElem?_modify_eq, h]
  rfl

/-- A step of another client does not see that this one was closed. -/
theorem step_closeAt_other {f : Fleet} {place : Nat} (hplace : place < f.clients.length)
    {action : FleetAction} (h : action.isAt place = false) :
    (f.closeAt place).step action = ((f.step action).1, (f.step action).2.closeAt place) := by
  cases action with
  | join settings =>
    exact congrArg (fun clients => ([], Fleet.mk clients f.store))
      (modify_append hplace Client.close _)
  | act acting action =>
    have hne : place ≠ acting := fun he => absurd he.symm (by simpa [FleetAction.isAt] using h)
    have hsame : (f.closeAt place).clients[acting]? = f.clients[acting]? :=
      List.getElem?_modify_ne _ _ hne
    cases hc : f.clients[acting]? with
    | none =>
      rw [step_idle hc]
      exact step_idle (hsame.trans hc) action
    | some c =>
      rw [step_act hc]
      refine (step_act (hsame.trans hc) action).trans ?_
      exact congrArg (fun clients => ([c.exchange f.store action],
        Fleet.mk clients (f.store.acts (c.asks action))))
        (set_modify_ne f.clients hne Client.close (c.after action))

/-- A step of the closed client that is no call goes on as if it were open. -/
theorem step_closeAt_own {f : Fleet} {place : Nat} (hplace : place < f.clients.length)
    {action : SessionAction} (hcall : action.isCall = false) (hrenews : action.renews = false) :
    ((f.closeAt place).step (.act place action)).2 =
      (f.step (.act place action)).2.closeAt place := by
  have hc : f.clients[place]? = some f.clients[place] := List.getElem?_eq_getElem hplace
  generalize f.clients[place] = c at hc
  have hclosed := closeAt_self hc
  obtain ⟨hafter, hasks⟩ := exchange_close hcall hrenews c
  rw [step_act hc, step_act hclosed, hafter, hasks]
  exact congrArg (Fleet.mk · (f.store.acts (c.asks action)))
    (set_modify_self f.clients place Client.close Client.close (c.after action))

/-- A new client takes the place of a closed one as it does of an open one. -/
theorem step_closeAt_renewed {f : Fleet} {place : Nat} (hplace : place < f.clients.length)
    (settings : Settings) :
    ((f.closeAt place).step (.act place (.newClient settings))).2 =
      (f.step (.act place (.newClient settings))).2 := by
  have hc : f.clients[place]? = some f.clients[place] := List.getElem?_eq_getElem hplace
  generalize f.clients[place] = c at hc
  have hclosed := closeAt_self hc
  rw [step_act hc, step_act hclosed]
  have hset := set_modify_self f.clients place Client.close id (Client.new settings)
  rw [List.modify_id] at hset
  exact congrArg (Fleet.mk · f.store) hset

theorem eq_newClient_of_renews {place : Nat} {action : FleetAction}
    (h : action.renews place = true) :
    ∃ settings, action = .act place (.newClient settings) := by
  cases action with
  | join settings => cases h
  | act acting action =>
    obtain ⟨hacts, hrenews⟩ := (Bool.and_eq_true ..).mp h
    obtain rfl := beq_iff_eq.mp hacts
    cases action with
    | newClient settings => exact ⟨settings, rfl⟩
    | _ => cases hrenews

theorem eq_act_of_isAt {place : Nat} {action : FleetAction} (h : action.isAt place = true) :
    ∃ own, action = .act place own := by
  cases action with
  | join settings => cases h
  | act acting action =>
    obtain rfl := beq_iff_eq.mp h
    exact ⟨action, rfl⟩

theorem eq_call_of_isCallAt {place : Nat} {action : FleetAction}
    (h : action.isCallAt place = true) :
    ∃ call, action = .act place call ∧ call.isCall = true := by
  cases action with
  | join settings => cases h
  | act acting action =>
    obtain ⟨hacts, hcall⟩ := (Bool.and_eq_true ..).mp h
    obtain rfl := beq_iff_eq.mp hacts
    exact ⟨action, rfl, hcall⟩

theorem isAt_act_of_ne {place other : Nat} (h : other ≠ place) (action : SessionAction) :
    (FleetAction.act place action).isAt other = false :=
  beq_eq_false_iff_ne.mpr (Ne.symm h)

/-- A step that is neither a call of the closed client nor renews it. -/
theorem step_closeAt {f : Fleet} {place : Nat} (hplace : place < f.clients.length)
    {action : FleetAction} (hrenews : ¬ action.renews place = true)
    (hcall : ¬ action.isCallAt place = true) :
    ((f.closeAt place).step action).2 = (f.step action).2.closeAt place ∧
      ∀ other, other ≠ place →
        (if action.isAt other then ((f.closeAt place).step action).1.map Exchange.seen else []) =
          if action.isAt other then (f.step action).1.map Exchange.seen else [] := by
  cases hat : action.isAt place with
  | true =>
    obtain ⟨own, rfl⟩ := eq_act_of_isAt hat
    have hown : (place == place) = true := beq_self_eq_true place
    rw [FleetAction.renews, hown, Bool.true_and] at hrenews
    rw [FleetAction.isCallAt, hown, Bool.true_and] at hcall
    refine ⟨step_closeAt_own hplace (Bool.eq_false_iff.mpr hcall)
      (Bool.eq_false_iff.mpr hrenews), fun other hother => ?_⟩
    rw [isAt_act_of_ne hother]
    rfl
  | false =>
    rw [step_closeAt_other hplace hat]
    exact ⟨rfl, fun _ _ => rfl⟩

end IsolationLemmas

/-- A run in which a client is closed is for all others the run in which it is not closed
and makes no calls any more: they get the same results, and in the end there are the same
store and the same clients, but that this one is closed if no new client took its place. -/
theorem run_closed {f : Fleet} {place : Nat} (hplace : place < f.clients.length)
    (actions : List FleetAction) :
    ((f.closeAt place).run actions).2 =
        (if actions.any (FleetAction.renews place) then (f.run (silence place actions)).2
          else (f.run (silence place actions)).2.closeAt place) ∧
      ∀ other, other ≠ place →
        (f.closeAt place).resultsAt other actions =
          f.resultsAt other (silence place actions) := by
  induction actions generalizing f with
  | nil => exact ⟨rfl, fun _ _ => rfl⟩
  | cons action rest ih =>
    by_cases hrenews : action.renews place = true
    · -- from here on the two runs are one
      have hsilence : silence place (action :: rest) = action :: rest := if_pos hrenews
      rw [hsilence, List.any_cons, hrenews, Bool.true_or, if_pos rfl]
      obtain ⟨settings, rfl⟩ := eq_newClient_of_renews hrenews
      have hstep := step_closeAt_renewed hplace settings
      refine ⟨?_, fun other hother => ?_⟩
      · rw [run_cons, run_cons, hstep]
      · rw [Fleet.resultsAt, Fleet.resultsAt, isAt_act_of_ne hother, hstep]
        rfl
    · rw [List.any_cons, Bool.eq_false_iff.mpr hrenews, Bool.false_or]
      by_cases hcall : action.isCallAt place = true
      · -- the closed client is refused, and the silent one makes no call
        have hsilence : silence place (action :: rest) = silence place rest :=
          (if_neg hrenews).trans (if_pos hcall)
        obtain ⟨call, rfl, hiscall⟩ := eq_call_of_isCallAt hcall
        have hclosed := closeAt_self (List.getElem?_eq_getElem hplace)
        have hstep := step_closed hclosed rfl hiscall
        obtain ⟨hend, hresults⟩ := ih hplace
        rw [hsilence]
        refine ⟨?_, fun other hother => ?_⟩
        · rw [run_cons, hstep]
          exact hend
        · rw [Fleet.resultsAt, isAt_act_of_ne hother, hstep]
          exact hresults other hother
      · have hsilence : silence place (action :: rest) = action :: silence place rest :=
          (if_neg hrenews).trans (if_neg hcall)
        obtain ⟨hstep, hfirst⟩ := step_closeAt hplace hrenews hcall
        obtain ⟨hend, hresults⟩ := ih (Nat.lt_of_lt_of_le hplace (length_step f action))
        rw [hsilence]
        refine ⟨?_, fun other hother => ?_⟩
        · rw [run_cons, run_cons, hstep]
          exact hend
        · rw [Fleet.resultsAt, Fleet.resultsAt, hstep, hfirst other hother,
            hresults other hother]

/-! ## 5. Isolation -/

/-- A run that goes on with a call of the client at a place is seen the same, and leaves the
same store, if another client makes the call that has the same settings and is as open, or, if
this one is open, a client that joins for it. -/
structure MovesFreely (f : Fleet) (before after : List FleetAction) (place : Nat) (c : Client)
    (call : SessionAction) : Prop where
  toOther : ∀ other c', (f.run before).2.clients[other]? = some c' → c'.settings = c.settings →
    c'.isOpen = c.isOpen →
    SeenAlike (f.run (before ++ .act other call :: after))
      (f.run (before ++ .act place call :: after))
  toFresh : c.isOpen = true →
    let fresh := (f.run before).2.clients.length
    SeenAlike
      (f.run (before ++
        .join c.settings :: .act fresh call :: after.map (FleetAction.movedUp fresh)))
      (f.run (before ++ .act place call :: after))

/-- What closing the client at a place does to a run that follows. -/
structure ClosesOff (f : Fleet) (place : Nat) (actions : List FleetAction) : Prop where
  /-- Until a new client takes its place its calls are refused, and leave the whole fleet as
  it is. -/
  refused : (∀ action ∈ actions, action.renews place = false) →
    let later := (f.run (.act place .close :: actions)).2
    ∃ c', later.clients[place]? = some c' ∧
      (∀ r, later.step (.act place (.scanApply r)) =
        ([⟨c', .scanApply r, .applied (.ok (.error closedReport))⟩], later)) ∧
      (∀ raw r, ScanRequest.decode raw = .ok r → later.step (.act place (.scanApplyDecoded raw)) =
        ([⟨c', .scanApplyDecoded raw, .applied (.ok (.error closedReport))⟩], later)) ∧
      ∀ id policy, later.step (.act place (.scanInfo id policy)) =
        ([⟨c', .scanInfo id policy, .polled (.ok (.error closedReport))⟩], later)
  /-- For the store and all others it is as if the client were open, and had only fallen
  silent. -/
  store : (f.run (.act place .close :: actions)).2.store =
    (f.run (silence place actions)).2.store
  others : ∀ other, other ≠ place →
    f.resultsAt other (.act place .close :: actions) =
        f.resultsAt other (silence place actions) ∧
      (f.run (.act place .close :: actions)).2.clients[other]? =
        (f.run (silence place actions)).2.clients[other]?
  /-- If it makes no calls anyway, that is the same run. -/
  silent : (∀ action ∈ actions, action.isCallAt place = false) → silence place actions = actions

namespace IsolationLemmas

open ErasureLemmas

theorem step_close {f : Fleet} {place : Nat} {c : Client} (hplace : f.clients[place]? = some c) :
    f.step (.act place .close) = ([c.exchange f.store .close], f.closeAt place) := by
  rw [step_act hplace]
  show ([c.exchange f.store .close], Fleet.mk (f.clients.set place c.close) f.store) = _
  rw [set_eq_modify hplace]
  rfl

theorem silence_eq_self {place : Nat} {actions : List FleetAction}
    (h : ∀ action ∈ actions, action.isCallAt place = false) : silence place actions = actions := by
  induction actions with
  | nil => rfl
  | cons action rest ih =>
    obtain ⟨hfirst, hrest⟩ := List.forall_mem_cons.mp h
    rw [silence, hfirst, ih hrest]
    split <;> rfl

theorem movesFreely {f : Fleet} {before : List FleetAction} {place : Nat} {c : Client}
    (hplace : (f.run before).2.clients[place]? = some c) {call : SessionAction}
    (hcall : call.isCall = true) (after : List FleetAction) :
    MovesFreely f before after place c call where
  toOther := fun _ _ hother hsettings hopen =>
    seenAlike_append (run_moved hplace hother hsettings.symm hopen.symm hcall after)
  toFresh := fun hopen => seenAlike_append (run_fresh hplace hopen hcall after)

theorem closesOff {f : Fleet} {place : Nat} {c : Client} (hplace : f.clients[place]? = some c)
    (actions : List FleetAction) : ClosesOff f place actions := by
  obtain ⟨hlt, -⟩ := List.getElem?_eq_some_iff.mp hplace
  have hstep := step_close hplace
  have hrun : (f.run (.act place .close :: actions)).2 = ((f.closeAt place).run actions).2 := by
    rw [run_cons, hstep]
  obtain ⟨hend, hresults⟩ := run_closed hlt actions
  exact {
    refused := by
      intro hkept later
      have hclient := run_client (closeAt_self hplace) actions
      rw [← hrun] at hclient
      have hstill := isOpen_foldl_after (renews_own hkept) c.close rfl
      refine ⟨_, hclient, fun r => ?_, fun raw r hraw => ?_, fun id policy => ?_⟩
      · rw [step_closed hclient hstill rfl, exchange_scanApply_closed hstill]
      · rw [step_closed hclient hstill rfl, exchange_scanApplyDecoded_closed hstill _ hraw]
      · rw [step_closed hclient hstill rfl, exchange_scanInfo_closed hstill]
    store := by
      rw [hrun, hend]
      split <;> rfl
    others := by
      intro other hother
      refine ⟨?_, ?_⟩
      · rw [Fleet.resultsAt, isAt_act_of_ne hother, hstep]
        exact hresults other hother
      · rw [hrun, hend]
        split
        · rfl
        · exact List.getElem?_modify_ne _ _ (Ne.symm hother)
    silent := silence_eq_self }

end IsolationLemmas

/-- At any point of a run, what an action is answered and what it leaves in the store depends
on the settings of its client, on whether that is open, on the store and on the action, in this
fleet or in any other; so a call may be made by another client, or a new one. A client, with
its ledger, comes out of the rest as its own actions leave it. Once closed it is refused and
changes nothing, and no one else sees that it was closed. -/
theorem isolates_clients (f : Fleet) (before : List FleetAction) (place : Nat) (c : Client)
    (hplace : (f.run before).2.clients[place]? = some c) (actions : List FleetAction) :
    let now := (f.run before).2
    (∀ f' : Fleet, f'.store = now.store → ∀ place' c', f'.clients[place']? = some c' →
        c'.settings = c.settings → c'.isOpen = c.isOpen →
        ∀ action, SeenAlike (f'.step (.act place' action)) (now.step (.act place action))) ∧
      (∀ call, call.isCall = true → MovesFreely f before actions place c call) ∧
      (now.run actions).2.clients[place]? =
        some ((actions.filterMap (FleetAction.own place)).foldl Client.after c) ∧
      ClosesOff now place actions := by
  intro now
  refine ⟨fun f' hstore place' c' hplace' hsettings hopen action => ?_,
    fun call hcall => movesFreely hplace hcall actions, run_client hplace actions,
    closesOff hplace actions⟩
  obtain ⟨hanswer, hasks, -⟩ := exchange_congr c' c hsettings hopen now.store action
  rw [step_act hplace', step_act hplace, hstore]
  refine ⟨?_, ?_⟩
  · show [(action, _)] = [(action, _)]
    rw [hanswer]
  · show now.store.acts _ = now.store.acts _
    rw [hasks]

/-- A client submits a job and is closed, and its next request is refused. Another polls the job
and submits one of its own, with the same results as if the first had only fallen silent; and
it might as well have made the first request. -/
theorem isolates_clients_closed :
    let r : ScanRequest := ⟨"test", "demo", "geo", "move", .array [.null], none, none⟩
    let f : Fleet := ⟨[.new .standard, .new .standard], .standard⟩
    let other : List FleetAction := [.act 1 (.scanInfo 1 none), .act 1 (.scanApply r)]
    let now := (f.run [.act 0 (.scanApply r)]).2
    let closed := now.run (.act 0 .close :: .act 0 (.scanApply r) :: other)
    now.clients.map Client.ledger = [⟨2, 2⟩, ⟨0, 0⟩] ∧
      closed.2.step (.act 0 (.scanApply r)) =
        ([⟨⟨.standard, false, ⟨2, 2⟩⟩, .scanApply r, .applied (.ok (.error closedReport))⟩],
          closed.2) ∧
      closed.2.store = (now.run other).2.store ∧ closed.2.store.submitCalls = 2 ∧
      now.resultsAt 1 (.act 0 .close :: .act 0 (.scanApply r) :: other) = now.resultsAt 1 other ∧
      SeenAlike (f.run (.act 1 (.scanApply r) :: .act 0 (.scanApply r) :: other))
        (f.run (.act 0 (.scanApply r) :: .act 0 (.scanApply r) :: other)) := by
  intro r f other now closed
  have hplace : now.clients[0]? = some ⟨.standard, true, ⟨2, 2⟩⟩ := by rfl
  obtain ⟨-, -, -, hcloses⟩ := isolates_clients f [.act 0 (.scanApply r)] 0
    ⟨.standard, true, ⟨2, 2⟩⟩ hplace (.act 0 (.scanApply r) :: other)
  obtain ⟨-, hmoves, -, -⟩ := isolates_clients f [] 0 (.new .standard) rfl
    (.act 0 (.scanApply r) :: other)
  have hkept : ∀ action ∈ FleetAction.act 0 (.scanApply r) :: other,
      action.renews 0 = false := by decide
  obtain ⟨c', hc', hrefused, -⟩ := hcloses.refused hkept
  have hc : closed.2.clients[0]? = some ⟨.standard, false, ⟨2, 2⟩⟩ := by rfl
  obtain rfl := Option.some.inj (hc'.symm.trans hc)
  refine ⟨rfl, hrefused r, hcloses.store, by decide +kernel, (hcloses.others 1 nofun).1, ?_⟩
  exact (hmoves (.scanApply r) rfl).toOther 1 (.new .standard) rfl rfl rfl

end BackgroundScan
