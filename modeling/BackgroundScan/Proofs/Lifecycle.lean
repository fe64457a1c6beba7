import BackgroundScan.Proofs.Calls

/-!
# The stages that a call goes through

A call notes every move from one stage to the next. Between its moves it notes what
happens at the store and to its leases, and before it moves to the failed stage it
reports its failure. All of this has one form, wherever the call ends: the checks, the
work if there is any, and the closing.

1. `Event.move?` and `Event.isOfWork`: what kind of event it is. `movesOf` and
   `stagesMet`: the moves among events, and the stages to which they lead.
2. `Journal.Adds`: what a part of a call notes. `finish_of_canAdvanceTo`: how a call ends.
   `endCall_events`: what the end of a call notes.
3. `CallTrace`: the form of the events of a call. `scanApply_trace` and `scanInfo_trace`:
   both calls have it.
4. `Passage` and `Lifecycle`: what can be seen in the moves and in the events of a call.
   `goes_through_its_stages`: both calls go through their stages so.
-/

namespace BackgroundScan

/-! ## 1. Kinds of events -/

/-- A move of a call from one stage to another. -/
structure Move where
  operation : Operation
  origin : Stage
  target : Stage
  deriving DecidableEq, Repr

namespace Event

/-- The move that an event notes, if it does. -/
def move? : Event → Option Move
  | moved operation origin target => some ⟨operation, origin, target⟩
  | _ => none

/-- Whether an event reports the failure of a call. -/
def isFailureReport : Event → Bool
  | callFailed _ _ _ => true
  | _ => false

/-- Whether an event is about an answer of the store or about a lease. -/
def isOfWork : Event → Bool
  | accepted _ _ _ => true
  | submitFailed _ _ _ => true
  | statusRead _ _ _ => true
  | queryFailed _ _ => true
  | remapFailed _ _ => true
  | acquired _ => true
  | released _ => true
  | abandoned _ _ => true
  | _ => false

/-- Whether an event is neither a move nor the report of a failure. -/
def Quiet (e : Event) : Prop := e.move? = none ∧ e.isFailureReport = false

/-- Whether an event is quiet and not one of the work. -/
def Aside (e : Event) : Prop := e.Quiet ∧ e.isOfWork = false

end Event

/-- The moves among several events. -/
def movesOf (events : List Event) : List Move := events.filterMap Event.move?

/-- The stages that a call meets with these moves. -/
def stagesMet (moves : List Move) : List Stage := .start :: moves.map Move.target

/-! ## 2. What the parts of a call note -/

/-- A part of a call adds events of this kind, after those that there are. -/
def Journal.Adds (P : Event → Prop) (j j' : Journal) : Prop :=
  ∃ added, j'.events = j.events ++ added ∧ ∀ e ∈ added, P e

namespace LifecycleLemmas

variable {P : Event → Prop}

theorem adds_refl (j : Journal) : j.Adds P j :=
  ⟨[], (List.append_nil _).symm, fun _ he => absurd he List.not_mem_nil⟩

theorem adds_note {j j' : Journal} (h : j.Adds P j') {e : Event} (he : P e) :
    j.Adds P (j'.note e) := by
  obtain ⟨added, hevents, hadded⟩ := h
  refine ⟨added ++ [e], ?_, ?_⟩
  · rw [Journal.events_note, hevents, List.append_assoc]
  · exact List.forall_mem_append.mpr ⟨hadded, List.forall_mem_singleton.mpr he⟩

theorem adds_noteIfAny {j j' : Journal} (h : j.Adds P j') {e : Option Event}
    (he : ∀ event, e = some event → P event) : j.Adds P (j'.noteIfAny e) := by
  cases e with
  | none => exact h
  | some event => exact adds_note h (he event rfl)

theorem adds_acquire {j j' : Journal} (h : j.Adds Event.Quiet j') (r : Resource) :
    j.Adds Event.Quiet (j'.acquire r) := adds_note h ⟨rfl, rfl⟩

theorem adds_release {j j' : Journal} (h : j.Adds Event.Quiet j') (r : Resource) :
    j.Adds Event.Quiet (j'.release r) := adds_note h ⟨rfl, rfl⟩

theorem adds_closeJob {j j' : Journal} (h : j.Adds Event.Quiet j') (job : Job) :
    j.Adds Event.Quiet (j'.closeJob job) := by
  unfold Journal.closeJob
  cases job.udf with
  | none => exact adds_release h .descriptor
  | some udf => exact adds_release (adds_release h .argList) .descriptor

theorem aside_policyError (e : PolicyError) : ∀ event, e.event = some event → event.Aside := by
  intro event h
  cases e with
  | notAnObject policy => cases h
  | shape policy cause =>
    obtain rfl := Option.some.inj h
    exact ⟨⟨rfl, rfl⟩, rfl⟩

theorem quiet_optionsError (e : OptionsError) :
    ∀ event, e.event = some event → event.Quiet := by
  intro event h
  cases e with
  | shape cause =>
    obtain rfl := Option.some.inj h
    exact ⟨rfl, rfl⟩
  | notAnObject | percentAbove percent | unknownPriority code => cases h

theorem adds_opened (j : Journal) :
    (j.note (.moved .scanApply .validating .building)).Adds Event.Quiet (BuildEnd.opened j) :=
  adds_acquire (adds_refl _) .descriptor

theorem adds_dropped {j j' : Journal} (h : j.Adds Event.Quiet j') :
    j.Adds Event.Quiet (BuildEnd.dropped j') :=
  adds_release (adds_note h ⟨rfl, rfl⟩) .descriptor

/-- A build that begins its work notes nothing after it but quiet events. -/
theorem adds_leave {b : BuildEnd} (h : b.stage = .building) (j : Journal) :
    (j.note (.moved .scanApply .validating .building)).Adds Event.Quiet (b.leave j) := by
  have hopened := adds_opened j
  cases b with
  | refused e => cases h
  | policyRefused e =>
    exact adds_dropped (adds_noteIfAny hopened fun event he => (aside_policyError e event he).1)
  | optionsRefused e => exact adds_dropped (adds_noteIfAny hopened (quiet_optionsError e))
  | argumentsRefused e => exact adds_dropped hopened
  | notAttached =>
    exact adds_release (adds_release (adds_note (adds_acquire hopened .argList) ⟨rfl, rfl⟩)
      .descriptor) .argList
  | built job => exact adds_acquire hopened .argList

theorem adds_submitJob {j j' : Journal} (h : j.Adds Event.Quiet j') (s : Store)
    (policy : Option ScanPolicy) (job : Job) :
    j.Adds Event.Quiet (submitJob s policy job j').2.2 := by
  unfold submitJob
  rcases s.submit policy job with ⟨e | id, s'⟩
  · exact adds_note h ⟨rfl, rfl⟩
  · exact adds_note h ⟨rfl, rfl⟩

theorem adds_queryStatus {j j' : Journal} (h : j.Adds Event.Quiet j') (s : Store)
    (policy : Option InfoPolicy) (id : JobId) :
    j.Adds Event.Quiet (queryStatus s policy id j').2.2 := by
  unfold queryStatus
  rcases s.query policy id with ⟨e | info, s'⟩
  · exact adds_note h ⟨rfl, rfl⟩
  · dsimp only
    cases Snapshot.ofInfo info s'.statusOffset with
    | error e => exact adds_note h ⟨rfl, rfl⟩
    | ok snapshot => exact adds_note h ⟨rfl, rfl⟩

theorem adds_preparePolicy (baseline : InfoPolicy) (policy : Option Json) (j : Journal) :
    j.Adds Event.Aside (preparePolicy baseline policy j).2 := by
  unfold preparePolicy
  cases Policy.resolve baseline policy with
  | error e => exact adds_noteIfAny (adds_refl j) (aside_policyError e)
  | ok prepared => exact adds_refl j

end LifecycleLemmas

/-- Whether each stage may follow the one before it. -/
def Stage.isPath : List Stage → Bool
  | a :: b :: rest => a.canAdvanceTo b && isPath (b :: rest)
  | _ => true

/-- The moves of a call that goes from one stage through others. -/
def Move.along (operation : Operation) : Stage → List Stage → List Move
  | _, [] => []
  | origin, target :: rest => ⟨operation, origin, target⟩ :: along operation target rest

/-- The event that notes a move. -/
def Move.event (m : Move) : Event := .moved m.operation m.origin m.target

/-- The events at the end of a call that is in this stage. -/
def closing {α : Type} (operation : Operation) (stage : Stage) : Except Failure α → List Event
  | .ok _ => (Move.along operation stage [.success, .cleanup, .done]).map Move.event
  | .error f =>
    .callFailed operation stage f ::
      (Move.along operation stage [.failed, .cleanup, .done]).map Move.event

namespace LifecycleLemmas

theorem isPath_cons {a b : Stage} {rest : List Stage} :
    Stage.isPath (a :: b :: rest) = true ↔
      a.canAdvanceTo b = true ∧ Stage.isPath (b :: rest) = true :=
  Bool.and_eq_true_iff

/-- Moves that are allowed are all noted. -/
theorem enterAll_events (call : Call) {targets : List Stage}
    (h : Stage.isPath (call.stage :: targets) = true) (j : Journal) :
    (call.enterAll j targets).2.events =
      j.events ++ (Move.along call.operation call.stage targets).map Move.event := by
  induction targets generalizing call j with
  | nil => exact (List.append_nil _).symm
  | cons target rest ih =>
    obtain ⟨hfirst, hrest⟩ := isPath_cons.mp h
    rw [Call.enterAll, enter_of_canAdvanceTo hfirst]
    dsimp only
    rw [ih ⟨call.operation, target⟩ hrest, Journal.events_note, List.append_assoc]
    rfl

/-- Moves that are allowed are all made. -/
theorem enterAll_fst (call : Call) {targets : List Stage}
    (h : Stage.isPath (call.stage :: targets) = true) (j : Journal) :
    (call.enterAll j targets).1 = .ok () := by
  induction targets generalizing call j with
  | nil => rfl
  | cons target rest ih =>
    obtain ⟨hfirst, hrest⟩ := isPath_cons.mp h
    rw [Call.enterAll, enter_of_canAdvanceTo hfirst]
    exact ih ⟨call.operation, target⟩ hrest _

end LifecycleLemmas

open LifecycleLemmas

/-- A call that may move to the stage of its outcome ends with the outcome, reported if it is a
failure, and notes its closing. -/
theorem finish_of_canAdvanceTo {α : Type} (call : Call) (outcome : Except Failure α) (j : Journal)
    (h : call.stage.canAdvanceTo (if outcome.isOk then .success else .failed) = true) :
    (call.finish outcome j).1 = .ok (outcome.mapError Failure.report) ∧
      (call.finish outcome j).2.events =
        j.events ++ closing call.operation call.stage outcome := by
  cases outcome with
  | ok value =>
    have hpath : Stage.isPath (call.stage :: [.success, .cleanup, .done]) = true :=
      isPath_cons.mpr ⟨h, rfl⟩
    refine ⟨?_, enterAll_events call hpath j⟩
    show (call.enterAll j [.success, .cleanup, .done]).1.map (fun _ => _) = _
    rw [enterAll_fst call hpath]
    rfl
  | error f =>
    have hpath : Stage.isPath (call.stage :: [.failed, .cleanup, .done]) = true :=
      isPath_cons.mpr ⟨h, rfl⟩
    constructor
    · show (call.enterAll (j.note _) [.failed, .cleanup, .done]).1.map (fun _ => _) = _
      rw [enterAll_fst call hpath]
      rfl
    · refine (enterAll_events call hpath _).trans ?_
      rw [Journal.events_note, List.append_assoc]
      rfl

/-- A call that may still fail notes the report and three moves. -/
theorem endCall_failed_events {α : Type} (c : Client) (s : Store) {call : Call} (j : Journal)
    (f : Failure) (h : call.stage.canAdvanceTo .failed = true) :
    (c.endCall s call j (.error (.failure f)) : Ended α).events =
      j.events ++ closing call.operation call.stage (.error f : Except Failure α) :=
  (finish_of_canAdvanceTo call (.error f) j h).2

/-- A call in its work stage notes how it ends. -/
theorem endCall_events {α : Type} (c : Client) (s : Store) (operation : Operation) (j : Journal)
    (outcome : Except Failure α) :
    (c.endCall s ⟨operation, operation.workStage⟩ j (outcome.mapError .failure)).events =
      j.events ++ closing operation operation.workStage outcome := by
  cases outcome with
  | error f => exact endCall_failed_events c s j f (by cases operation <;> rfl)
  | ok value =>
    have hallowed : operation.workStage.canAdvanceTo .success = true := by
      cases operation <;> rfl
    exact (finish_of_canAdvanceTo ⟨operation, operation.workStage⟩ (.ok value) j hallowed).2

/-! ## 3. The form of the events -/

/-- The events of a call that makes its checks. -/
def opening (operation : Operation) (checks : List Event) : List Event :=
  .moved operation .start .validating :: checks

/-- The events of a call that ends with a result. -/
inductive CallTrace {α : Type} (operation : Operation) : Except Report α → List Event → Prop
  /-- A check fails before the work begins. -/
  | refused (checks : List Event) (f : Failure) (hchecks : ∀ e ∈ checks, e.Aside) :
    CallTrace operation (.error f.report)
      (opening operation checks ++ closing operation .validating (.error f : Except Failure α))
  /-- The work is done, and may fail. -/
  | worked (checks work : List Event) (outcome : Except Failure α)
      (hchecks : ∀ e ∈ checks, e.Aside) (hwork : ∀ e ∈ work, e.Quiet) :
    CallTrace operation (outcome.mapError Failure.report)
      (opening operation checks ++ .moved operation .validating operation.workStage ::
        (work ++ closing operation operation.workStage outcome))

/-- The journal of a call that has just started. -/
def Journal.begun (operation : Operation) (l : Ledger) : Journal :=
  (Journal.start l).note (.moved operation .start .validating)

namespace LifecycleLemmas

/-- A call that notes its checks and is refused has the form of one. -/
theorem trace_refused {α : Type} {operation : Operation} {l : Ledger} {j : Journal}
    (h : (Journal.begun operation l).Adds Event.Aside j) (c : Client) (s : Store) (f : Failure) :
    CallTrace operation (.error f.report : Except Report α)
      (c.endCall s ⟨operation, .validating⟩ j (.error (.failure f)) : Ended α).events := by
  obtain ⟨checks, hevents, hchecks⟩ := h
  have hend : (c.endCall s ⟨operation, .validating⟩ j (.error (.failure f)) : Ended α).events =
      j.events ++ closing operation .validating (.error f : Except Failure α) :=
    endCall_failed_events c s j f rfl
  rw [hend, hevents]
  exact .refused checks f hchecks

/-- So has a call that notes its checks, begins its work and ends it. -/
theorem trace_worked {α : Type} {operation : Operation} {l : Ledger} {j j' : Journal}
    (h : (Journal.begun operation l).Adds Event.Aside j)
    (h' : (j.note (.moved operation .validating operation.workStage)).Adds Event.Quiet j')
    (c : Client) (s : Store) (outcome : Except Failure α) :
    CallTrace operation (outcome.mapError Failure.report)
      (c.endCall s ⟨operation, operation.workStage⟩ j' (outcome.mapError .failure)).events := by
  obtain ⟨checks, hevents, hchecks⟩ := h
  obtain ⟨work, hevents', hwork⟩ := h'
  have hall : j'.events ++ closing operation operation.workStage outcome =
      opening operation checks ++ .moved operation .validating operation.workStage ::
        (work ++ closing operation operation.workStage outcome) := by
    rw [hevents', Journal.events_note, hevents]
    simp only [Journal.begun, Journal.start, Journal.events_note, opening, List.nil_append,
      List.append_assoc, List.cons_append]
  rw [endCall_events, hall]
  exact .worked checks work outcome hchecks hwork

end LifecycleLemmas

/-- The events of a submission have the form of those of a call. -/
theorem scanApply_trace (c : Client) (s : Store) (r : ScanRequest) :
    ∃ result, (c.scanApply s r).outcome = .ok result ∧
      CallTrace .scanApply result (c.scanApply s r).events := by
  have hleave := @adds_leave (r.buildEnd c.settings c.isOpen)
  unfold Client.scanApply
  simp only [Call.start, build_eq]
  revert hleave
  cases r.buildEnd c.settings c.isOpen with
  | refused e =>
    exact fun _ => ⟨_, endCall_failed _ _ _ _ rfl, trace_refused (adds_refl _) _ _ _⟩
  | built job =>
    intro hleave
    have hwork := adds_closeJob
      (adds_submitJob (hleave rfl (.begun .scanApply c.ledger)) s job.policy job) job
    exact ⟨_, endCall_outcome _ _ .scanApply _ _, trace_worked (adds_refl _) hwork _ _ _⟩
  | policyRefused e | optionsRefused e | argumentsRefused e | notAttached =>
    intro hleave
    have hwork := hleave rfl (.begun .scanApply c.ledger)
    exact ⟨_, endCall_failed _ _ _ _ rfl, trace_worked (adds_refl _) hwork _ _ (.error _)⟩

/-- So have those of a status query. -/
theorem scanInfo_trace (c : Client) (s : Store) (id : JobId) (policy : Option Json) :
    ∃ result, (c.scanInfo s id policy).outcome = .ok result ∧
      CallTrace .scanInfo result (c.scanInfo s id policy).events := by
  unfold Client.scanInfo
  cases c.isOpen with
  | false =>
    simp only [Call.start, Bool.false_eq_true, ↓reduceIte]
    exact ⟨_, endCall_failed _ _ _ _ rfl, trace_refused (adds_refl _) _ _ _⟩
  | true =>
    have hprepare := adds_preparePolicy c.settings.infoPolicy policy (.begun .scanInfo c.ledger)
    have hbegin : ∀ j, (⟨.scanInfo, .validating⟩ : Call).beginWork j =
        .ok (⟨.scanInfo, .querying⟩, j.note (.moved .scanInfo .validating .querying)) :=
      fun _ => rfl
    simp only [Call.start, hbegin, ↓reduceIte]
    revert hprepare
    unfold Journal.begun
    rcases preparePolicy c.settings.infoPolicy policy _ with ⟨f | prepared, j⟩
    · exact fun hprepare => ⟨_, endCall_failed _ _ _ _ rfl, trace_refused hprepare _ _ _⟩
    · intro hprepare
      have hwork := adds_queryStatus
        (adds_refl (j.note (.moved .scanInfo .validating .querying))) s prepared id
      exact ⟨_, endCall_outcome _ _ .scanInfo _ _, trace_worked hprepare hwork _ _ _⟩

/-! ## 4. What can be seen in the events -/

/-- How the moves of a call go on that succeeds or not. -/
structure Passage (operation : Operation) (succeeded : Bool) (moves : List Move) : Prop where
  first : moves.head? = some ⟨operation, .start, .validating⟩
  linked : ∀ before m next after, moves = before ++ m :: next :: after → next.origin = m.target
  allowed : ∀ m ∈ moves, m.origin.canAdvanceTo m.target = true
  last : moves.getLast? = some ⟨operation, .cleanup, .done⟩
  once : (stagesMet moves).Nodup
  ofOperation : ∀ m ∈ moves, m.operation = operation
  worksToSucceed : succeeded = true → operation.workStage ∈ stagesMet moves
  noOtherWork : ∀ other, other ≠ operation → other.workStage ∉ stagesMet moves
  succeeds : .success ∈ stagesMet moves ↔ succeeded = true
  fails : .failed ∈ stagesMet moves ↔ succeeded = false

/-- What can be seen in the events of a call that ends with a result. -/
structure Lifecycle {α : Type} (operation : Operation) (result : Except Report α)
    (events : List Event) : Prop where
  passage : Passage operation result.isOk (movesOf events)
  /-- A failure is reported once, right before the move that it causes. -/
  reported : ∀ report, result = .error report → ∃ before stage after,
    events = before ++ .callFailed operation stage ⟨report.kind, report.message⟩ ::
        .moved operation stage .failed :: after ∧
      (stagesMet (movesOf before)).getLast? = some stage ∧
      ∀ e ∈ before ++ after, e.isFailureReport = false
  unreported : ∀ value, result = .ok value → ∀ e ∈ events, e.isFailureReport = false
  /-- What is of the work comes after its beginning, and before the report and the move
  that end it. -/
  confined : ∀ before e after, events = before ++ e :: after → e.isOfWork = true →
    .moved operation .validating operation.workStage ∈ before ∧
      (∀ e ∈ before, e.isFailureReport = false) ∧
      ∃ target, (target = .success ∨ target = .failed) ∧
        .moved operation operation.workStage target ∈ after

namespace LifecycleLemmas

theorem along_linked {operation : Operation} {origin : Stage} {targets : List Stage}
    {before after : List Move} {m next : Move}
    (h : Move.along operation origin targets = before ++ m :: next :: after) :
    next.origin = m.target := by
  induction before generalizing origin targets with
  | nil =>
    match targets, h with
    | _ :: _ :: _, h =>
      obtain ⟨rfl, htail⟩ := List.cons.inj h
      obtain ⟨rfl, -⟩ := List.cons.inj htail
      rfl
  | cons first before ih =>
    match targets, h with
    | _ :: _, h => exact ih (List.cons.inj h).2

theorem along_allowed {operation : Operation} {origin : Stage} {targets : List Stage}
    (h : Stage.isPath (origin :: targets) = true) :
    ∀ m ∈ Move.along operation origin targets, m.origin.canAdvanceTo m.target = true := by
  induction targets generalizing origin with
  | nil => exact fun m hm => absurd hm List.not_mem_nil
  | cons target rest ih =>
    obtain ⟨hfirst, hrest⟩ := isPath_cons.mp h
    exact List.forall_mem_cons.mpr ⟨hfirst, ih hrest⟩

theorem along_operation (operation : Operation) (origin : Stage) (targets : List Stage) :
    ∀ m ∈ Move.along operation origin targets, m.operation = operation := by
  induction targets generalizing origin with
  | nil => exact fun m hm => absurd hm List.not_mem_nil
  | cons target rest ih => exact List.forall_mem_cons.mpr ⟨rfl, ih target⟩

theorem along_targets (operation : Operation) (origin : Stage) (targets : List Stage) :
    (Move.along operation origin targets).map Move.target = targets := by
  induction targets generalizing origin with
  | nil => rfl
  | cons target rest ih => rw [Move.along, List.map_cons, ih]

theorem along_last (operation : Operation) (origin : Stage) (before : List Stage)
    (stage target : Stage) :
    (Move.along operation origin (before ++ [stage, target])).getLast? =
      some ⟨operation, stage, target⟩ := by
  induction before generalizing origin with
  | nil => rfl
  | cons first rest ih =>
    rw [List.cons_append, Move.along, List.getLast?_cons, ih]
    rfl

theorem rank_lt_of_isPath {stage : Stage} {stages : List Stage}
    (h : Stage.isPath (stage :: stages) = true) : ∀ later ∈ stages, stage.rank < later.rank := by
  induction stages generalizing stage with
  | nil => exact fun later hlater => absurd hlater List.not_mem_nil
  | cons next rest ih =>
    obtain ⟨hfirst, hrest⟩ := isPath_cons.mp h
    have hnext : stage.rank < next.rank := Stage.rank_lt_of_canAdvanceTo hfirst
    exact List.forall_mem_cons.mpr
      ⟨hnext, fun later hlater => Nat.lt_trans hnext (ih hrest later hlater)⟩

/-- No stage comes twice on a path: each step goes forward. -/
theorem nodup_of_isPath {stages : List Stage} (h : Stage.isPath stages = true) :
    stages.Nodup := by
  induction stages with
  | nil => exact List.nodup_nil
  | cons stage rest ih =>
    have hrest : Stage.isPath rest = true := by
      cases rest with
      | nil => rfl
      | cons next rest => exact (isPath_cons.mp h).2
    exact List.nodup_cons.mpr
      ⟨fun hmem => Nat.lt_irrefl _ (rank_lt_of_isPath h stage hmem), ih hrest⟩

/-- What a passage goes through besides the stages that every call meets. -/
theorem mem_met_iff {operation : Operation} {middle : List Stage} {stage : Stage}
    (h : stage ∉ [Stage.start, .validating, .cleanup, .done]) :
    stage ∈ stagesMet
        (Move.along operation .start (.validating :: (middle ++ [.cleanup, .done]))) ↔
      stage ∈ middle := by
  simp only [List.mem_cons, List.not_mem_nil, or_false, not_or] at h
  simp [stagesMet, along_targets, h]

theorem workStage_notMem (operation : Operation) :
    operation.workStage ∉ [Stage.start, .validating, .cleanup, .done] := by
  cases operation <;> decide

/-- Moves along stages that are allowed are a passage if the right ones are in the middle. -/
theorem passage_along {operation : Operation} {succeeded : Bool} (middle : List Stage)
    (hpath : Stage.isPath (.start :: .validating :: (middle ++ [.cleanup, .done])) = true)
    (hworks : succeeded = true → operation.workStage ∈ middle)
    (hother : ∀ other, other ≠ operation → other.workStage ∉ middle)
    (hsucceeds : .success ∈ middle ↔ succeeded = true)
    (hfails : .failed ∈ middle ↔ succeeded = false) :
    Passage operation succeeded
      (Move.along operation .start (.validating :: (middle ++ [.cleanup, .done]))) where
  first := rfl
  linked _ _ _ _ := along_linked
  allowed := along_allowed hpath
  last := along_last _ _ (.validating :: middle) _ _
  once := by
    rw [stagesMet, along_targets]
    exact nodup_of_isPath hpath
  ofOperation := along_operation _ _ _
  worksToSucceed h := (mem_met_iff (workStage_notMem operation)).mpr (hworks h)
  noOtherWork other hne h := hother other hne ((mem_met_iff (workStage_notMem other)).mp h)
  succeeds := (mem_met_iff (by decide)).trans hsucceeds
  fails := (mem_met_iff (by decide)).trans hfails

/-- A refusal is the passage of a call that fails. -/
theorem passage_refused (operation : Operation) :
    Passage operation false (Move.along operation .start [.validating, .failed, .cleanup, .done]) :=
  passage_along [.failed] (by decide) nofun
    (fun other _ => by cases other <;> decide) (by decide) (by decide)

/-- Work is the passage of a call that succeeds or fails with the work. -/
theorem passage_worked (operation : Operation) (succeeded : Bool) :
    Passage operation succeeded (Move.along operation .start
      [.validating, operation.workStage, if succeeded then .success else .failed,
        .cleanup, .done]) := by
  refine passage_along [operation.workStage, if succeeded then .success else .failed]
    ?_ (fun _ => List.mem_cons_self) ?_ ?_ ?_
  · cases operation <;> cases succeeded <;> decide
  · intro other
    cases operation <;> cases other <;> cases succeeded <;> decide
  · cases operation <;> cases succeeded <;> decide
  · cases operation <;> cases succeeded <;> decide

theorem movesOf_append (events events' : List Event) :
    movesOf (events ++ events') = movesOf events ++ movesOf events' :=
  List.filterMap_append

theorem movesOf_cons (operation : Operation) (origin target : Stage) (events : List Event) :
    movesOf (.moved operation origin target :: events) =
      ⟨operation, origin, target⟩ :: movesOf events := rfl

theorem movesOf_quiet {events : List Event} (h : ∀ e ∈ events, e.Quiet) : movesOf events = [] :=
  List.filterMap_eq_nil_iff.mpr fun e he => (h e he).1

theorem movesOf_closing {α : Type} (operation : Operation) (stage : Stage)
    (outcome : Except Failure α) :
    movesOf (closing operation stage outcome) = Move.along operation stage
      [if outcome.isOk then .success else .failed, .cleanup, .done] := by
  cases outcome <;> rfl

theorem opening_quiet (operation : Operation) {checks : List Event}
    (h : ∀ e ∈ checks, e.Aside) :
    movesOf (opening operation checks) = Move.along operation .start [.validating] ∧
      ∀ e ∈ opening operation checks, e.isFailureReport = false := by
  refine ⟨?_, List.forall_mem_cons.mpr ⟨rfl, fun e he => (h e he).1.2⟩⟩
  rw [opening, movesOf_cons, movesOf_quiet fun e he => (h e he).1]
  rfl

theorem opening_notWork (operation : Operation) {checks : List Event}
    (h : ∀ e ∈ checks, e.Aside) : ∀ e ∈ opening operation checks, e.isOfWork = false :=
  List.forall_mem_cons.mpr ⟨rfl, fun e he => (h e he).2⟩

/-- What a call notes before its closing: it reports nothing, and its moves lead to the
stage in which it ends. -/
theorem trace_closing {α : Type} {operation : Operation} {result : Except Report α}
    {events : List Event} (h : CallTrace operation result events) :
    ∃ before stage outcome, events = before ++ closing operation stage outcome ∧
      result = outcome.mapError Failure.report ∧
      (∀ e ∈ before, e.isFailureReport = false) ∧
      (movesOf before = Move.along operation .start [.validating] ∧ stage = .validating ∧
          outcome.isOk = false ∨
        movesOf before = Move.along operation .start [.validating, operation.workStage] ∧
          stage = operation.workStage) := by
  cases h with
  | refused checks f hchecks =>
    obtain ⟨hmoves, hnone⟩ := opening_quiet operation hchecks
    exact ⟨opening operation checks, .validating, .error f, rfl, rfl, hnone,
      .inl ⟨hmoves, rfl, rfl⟩⟩
  | worked checks work outcome hchecks hwork =>
    obtain ⟨hmoves, hnone⟩ := opening_quiet operation hchecks
    refine ⟨opening operation checks ++ .moved operation .validating operation.workStage :: work,
      operation.workStage, outcome, by simp only [List.cons_append, List.append_assoc], rfl, ?_,
      .inr ⟨?_, rfl⟩⟩
    · exact List.forall_mem_append.mpr
        ⟨hnone, List.forall_mem_cons.mpr ⟨rfl, fun e he => (hwork e he).2⟩⟩
    · rw [movesOf_append, hmoves, movesOf_cons, movesOf_quiet hwork]
      rfl

/-- A split at an element that the first part lacks is a split of the rest. -/
theorem split_rest {γ : Type} {left rest before after : List γ} {x : γ} (hx : x ∉ left)
    (h : left ++ rest = before ++ x :: after) :
    ∃ first, before = left ++ first ∧ rest = first ++ x :: after := by
  induction left generalizing before with
  | nil => exact ⟨before, rfl, h⟩
  | cons y left ih =>
    cases before with
    | nil => exact absurd ((List.cons.inj h).1 ▸ List.mem_cons_self) hx
    | cons z before =>
      obtain ⟨rfl, htail⟩ := List.cons.inj h
      obtain ⟨first, rfl, hrest⟩ := ih (List.not_mem_of_not_mem_cons hx) htail
      exact ⟨first, rfl, hrest⟩

/-- A split at an element that the last part lacks is a split of what comes before it. -/
theorem split_front {γ : Type} {front right before after : List γ} {x : γ} (hx : x ∉ right)
    (h : front ++ right = before ++ x :: after) :
    ∃ last, front = before ++ x :: last ∧ after = last ++ right := by
  induction front generalizing before with
  | nil =>
    have hmem : x ∈ right := by
      rw [show right = before ++ x :: after from h]
      exact List.mem_append_right before List.mem_cons_self
    exact absurd hmem hx
  | cons y front ih =>
    cases before with
    | nil =>
      obtain ⟨rfl, htail⟩ := List.cons.inj h
      exact ⟨front, rfl, htail.symm⟩
    | cons z before =>
      obtain ⟨rfl, htail⟩ := List.cons.inj h
      obtain ⟨last, rfl, hafter⟩ := ih htail
      exact ⟨last, rfl, hafter⟩

theorem moves_notWork (moves : List Move) : ∀ e ∈ moves.map Move.event, e.isOfWork = false :=
  List.forall_mem_map.mpr fun _ _ => rfl

theorem moves_unreported (moves : List Move) :
    ∀ e ∈ moves.map Move.event, e.isFailureReport = false :=
  List.forall_mem_map.mpr fun _ _ => rfl

theorem closing_notWork {α : Type} (operation : Operation) (stage : Stage)
    (outcome : Except Failure α) :
    ∀ e ∈ closing operation stage outcome, e.isOfWork = false := by
  cases outcome with
  | error f => exact List.forall_mem_cons.mpr ⟨rfl, moves_notWork _⟩
  | ok value => exact moves_notWork _

theorem closing_moves {α : Type} (operation : Operation) (stage : Stage)
    (outcome : Except Failure α) :
    ∃ target, (target = .success ∨ target = .failed) ∧
      .moved operation stage target ∈ closing operation stage outcome := by
  cases outcome with
  | error f => exact ⟨.failed, .inr rfl, List.mem_cons_of_mem _ List.mem_cons_self⟩
  | ok value => exact ⟨.success, .inl rfl, List.mem_cons_self⟩

theorem notMem_of_isOfWork {e : Event} (he : e.isOfWork = true) {events : List Event}
    (h : ∀ e ∈ events, e.isOfWork = false) : e ∉ events :=
  fun hmem => Bool.false_ne_true ((h e hmem).symm.trans he)

theorem passage_of_trace {α : Type} {operation : Operation} {result : Except Report α}
    {events : List Event} (h : CallTrace operation result events) :
    Passage operation result.isOk (movesOf events) := by
  obtain ⟨before, stage, outcome, rfl, rfl, -, hmoves⟩ := trace_closing h
  have hok : (outcome.mapError Failure.report).isOk = outcome.isOk := by cases outcome <;> rfl
  rw [hok, movesOf_append, movesOf_closing]
  rcases hmoves with ⟨hbefore, rfl, hfailed⟩ | ⟨hbefore, rfl⟩
  · rw [hbefore, hfailed]
    exact passage_refused operation
  · rw [hbefore]
    exact passage_worked operation outcome.isOk

theorem reported_of_trace {α : Type} {operation : Operation} {report : Report}
    {events : List Event} (h : CallTrace operation (.error report : Except Report α) events) :
    ∃ before stage after,
      events = before ++ .callFailed operation stage ⟨report.kind, report.message⟩ ::
          .moved operation stage .failed :: after ∧
        (stagesMet (movesOf before)).getLast? = some stage ∧
        ∀ e ∈ before ++ after, e.isFailureReport = false := by
  obtain ⟨before, stage, outcome, rfl, hresult, hnone, hmoves⟩ := trace_closing h
  cases outcome with
  | ok value => cases hresult
  | error f =>
    obtain rfl := Except.error.inj hresult
    refine ⟨before, stage, (Move.along operation .failed [.cleanup, .done]).map Move.event, rfl,
      ?_, List.forall_mem_append.mpr ⟨hnone, moves_unreported _⟩⟩
    rcases hmoves with ⟨hbefore, rfl, -⟩ | ⟨hbefore, rfl⟩
    · rw [hbefore]
      rfl
    · rw [hbefore]
      rfl

theorem unreported_of_trace {α : Type} {operation : Operation} {value : α} {events : List Event}
    (h : CallTrace operation (.ok value) events) : ∀ e ∈ events, e.isFailureReport = false := by
  obtain ⟨before, stage, outcome, rfl, hresult, hnone, -⟩ := trace_closing h
  cases outcome with
  | error f => cases hresult
  | ok value => exact List.forall_mem_append.mpr ⟨hnone, moves_unreported _⟩

theorem confined_of_trace {α : Type} {operation : Operation} {result : Except Report α}
    {events before after : List Event} {e : Event} (h : CallTrace operation result events)
    (hsplit : events = before ++ e :: after) (he : e.isOfWork = true) :
    .moved operation .validating operation.workStage ∈ before ∧
      (∀ e ∈ before, e.isFailureReport = false) ∧
      ∃ target, (target = .success ∨ target = .failed) ∧
        .moved operation operation.workStage target ∈ after := by
  cases h with
  | refused checks f hchecks =>
    -- nothing in these events is of the work
    have hnone : ∀ e ∈ opening operation checks ++
        closing operation .validating (.error f : Except Failure α), e.isOfWork = false :=
      List.forall_mem_append.mpr ⟨opening_notWork operation hchecks, closing_notWork _ _ _⟩
    exact absurd (hsplit ▸ List.mem_append_right before List.mem_cons_self)
      (notMem_of_isOfWork he hnone)
  | worked checks work outcome hchecks hwork =>
    have hparts : (opening operation checks ++ [.moved operation .validating operation.workStage]) ++
        (work ++ closing operation operation.workStage outcome) = before ++ e :: after := by
      rw [← hsplit, List.append_assoc, List.singleton_append]
    have hopening : ∀ e ∈ opening operation checks ++
        [.moved operation .validating operation.workStage], e.isOfWork = false :=
      List.forall_mem_append.mpr
        ⟨opening_notWork operation hchecks, List.forall_mem_singleton.mpr rfl⟩
    obtain ⟨first, rfl, hrest⟩ := split_rest (notMem_of_isOfWork he hopening) hparts
    obtain ⟨last, rfl, rfl⟩ :=
      split_front (notMem_of_isOfWork he (closing_notWork _ _ _)) hrest
    have hfirst : ∀ e ∈ first, e.isFailureReport = false := fun e he =>
      (hwork e (List.mem_append_left _ he)).2
    obtain ⟨target, htarget, hmoved⟩ := closing_moves operation operation.workStage outcome
    refine ⟨?_, ?_, target, htarget, List.mem_append_right last hmoved⟩
    · exact List.mem_append_left first (List.mem_append_right _ List.mem_cons_self)
    · exact List.forall_mem_append.mpr ⟨List.forall_mem_append.mpr
        ⟨(opening_quiet operation hchecks).2, List.forall_mem_singleton.mpr rfl⟩, hfirst⟩

end LifecycleLemmas

/-- The events of this form show how a call goes through its stages. -/
theorem lifecycle_of_trace {α : Type} {operation : Operation} {result : Except Report α}
    {events : List Event} (h : CallTrace operation result events) :
    Lifecycle operation result events where
  passage := passage_of_trace h
  reported := by
    rintro report rfl
    exact reported_of_trace h
  unreported := by
    rintro value rfl
    exact unreported_of_trace h
  confined before e after hsplit he := confined_of_trace h hsplit he

/-- Every call of a client, at any store, goes through its stages, reports its failure and
works at the store as it should. -/
theorem goes_through_its_stages (c : Client) (s : Store) (r : ScanRequest) (id : JobId)
    (policy : Option Json) :
    (∃ result, (c.scanApply s r).outcome = .ok result ∧
        Lifecycle .scanApply result (c.scanApply s r).events) ∧
      ∃ result, (c.scanInfo s id policy).outcome = .ok result ∧
        Lifecycle .scanInfo result (c.scanInfo s id policy).events := by
  obtain ⟨applied, happlied, happlyTrace⟩ := scanApply_trace c s r
  obtain ⟨polled, hpolled, hpollTrace⟩ := scanInfo_trace c s id policy
  exact ⟨⟨applied, happlied, lifecycle_of_trace happlyTrace⟩,
    ⟨polled, hpolled, lifecycle_of_trace hpollTrace⟩⟩

example (settings : Settings) (s : Store) (id : JobId) :
    ((Client.new settings).close.scanInfo s id none).events =
      [.moved .scanInfo .start .validating,
        .callFailed .scanInfo .validating RequestError.closedClient.failure,
        .moved .scanInfo .validating .failed, .moved .scanInfo .failed .cleanup,
        .moved .scanInfo .cleanup .done] := rfl

end BackgroundScan
