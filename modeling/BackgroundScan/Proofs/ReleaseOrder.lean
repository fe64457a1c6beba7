import BackgroundScan.Proofs.FirstFailure
import BackgroundScan.Proofs.Lifecycle

/-!
# The order in which a submission releases what it holds

A submission takes a lease for its job and then one for its arguments, and gives both back before
it ends. Which of the two goes first depends on who holds the arguments when it ends: a build that
fails gives up the job and then the arguments that the job refused; a job that was built gives up
the arguments that it holds and then itself, once the store has answered. All of this can be seen in
the events.

1. `Event.isOfRelease`: the events of leases, of what is given up, and of the store's answer.
   `Passes`: the checks of a submission that find nothing. `ReleaseTrace`: the events of a
   submission, by the checks that it passes.
2. `ReleaseTrace.paired` and `ReleaseTrace.settled`: what all these traces have in common.
3. `buildEnd_passes`: the end of a build, by the checks that it passes. `filter_failed` and
   `filter_worked`: what the end of a call adds.
4. `scanApply_releaseTrace` and `scanInfo_filter`: these are the events of a submission, and a
   status query has none of them. `releases_in_order`: the same with what follows for all events.
-/

namespace BackgroundScan

open FirstFailureLemmas LifecycleLemmas SubmissionCheck CallLemmas

/-! ## 1. Events of leases -/

namespace Event

/-- Whether an event is of a lease, of what a build gives up, or of the answer to a job. -/
def isOfRelease : Event → Bool
  | acquired _ => true
  | released _ => true
  | abandoned _ _ => true
  | accepted _ _ _ => true
  | submitFailed _ _ _ => true
  | _ => false

/-- Whether an event settles that leases are given back: nothing more is done with what they stand
for. -/
def Settles : Event → Prop
  | abandoned _ _ => True
  | accepted _ _ _ => True
  | submitFailed _ _ _ => True
  | _ => False

end Event

/-- Whether checks of a submission find nothing. -/
def Passes (c : Client) (s : Store) (r : ScanRequest) (checks : List SubmissionCheck) : Prop :=
  ∀ check ∈ checks, verdict c s r check = none

/-- The event of the answer to a job. -/
def answerTo (s : Store) (r : ScanRequest) : Event :=
  match s.submitFailure with
  | some e => .submitFailed r.space r.set e
  | none => .accepted s.nextJobId r.space r.set

/-- The events of leases of a submission, with those that settle them. -/
inductive ReleaseTrace (c : Client) (s : Store) (r : ScanRequest) : List Event → Prop
  /-- Nothing is taken for a request that is refused. -/
  | refused (hgiven : ¬ Passes c s r [clientOpen, namesGiven, argumentsAreList]) :
    ReleaseTrace c s r []
  /-- A job without arguments is given up. -/
  | unprepared (hgiven : Passes c s r [clientOpen, namesGiven, argumentsAreList])
      (hprepared : ¬ Passes c s r [policy, options, arguments]) :
    ReleaseTrace c s r [.acquired .descriptor, .abandoned true false, .released .descriptor]
  /-- The arguments that a job refuses are given up after it. -/
  | notAttached (hgiven : Passes c s r [clientOpen, namesGiven, argumentsAreList])
      (hprepared : Passes c s r [policy, options, arguments]) (hfits : ¬ Passes c s r [namesFit]) :
    ReleaseTrace c s r [.acquired .descriptor, .acquired .argList, .abandoned true true,
      .released .descriptor, .released .argList]
  /-- The arguments of a job that was built are given up before it. -/
  | answered (hgiven : Passes c s r [clientOpen, namesGiven, argumentsAreList])
      (hprepared : Passes c s r [policy, options, arguments]) (hfits : Passes c s r [namesFit]) :
    ReleaseTrace c s r [.acquired .descriptor, .acquired .argList, answerTo s r,
      .released .argList, .released .descriptor]

/-! ## 2. What the traces have in common -/

namespace ReleaseTrace

variable {c : Client} {s : Store} {r : ScanRequest} {events events' : List Event}

theorem of_eq (h : ReleaseTrace c s r events) (heq : events' = events) :
    ReleaseTrace c s r events' := heq ▸ h

/-- As many leases on either resource are given back as are taken. -/
theorem paired (h : ReleaseTrace c s r events) (resource : Resource) :
    events.count (.acquired resource) = events.count (.released resource) := by
  cases h with
  | refused => rfl
  | unprepared => cases resource <;> rfl
  | notAttached => cases resource <;> rfl
  | answered =>
    unfold answerTo
    cases s.submitFailure <;> cases resource <;> rfl

/-- Nothing is given back before that is settled. -/
theorem settled (h : ReleaseTrace c s r events) {before after : List Event} {resource : Resource}
    (hsplit : events = before ++ .released resource :: after) : ∃ e ∈ before, e.Settles := by
  -- the events up to the one that settles it are no releases, so all of them come before
  have hbefore {first : List Event} {e : Event} {rest : List Event}
      (hnone : .released resource ∉ first ++ [e]) (he : e.Settles)
      (hparts : (first ++ [e]) ++ rest = before ++ .released resource :: after) :
      ∃ e ∈ before, e.Settles := by
    obtain ⟨more, rfl, -⟩ := split_rest hnone hparts
    exact ⟨e, List.mem_append_left more List.mem_concat_self, he⟩
  cases h with
  | refused =>
    have hmem : .released resource ∈ ([] : List Event) :=
      hsplit ▸ List.mem_append_right before List.mem_cons_self
    exact absurd hmem List.not_mem_nil
  | unprepared =>
    exact @hbefore [.acquired .descriptor] (.abandoned true false) [.released .descriptor]
      (by simp) trivial hsplit
  | notAttached =>
    exact @hbefore [.acquired .descriptor, .acquired .argList] (.abandoned true true)
      [.released .descriptor, .released .argList] (by simp) trivial hsplit
  | answered =>
    have hanswer : answerTo s r ≠ .released resource ∧ (answerTo s r).Settles := by
      unfold answerTo
      cases s.submitFailure with
      | none => exact ⟨by simp, trivial⟩
      | some e => exact ⟨by simp, trivial⟩
    exact @hbefore [.acquired .descriptor, .acquired .argList] (answerTo s r)
      [.released .argList, .released .descriptor] (by simp [hanswer.1.symm]) hanswer.2 hsplit

end ReleaseTrace

/-! ## 3. Builds and checks -/

namespace ReleaseOrderLemmas

theorem passes_iff (c : Client) (s : Store) (r : ScanRequest) (checks : List SubmissionCheck) :
    Passes c s r checks ↔ checks.findSome? (verdict c s r) = none :=
  List.findSome?_eq_none_iff.symm

/-- A build ends where the checks say that it does. -/
theorem buildEnd_passes (c : Client) (s : Store) (r : ScanRequest) :
    let given := Passes c s r [clientOpen, namesGiven, argumentsAreList]
    let prepared := Passes c s r [policy, options, arguments]
    let fits := Passes c s r [namesFit]
    match r.buildEnd c.settings c.isOpen with
    | .refused _ => ¬ given
    | .policyRefused _ => given ∧ ¬ prepared
    | .optionsRefused _ => given ∧ ¬ prepared
    | .argumentsRefused _ => given ∧ ¬ prepared
    | .notAttached => given ∧ prepared ∧ ¬ fits
    | .built job => (given ∧ prepared ∧ fits) ∧
        job.space = r.space ∧ job.set = r.set ∧ ∃ udf, job.udf = some udf := by
  intro given prepared fits
  simp only [given, prepared, fits, passes_iff, findSome?_check]
  unfold ScanRequest.buildEnd
  cases hcheck : r.check c.isOpen with
  | error e => exact Option.some_ne_none _
  | ok _ =>
    have hnames := names_of_check hcheck
    simp only [refusal, List.findSome?_cons, List.findSome?_nil, true_and,
      verdict_policy c s r c.settings.scanPolicy, verdict_options, verdict_namesFit c s hnames]
    cases Policy.resolve c.settings.scanPolicy r.policy with
    | error e => exact Option.some_ne_none _
    | ok policy =>
      cases r.givenOptions with
      | error e => exact Option.some_ne_none _
      | ok options =>
        simp only [refusal, SubmissionCheck.verdict, Settings.limits]
        cases convertArguments ⟨c.settings.maxArgDepth, c.settings.maxArgs⟩ r.args with
        | error e => exact Option.some_ne_none _
        | ok args =>
          dsimp only
          cases nameFits r.moduleName && nameFits r.functionName with
          | false => exact ⟨rfl, Option.some_ne_none _⟩
          | true => exact ⟨⟨rfl, rfl⟩, rfl, rfl, _, rfl⟩

theorem isOfRelease_of_isOfWork {e : Event} (h : e.isOfWork = false) : e.isOfRelease = false := by
  cases e <;> first | rfl | exact h

theorem filter_closing {α : Type} (operation : Operation) (stage : Stage)
    (outcome : Except Failure α) :
    (closing operation stage outcome).filter Event.isOfRelease = [] :=
  List.filter_eq_nil_iff.mpr fun e he => by
    rw [isOfRelease_of_isOfWork (closing_notWork operation stage outcome e he)]
    exact Bool.false_ne_true

theorem filter_noteIfAny (j : Journal) {e : Option Event}
    (h : ∀ event, e = some event → event.isOfRelease = false) :
    (j.noteIfAny e).events.filter Event.isOfRelease = j.events.filter Event.isOfRelease := by
  cases e with
  | none => rfl
  | some event =>
    rw [Journal.noteIfAny, Journal.events_note, List.filter_append,
      List.filter_cons_of_neg (by rw [h event rfl]; exact Bool.false_ne_true), List.filter_nil,
      List.append_nil]

/-- A build that gives up its job after a refusal that is noted. -/
theorem filter_dropped (l : Ledger) {e : Option Event}
    (h : ∀ event, e = some event → event.isOfRelease = false) :
    (BuildEnd.dropped ((BuildEnd.opened (.begun .scanApply l)).noteIfAny e)).events.filter
        Event.isOfRelease =
      [.acquired .descriptor, .abandoned true false, .released .descriptor] := by
  rw [BuildEnd.dropped, Journal.events_release, Journal.events_note, List.filter_append,
    List.filter_append, filter_noteIfAny _ h]
  rfl

theorem isOfRelease_policyError (e : PolicyError) :
    ∀ event, e.event = some event → event.isOfRelease = false :=
  fun event h => isOfRelease_of_isOfWork (aside_policyError e event h).2

theorem isOfRelease_optionsError (e : OptionsError) :
    ∀ event, e.event = some event → event.isOfRelease = false := by
  intro event h
  cases e with
  | shape cause =>
    obtain rfl := Option.some.inj h
    rfl
  | notAnObject | percentAbove _ | unknownPriority _ => cases h

/-- The answer to a job that has a function is noted. -/
theorem submitJob_answer {s : Store} {r : ScanRequest} {job : Job} (hspace : job.space = r.space)
    (hset : job.set = r.set) {udf : Udf} (hudf : job.udf = some udf)
    (policy : Option ScanPolicy) (j : Journal) :
    (submitJob s policy job j).2.2 = j.note (answerTo s r) := by
  unfold submitJob answerTo
  cases hfailure : s.submitFailure with
  | some e =>
    rw [Store.submit_of_armed hfailure]
    dsimp only
    rw [hspace, hset]
  | none =>
    rw [Store.submit_accepted hfailure policy hudf]
    dsimp only
    rw [hspace, hset]

/-- What a call notes as it fails is no event of leases. -/
theorem filter_failed {α : Type} {c : Client} {s : Store} {operation : Operation} {stage : Stage}
    {j : Journal} {events : List Event} (hstage : stage.canAdvanceTo .failed = true)
    (hj : j.events.filter Event.isOfRelease = events) (f : Failure) :
    (c.endCall s ⟨operation, stage⟩ j (.error (.failure f)) : Ended α).events.filter
      Event.isOfRelease = events := by
  rw [endCall_failed_events c s j f hstage, List.filter_append, filter_closing, List.append_nil, hj]

/-- Nor is what it notes as it ends after its work. -/
theorem filter_worked {α : Type} {c : Client} {s : Store} {operation : Operation} {j : Journal}
    {events : List Event} (hj : j.events.filter Event.isOfRelease = events)
    (outcome : Except Failure α) :
    (c.endCall s ⟨operation, operation.workStage⟩ j (outcome.mapError .failure)).events.filter
      Event.isOfRelease = events := by
  rw [endCall_events, List.filter_append, filter_closing, List.append_nil, hj]

theorem filter_preparePolicy (baseline : InfoPolicy) (policy : Option Json) (j : Journal) :
    (preparePolicy baseline policy j).2.events.filter Event.isOfRelease =
      j.events.filter Event.isOfRelease := by
  unfold preparePolicy
  cases Policy.resolve baseline policy with
  | error e => exact filter_noteIfAny j (isOfRelease_policyError e)
  | ok prepared => rfl

theorem filter_queryStatus (s : Store) (policy : Option InfoPolicy) (id : JobId) (j : Journal) :
    (queryStatus s policy id j).2.2.events.filter Event.isOfRelease =
      j.events.filter Event.isOfRelease := by
  have hnote {e : Event} (h : e.isOfRelease = false) :
      (j.note e).events.filter Event.isOfRelease = j.events.filter Event.isOfRelease :=
    filter_noteIfAny j (e := some e) fun _ he => Option.some.inj he ▸ h
  unfold queryStatus
  rcases s.query policy id with ⟨e | info, s'⟩
  · exact hnote rfl
  · dsimp only
    cases Snapshot.ofInfo info s'.statusOffset with
    | error e => exact hnote rfl
    | ok snapshot => exact hnote rfl

end ReleaseOrderLemmas

open ReleaseOrderLemmas

/-! ## 4. Calls -/

/-- The events of leases of a submission, in their order. -/
theorem scanApply_releaseTrace (c : Client) (s : Store) (r : ScanRequest) :
    ReleaseTrace c s r ((c.scanApply s r).events.filter Event.isOfRelease) := by
  have hpasses := buildEnd_passes c s r
  unfold Client.scanApply
  simp only [Call.start, build_eq]
  revert hpasses
  cases r.buildEnd c.settings c.isOpen with
  | refused e =>
    intro hgiven
    exact .of_eq (.refused hgiven) (filter_failed rfl rfl e.failure)
  | policyRefused e =>
    rintro ⟨hgiven, hprepared⟩
    have hdropped := filter_dropped c.ledger (isOfRelease_policyError e)
    exact .of_eq (.unprepared hgiven hprepared) (filter_failed rfl hdropped e.failure)
  | optionsRefused e =>
    rintro ⟨hgiven, hprepared⟩
    have hdropped := filter_dropped c.ledger (isOfRelease_optionsError e)
    exact .of_eq (.unprepared hgiven hprepared) (filter_failed rfl hdropped e.failure)
  | argumentsRefused e =>
    rintro ⟨hgiven, hprepared⟩
    exact .of_eq (.unprepared hgiven hprepared) (filter_failed rfl rfl e.failure)
  | notAttached =>
    rintro ⟨hgiven, hprepared, hfits⟩
    exact .of_eq (.notAttached hgiven hprepared hfits) (filter_failed rfl rfl _)
  | built job =>
    rintro ⟨⟨hgiven, hprepared, hfits⟩, hspace, hset, udf, hudf⟩
    have hclosed : ((submitJob s job.policy job
        (BuildEnd.leave (.built job) (.begun .scanApply c.ledger))).2.2.closeJob job).events.filter
          Event.isOfRelease =
        [.acquired .descriptor, .acquired .argList, answerTo s r, .released .argList,
          .released .descriptor] := by
      rw [submitJob_answer hspace hset hudf, Journal.closeJob, hudf]
      unfold answerTo
      cases s.submitFailure <;> rfl
    exact .of_eq (.answered hgiven hprepared hfits) (filter_worked hclosed _)

/-- A status query has no event of leases. -/
theorem scanInfo_filter (c : Client) (s : Store) (id : JobId) (given : Option Json) :
    (c.scanInfo s id given).events.filter Event.isOfRelease = [] := by
  have hbegin : ∀ j, (⟨.scanInfo, .validating⟩ : Call).beginWork j =
      .ok (⟨.scanInfo, .querying⟩, j.note (.moved .scanInfo .validating .querying)) :=
    fun _ => rfl
  unfold Client.scanInfo
  cases c.isOpen with
  | false =>
    simp only [Call.start, Bool.false_eq_true, ↓reduceIte]
    exact filter_failed rfl rfl _
  | true =>
    have hprepare := filter_preparePolicy c.settings.infoPolicy given (.begun .scanInfo c.ledger)
    simp only [Call.start, hbegin, ↓reduceIte]
    revert hprepare
    unfold Journal.begun
    rcases preparePolicy c.settings.infoPolicy given _ with ⟨f | prepared, j⟩
    · exact fun hprepare => filter_failed rfl hprepare f
    · intro hprepare
      have hquery := filter_queryStatus s prepared id
        (j.note (.moved .scanInfo .validating .querying))
      rw [Journal.events_note, List.filter_append, hprepare] at hquery
      exact filter_worked hquery _

/-- The events of leases of a submission, and what they say of all its events. -/
structure ReleasesInOrder (c : Client) (s : Store) (r : ScanRequest) (events : List Event) :
    Prop where
  trace : ReleaseTrace c s r (events.filter Event.isOfRelease)
  paired : ∀ resource, events.count (.acquired resource) = events.count (.released resource)
  settled : ∀ before after resource, events = before ++ .released resource :: after →
    ∃ e ∈ before, e.Settles

/-- A submission takes and gives back its leases in the order that its checks say, each one once,
and gives none back before it gives up or the store has answered. A status query takes none. -/
theorem releases_in_order (c : Client) (s : Store) (r : ScanRequest) (id : JobId)
    (given : Option Json) :
    ReleasesInOrder c s r (c.scanApply s r).events ∧
      ∀ e ∈ (c.scanInfo s id given).events, e.isOfRelease = false := by
  have htrace := scanApply_releaseTrace c s r
  refine ⟨⟨htrace, ?_, ?_⟩, ?_⟩
  · intro resource
    have hpaired := htrace.paired resource
    rwa [List.count_filter rfl, List.count_filter rfl] at hpaired
  · intro before after resource hsplit
    have hparts : (c.scanApply s r).events.filter Event.isOfRelease =
        before.filter Event.isOfRelease ++
          .released resource :: after.filter Event.isOfRelease := by
      rw [hsplit, List.filter_append, List.filter_cons_of_pos rfl]
    obtain ⟨e, he, hsettles⟩ := htrace.settled hparts
    exact ⟨e, (List.mem_filter.mp he).1, hsettles⟩
  · intro e he
    exact Bool.eq_false_iff.mpr (List.filter_eq_nil_iff.mp (scanInfo_filter c s id given) e he)

end BackgroundScan
