import BackgroundScan.Proofs.Dispatch
import BackgroundScan.Proofs.Fleet

/-!
# Store errors reach the caller whole

The code of a store error becomes a kind of failure, and the report of the failure finds a
code for that kind again. The kinds are fewer than the ways to name them: two of the client's
share a code, a store may answer with any of the client's codes, and 4 has a kind of its own.
So the code that a report shows does not tell its kind, and neither does its text; but
nothing of a store error is lost on the way, and a report as JSON can be read back.

1. `Carries`: a report has all that a store error says. `carries_unique`: of one only.
2. `ofJson?_toJson`: a report as JSON is read back as its failure.
3. `report_storeTwin`: every failure shares its code and text with one of the store's kind.
4. `keeps_store_errors`: what a call comes to that the store answered with an error.
-/

namespace BackgroundScan

/-! ## 1. Reports of store errors -/

/-- A report says what a store error says, and that it is one. -/
structure Report.Carries (report : Report) (e : StoreError) : Prop where
  resultCode : report.resultCode = e.code
  message : report.message = e.message
  clientSide : report.isClientSide = false
  kind : report.kind = if e.code = 4 then .protocol else .store e.code

/-- A call was prepared and handed to the store, which answered it with an error. -/
inductive Client.Meets (c : Client) (s : Store) : SessionAction → StoreError → Prop
  | submitting {r : ScanRequest} {job : Job} {e : StoreError} (prepared : c.preparedJob r = .ok job)
      (answered : (s.submit job.policy job).1 = .error e) : Meets c s (.scanApply r) e
  | decoded {raw : Json} {r : ScanRequest} {job : Job} {e : StoreError}
      (read : ScanRequest.decode raw = .ok r) (prepared : c.preparedJob r = .ok job)
      (answered : (s.submit job.policy job).1 = .error e) : Meets c s (.scanApplyDecoded raw) e
  | polling {id : JobId} {given : Option Json} {policy : Option InfoPolicy} {e : StoreError}
      (prepared : c.preparedQuery given = .ok policy)
      (answered : (s.query policy id).1 = .error e) : Meets c s (.scanInfo id given) e

/-- The report of a call that failed. -/
def SessionAnswer.report? : SessionAnswer → Option Report
  | applied (.ok (.error report)) => some report
  | polled (.ok (.error report)) => some report
  | _ => none

theorem carries_report (e : StoreError) : e.failure.report.Carries e where
  resultCode := resultCode_failure e
  message := rfl
  clientSide := DispatchLemmas.storeError_not_clientSide e
  kind := rfl

theorem eq_report_of_carries {report : Report} {e : StoreError} (h : report.Carries e) :
    report = e.failure.report := by
  obtain ⟨kind, code, message⟩ := report
  obtain ⟨hcode, hmessage, -, hkind⟩ := h
  obtain rfl : code = e.code := hcode
  obtain rfl : message = e.message := hmessage
  obtain rfl : kind = e.failure.kind := hkind
  rw [Failure.report, resultCode_failure]
  rfl

theorem carries_unique {report : Report} {e e' : StoreError} (h : report.Carries e)
    (h' : report.Carries e') : e = e' := by
  obtain ⟨code, message⟩ := e
  obtain ⟨code', message'⟩ := e'
  obtain rfl : code = code' := h.resultCode.symm.trans h'.resultCode
  obtain rfl : message = message' := h.message.symm.trans h'.message
  rfl

namespace ErrorReportLemmas

theorem scanApply_answered {c : Client} {s : Store} {r : ScanRequest} {job : Job} {e : StoreError}
    (prepared : c.preparedJob r = .ok job) (answered : (s.submit job.policy job).1 = .error e) :
    (c.scanApply s r).outcome = .ok (.error e.failure.report) := by
  rw [(scanApply_seen c s r).1, prepared, dispatch, Store.askToSubmit, answered]
  rfl

theorem scanInfo_answered {c : Client} {s : Store} {id : JobId} {given : Option Json}
    {policy : Option InfoPolicy} {e : StoreError} (prepared : c.preparedQuery given = .ok policy)
    (answered : (s.query policy id).1 = .error e) :
    (c.scanInfo s id given).outcome = .ok (.error e.failure.report) := by
  rw [(scanInfo_seen c s id given).1, prepared, dispatch, Store.askForStatus, answered]
  rfl

end ErrorReportLemmas

open ErrorReportLemmas

/-- A call that meets a store error comes to the report of its failure. -/
theorem report_of_meets {c : Client} {s : Store} {action : SessionAction} {e : StoreError}
    (h : c.Meets s action e) :
    (c.exchange s action).answer.report? = some e.failure.report := by
  cases h with
  | submitting prepared answered =>
    have houtcome := scanApply_answered prepared answered
    exact congrArg (fun outcome => (SessionAnswer.applied outcome).report?) houtcome
  | decoded read prepared answered =>
    have houtcome := scanApply_answered prepared answered
    simp only [Client.exchange, Session.step]
    rw [read]
    exact congrArg (fun outcome => (SessionAnswer.applied outcome).report?) houtcome
  | polling prepared answered =>
    have houtcome := scanInfo_answered prepared answered
    exact congrArg (fun outcome => (SessionAnswer.polled outcome).report?) houtcome

/-! ## 2. Reports as JSON -/

/-- The kind that a JSON value stands for. -/
def FailureKind.ofJson? : Json → Option FailureKind
  | .string name => [invalidParam, validation, conversion, protocol].find? (·.text == name)
  | .object [("store", .number (.integer code _))] => some (.store (.ofInt code))
  | _ => none

/-- The failure whose report a JSON value is. -/
def Failure.ofJson? : Json → Option Failure
  | .object [("code", kind), ("result_code", _), ("message", .string message)] =>
    (FailureKind.ofJson? kind).map (⟨·, message⟩)
  | _ => none

theorem kind_ofJson?_toJson (kind : FailureKind) : FailureKind.ofJson? kind.toJson = some kind := by
  cases kind with
  | store code => exact congrArg (fun n => some (FailureKind.store n)) (Int32.ofInt_toInt code)
  | invalidParam | validation | conversion | protocol => decide

/-- No two failures have the same report as JSON. -/
theorem ofJson?_toJson (f : Failure) : Failure.ofJson? f.report.toJson = some f := by
  show (FailureKind.ofJson? f.kind.toJson).map _ = _
  rw [kind_ofJson?_toJson]
  rfl

/-! ## 3. Codes and texts -/

/-- The failure of the store's kind that has the code and the message of this one. -/
def Failure.storeTwin (f : Failure) : Failure := ⟨.store f.kind.resultCode, f.message⟩

theorem report_storeTwin (f : Failure) :
    f.storeTwin.report.resultCode = f.report.resultCode ∧ f.storeTwin.report.text = f.report.text :=
  ⟨rfl, rfl⟩

theorem storeTwin_eq_iff (f : Failure) : f.storeTwin = f ↔ ∃ code, f.kind = .store code := by
  obtain ⟨kind, message⟩ := f
  cases kind with
  | store code => exact ⟨fun _ => ⟨code, rfl⟩, fun _ => rfl⟩
  | invalidParam | validation | conversion | protocol => exact ⟨nofun, nofun⟩

theorem toJson_report_inj {f f' : Failure} : f.report.toJson = f'.report.toJson ↔ f = f' := by
  refine ⟨fun h => ?_, fun h => by rw [h]⟩
  have hread : some f = some f' := by rw [← ofJson?_toJson f, h, ofJson?_toJson f']
  exact Option.some.inj hread

/-! ## 4. Calls that the store refuses -/

/-- A call that the store answered with an error fails with a report that carries this error,
and no other call fails with the same report for another error. Either call may meet any error.
Reports of different failures are different as JSON, though every failure shares its code and
its text with one of the store's kind. -/
theorem keeps_store_errors (c c' : Client) (s s' : Store) (action action' : SessionAction) :
    (∀ e, c.Meets s action e →
        ∃ report, (c.exchange s action).answer.report? = some report ∧ report.Carries e) ∧
      (∀ e e', c.Meets s action e → c'.Meets s' action' e' →
        (c.exchange s action).answer.report? = (c'.exchange s' action').answer.report? → e = e') ∧
      (∀ e r job, c.preparedJob r = .ok job → c.Meets (s.failNextSubmit e) (.scanApply r) e) ∧
      (∀ e id given policy, c.preparedQuery given = .ok policy →
        c.Meets (s.failNextStatus e) (.scanInfo id given) e) ∧
      (∀ f f' : Failure, f.report.toJson = f'.report.toJson ↔ f = f') ∧
      ∀ f : Failure, f.storeTwin.report.resultCode = f.report.resultCode ∧
        f.storeTwin.report.text = f.report.text ∧
        (f.storeTwin.report.toJson = f.report.toJson ↔ ∃ code, f.kind = .store code) := by
  refine ⟨fun e h => ⟨_, report_of_meets h, carries_report e⟩, fun e e' h h' hsame => ?_,
    fun e r job h => ?_, fun e id given policy h => ?_, fun _ _ => toJson_report_inj, fun f => ?_⟩
  · rw [report_of_meets h, report_of_meets h'] at hsame
    have hcarries := carries_report e'
    rw [← Option.some.inj hsame] at hcarries
    exact carries_unique (carries_report e) hcarries
  · have harmed : (s.failNextSubmit e).submitFailure = some e := rfl
    exact .submitting h (congrArg Prod.fst (Store.submit_of_armed harmed job.policy job))
  · have harmed : (s.failNextStatus e).statusFailure = some e := rfl
    exact .polling h (congrArg Prod.fst (Store.query_of_armed harmed policy id))
  · obtain ⟨hcode, htext⟩ := report_storeTwin f
    exact ⟨hcode, htext, toJson_report_inj.trans (storeTwin_eq_iff f)⟩

/-- A submission that meets code 4 and a query that meets the client's own code -2 come to
reports of the store's kinds. -/
theorem keeps_store_errors_shared_codes :
    let r : ScanRequest := ⟨"test", "demo", "geo", "move", .array [], none, none⟩
    let c : Client := .new .standard
    let invalid : StoreError := ⟨4, "malformed"⟩
    let shared : StoreError := ⟨-2, "invalid client object"⟩
    (∃ report, (c.exchange (Store.standard.failNextSubmit invalid)
          (.scanApply r)).answer.report? = some report ∧
        report.Carries invalid ∧ report = ⟨.protocol, 4, "malformed"⟩) ∧
      ∃ report, (c.exchange (Store.standard.failNextStatus shared)
          (.scanInfo 7 none)).answer.report? = some report ∧
        report.Carries shared ∧ report = ⟨.store (-2), -2, "invalid client object"⟩ ∧
        report.toJson ≠ RequestError.closedClient.failure.report.toJson := by
  intro r c invalid shared
  have hjob : c.preparedJob r =
      .ok { Job.new "test" "demo" with udf := some ⟨"geo", "move", []⟩ } := by rfl
  have hquery : c.preparedQuery none = .ok none := by rfl
  obtain ⟨-, -, hsubmit, hpoll, -⟩ := keeps_store_errors c c Store.standard Store.standard
    (.scanApply r) (.scanInfo 7 none)
  obtain ⟨hfirst, -⟩ := keeps_store_errors c c (Store.standard.failNextSubmit invalid)
    Store.standard (.scanApply r) (.scanApply r)
  obtain ⟨hsecond, -, -, -, hjson, -⟩ := keeps_store_errors c c
    (Store.standard.failNextStatus shared) Store.standard (.scanInfo 7 none) (.scanApply r)
  obtain ⟨report, hreport, hcarries⟩ := hfirst invalid (hsubmit invalid r _ hjob)
  obtain ⟨report', hreport', hcarries'⟩ := hsecond shared (hpoll shared 7 none none hquery)
  have hprotocol : report = ⟨.protocol, 4, "malformed"⟩ := eq_report_of_carries hcarries
  have hshared : report' = shared.failure.report := eq_report_of_carries hcarries'
  refine ⟨⟨report, hreport, hcarries, hprotocol⟩, report', hreport', hcarries', hshared, ?_⟩
  intro hsame
  rw [hshared] at hsame
  exact absurd ((hjson _ _).mp hsame) (by decide)

end BackgroundScan
