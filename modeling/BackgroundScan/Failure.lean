import BackgroundScan.Json.Basic

/-!
# Failures and their reports

A step of a call that fails leaves a `Failure`: its kind and a message. A store answers with its
own `StoreError`; code 4 means that the request was malformed and becomes a `protocol` failure,
every other code is kept. `Failure.report` is the form in which a caller sees a failure, with a
numeric result code beside the kind.

Main statement: `resultCode_failure`, a store's own code is the result code of its failure, code 4
included.
-/

namespace BackgroundScan

/-- What kind of failure a call met. -/
inductive FailureKind
  /-- Malformed or missing input. -/
  | invalidParam
  /-- A policy or options of the wrong shape. -/
  | validation
  /-- Arguments that cannot be converted. -/
  | conversion
  /-- A request or an answer that breaks the protocol of the store. -/
  | protocol
  /-- A result code of the store. -/
  | store (code : Int32)
  deriving DecidableEq, Repr

namespace FailureKind

/-- The numeric result code of a kind. -/
def resultCode : FailureKind → Int32
  | .invalidParam => -2
  | .validation => -2
  | .conversion => -1
  | .protocol => 4
  | .store code => code

/-- The name of a kind; a store code stands between parentheses. -/
def text : FailureKind → String
  | .invalidParam => "invalid_param"
  | .validation => "validation"
  | .conversion => "conversion"
  | .protocol => "protocol"
  | .store code => "store(" ++ toString code.toInt ++ ")"

/-- Whether the kind is of failures found before the store is asked. -/
def isClientSide : FailureKind → Bool
  | .protocol => false
  | .store _ => false
  | _ => true

end FailureKind

/-- The first failure of a call. -/
structure Failure where
  kind : FailureKind
  message : String
  deriving DecidableEq, Repr

/-- A failure as the caller sees it. -/
structure Report where
  kind : FailureKind
  resultCode : Int32
  message : String
  deriving DecidableEq, Repr

/-- The report of a failure. -/
def Failure.report (f : Failure) : Report := ⟨f.kind, f.kind.resultCode, f.message⟩

/-- The message with the result code. -/
def Report.text (r : Report) : String :=
  r.message ++ " (code " ++ toString r.resultCode.toInt ++ ")"

/-- Whether the failure was found before the store was asked. -/
def Report.isClientSide (r : Report) : Bool := r.kind.isClientSide

/-- An error of the store. -/
structure StoreError where
  code : Int32
  message : String
  deriving DecidableEq, Repr

namespace StoreError

/-- A failure of a server. -/
def server (message : String) : StoreError := ⟨1, message⟩

/-- A job that is unknown or has expired. -/
def notFound (message : String) : StoreError := ⟨2, message⟩

/-- A malformed request. -/
def requestInvalid (message : String) : StoreError := ⟨4, message⟩

/-- A request that took too long. -/
def timeout (message : String) : StoreError := ⟨9, message⟩

/-- The code and the message. -/
def text (e : StoreError) : String :=
  "store error " ++ toString e.code.toInt ++ ": " ++ e.message

/-- The failure of a call to which the store answered with this error. -/
def failure (e : StoreError) : Failure :=
  ⟨if e.code = 4 then .protocol else .store e.code, e.message⟩

end StoreError

theorem resultCode_failure (e : StoreError) : e.failure.kind.resultCode = e.code := by
  by_cases h : e.code = 4 <;> simp [StoreError.failure, FailureKind.resultCode, h]

/-! ## As JSON -/

/-- A 32-bit integer as a JSON number. -/
def Json.ofInt32 (n : Int32) : Json :=
  .number (.integer n.toInt (by have := n.le_toInt; have := n.toInt_lt; omega))

/-- A kind as JSON: its name, or an object with the store code. -/
def FailureKind.toJson : FailureKind → Json
  | .store code => .object [("store", Json.ofInt32 code)]
  | kind => .string kind.text

/-- A report as JSON. -/
def Report.toJson (r : Report) : Json :=
  .object [("code", r.kind.toJson), ("result_code", Json.ofInt32 r.resultCode),
    ("message", .string r.message)]

end BackgroundScan
