import BackgroundScan.Failure
import BackgroundScan.Record.Text
import BackgroundScan.Record.Tree

/-!
# Requests for a scan

A caller asks for a scan with the namespace, the set and the function by name, and with the
arguments, the policy and the options as JSON. A request can be decoded from a tree or from text;
there `ns` is a second name of `namespace`, and a policy or options of null are absent. In a request
made by hand a null that is present is not absent.

Main statement: `checkNames_eq_ok_iff`, what is asked of the names and arguments of a request.
-/

namespace BackgroundScan

/-- A request for a background scan. -/
structure ScanRequest where
  /-- The namespace. -/
  space : String
  set : String
  moduleName : String
  functionName : String
  args : Json
  policy : Option Json
  options : Option Json

/-- Why a request is refused before any work is done. -/
inductive RequestError
  | closedClient
  | emptyName
  | argumentsNotAList
  | functionNotAttached
  deriving DecidableEq, Repr

/-- The wording of a request error. -/
def RequestError.message : RequestError → String
  | .closedClient => "invalid client object"
  | .emptyName => "parameter should not be null"
  | .argumentsNotAList => "arguments should be a list"
  | .functionNotAttached => "unable to apply UDF on the scan"

/-- The failure of a call whose request is refused. -/
def RequestError.failure (e : RequestError) : Failure := ⟨.invalidParam, e.message⟩

namespace ScanRequest

/-- A value that may be null for none. -/
def nullable : Json → Except DecodeError (Option Json)
  | .null => .ok none
  | value => .ok (some value)

/-- The shape of a request. -/
def shape : Shape where
  name := "ScanApplyRequest"
  fields := [
    { Field.required "namespace" Scalar.string with secondName := some "ns" },
    .required "set" Scalar.string,
    .required "module" Scalar.string,
    .required "function" Scalar.string,
    ⟨"args", none, Json, .tree .ok, none⟩,
    ⟨"policy", none, Option Json, .tree nullable, some none⟩,
    ⟨"options", none, Option Json, .tree nullable, some none⟩]
  closed := false

/-- The request with the given values. -/
def ofValues : Values shape.fields → ScanRequest
  | (space, set, moduleName, functionName, args, policy, options, ()) =>
    ⟨space, set, moduleName, functionName, args, policy, options⟩

/-- Reads a request from a tree. -/
def decode (raw : Json) : Except DecodeError ScanRequest := (shape.decode raw).map ofValues

/-- Reads a request from text. -/
def decodeText (text : String) : Except TextError ScanRequest :=
  (shape.decodeText text).map ofValues

/-- The four names of a request. -/
def names (r : ScanRequest) : List String := [r.space, r.set, r.moduleName, r.functionName]

/-- Checks that no name is empty and that the arguments are an array. -/
def checkNames (r : ScanRequest) : Except RequestError Unit :=
  if r.names.any (· == "") then .error .emptyName
  else if r.args.items?.isNone then .error .argumentsNotAList
  else .ok ()

theorem checkNames_eq_ok_iff (r : ScanRequest) :
    r.checkNames = .ok () ↔ "" ∉ r.names ∧ ∃ items, r.args = .array items := by
  have hargs : r.args.items?.isNone = false ↔ ∃ items, r.args = .array items := by
    cases r.args <;> simp [Json.items?]
  have hnames : r.names.any (· == "") = false ↔ "" ∉ r.names := by
    simp only [List.any_eq_false, beq_iff_eq]
    exact ⟨fun h hm => h "" hm rfl, fun h x hx he => h (he ▸ hx)⟩
  unfold checkNames
  rw [← hargs, ← hnames]
  cases r.names.any (· == "") <;> cases r.args.items?.isNone <;> simp

end ScanRequest

end BackgroundScan
