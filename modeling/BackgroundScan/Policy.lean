import BackgroundScan.Failure
import BackgroundScan.Record.Tree

/-!
# Policies

A policy says how a call to the store is made: `ScanPolicy` for a submission, `InfoPolicy` for a
status query. A client has a baseline for each, and a caller may override some of its settings with
an object of known keys.

`Policy.validate` reads the overrides of a caller, `Policy.overlay` puts them on a baseline, and
`Policy.resolve` does both for a policy that may be absent; an absent policy stays absent, so that
the store uses its own, and no baseline stands in for it.
-/

namespace BackgroundScan

/-- How a submission is made. -/
structure ScanPolicy where
  /-- The time limit in milliseconds; zero for none. -/
  timeoutMs : UInt32
  /-- Whether the scan stops if the cluster changes. -/
  failOnClusterChange : Bool
  deriving DecidableEq, Repr

/-- How a status query is made. -/
structure InfoPolicy where
  /-- The time limit in milliseconds. -/
  timeoutMs : UInt32
  /-- Whether the request is sent without a newline after it. -/
  sendAsIs : Bool
  /-- Whether the size of the request is checked. -/
  checkBounds : Bool
  deriving DecidableEq, Repr

/-- No time limit, and the scan goes on if the cluster changes. -/
def ScanPolicy.standard : ScanPolicy := ⟨0, false⟩

/-- One second, sent as it is, with its size checked. -/
def InfoPolicy.standard : InfoPolicy := ⟨1000, true, true⟩

/-- The settings of a scan policy that a caller gives. -/
structure ScanOverrides where
  timeout : Option UInt32
  failOnClusterChange : Option Bool
  deriving DecidableEq, Repr

/-- The settings of an info policy that a caller gives. -/
structure InfoOverrides where
  timeout : Option UInt32
  sendAsIs : Option Bool
  checkBounds : Option Bool
  deriving DecidableEq, Repr

/-! ## Shapes -/

/-- A whole scan policy. -/
def ScanPolicy.shape : Shape where
  name := "ScanPolicy"
  fields := [.defaulted "timeout_ms" Scalar.word ScanPolicy.standard.timeoutMs,
    .defaulted "fail_on_cluster_change" Scalar.boolean ScanPolicy.standard.failOnClusterChange]
  closed := false

/-- A whole info policy. -/
def InfoPolicy.shape : Shape where
  name := "InfoPolicy"
  fields := [.defaulted "timeout_ms" Scalar.word InfoPolicy.standard.timeoutMs,
    .defaulted "send_as_is" Scalar.boolean InfoPolicy.standard.sendAsIs,
    .defaulted "check_bounds" Scalar.boolean InfoPolicy.standard.checkBounds]
  closed := false

/-- What a caller may give of a scan policy. -/
def ScanOverrides.shape : Shape where
  name := "ScanPolicyInput"
  fields := [.optional "timeout" Scalar.word, .optional "fail_on_cluster_change" Scalar.boolean]
  closed := true

/-- What a caller may give of an info policy. -/
def InfoOverrides.shape : Shape where
  name := "InfoPolicyInput"
  fields := [.optional "timeout" Scalar.word, .optional "send_as_is" Scalar.boolean,
    .optional "check_bounds" Scalar.boolean]
  closed := true

/-- The policy with the given settings. -/
def ScanPolicy.ofValues : Values ScanPolicy.shape.fields → ScanPolicy
  | (timeoutMs, failOnClusterChange, ()) => ⟨timeoutMs, failOnClusterChange⟩

/-- The policy with the given settings. -/
def InfoPolicy.ofValues : Values InfoPolicy.shape.fields → InfoPolicy
  | (timeoutMs, sendAsIs, checkBounds, ()) => ⟨timeoutMs, sendAsIs, checkBounds⟩

/-- The overrides with the given settings. -/
def ScanOverrides.ofValues : Values ScanOverrides.shape.fields → ScanOverrides
  | (timeout, failOnClusterChange, ()) => ⟨timeout, failOnClusterChange⟩

/-- The overrides with the given settings. -/
def InfoOverrides.ofValues : Values InfoOverrides.shape.fields → InfoOverrides
  | (timeout, sendAsIs, checkBounds, ()) => ⟨timeout, sendAsIs, checkBounds⟩

/-- Reads a whole scan policy. -/
def ScanPolicy.decode (raw : Json) : Except DecodeError ScanPolicy :=
  (ScanPolicy.shape.decode raw).map .ofValues

/-- Reads a whole info policy. -/
def InfoPolicy.decode (raw : Json) : Except DecodeError InfoPolicy :=
  (InfoPolicy.shape.decode raw).map .ofValues

/-! ## Overriding a baseline -/

/-- A kind of policy whose settings a caller may override. -/
class Policy (P : Type) where
  /-- What a caller may give. -/
  Overrides : Type
  /-- Its name in messages. -/
  name : String
  /-- Reads what a caller gives. -/
  decode : Json → Except DecodeError Overrides
  /-- Puts what a caller gives on a baseline. -/
  overlay : Overrides → P → P

instance : Policy ScanPolicy where
  Overrides := ScanOverrides
  name := "scan policy"
  decode raw := (ScanOverrides.shape.decode raw).map .ofValues
  overlay given base :=
    ⟨given.timeout.getD base.timeoutMs, given.failOnClusterChange.getD base.failOnClusterChange⟩

instance : Policy InfoPolicy where
  Overrides := InfoOverrides
  name := "info policy"
  decode raw := (InfoOverrides.shape.decode raw).map .ofValues
  overlay given base :=
    ⟨given.timeout.getD base.timeoutMs, given.sendAsIs.getD base.sendAsIs,
      given.checkBounds.getD base.checkBounds⟩

/-- Why a policy of a caller is refused. -/
inductive PolicyError
  | notAnObject (policy : String)
  | shape (policy : String) (cause : DecodeError)
  deriving DecidableEq

/-- The wording of a policy error. -/
def PolicyError.message : PolicyError → String
  | .notAnObject policy => policy ++ " should be an object"
  | .shape policy cause => "invalid " ++ policy ++ ": " ++ cause.message

/-- The failure of a call whose policy is refused. -/
def PolicyError.failure (e : PolicyError) : Failure := ⟨.validation, e.message⟩

namespace Policy

/-- Reads the overrides of a caller, which must be an object of known keys. -/
def validate (P : Type) [Policy P] (raw : Json) : Except PolicyError (Overrides P) :=
  match raw.entries? with
  | none => .error (.notAnObject (name P))
  | some _ => (decode raw).mapError (.shape (name P))

/-- The policy in effect, where a caller gives one. -/
def resolve {P : Type} [Policy P] (baseline : P) :
    Option Json → Except PolicyError (Option P)
  | none => .ok none
  | some raw => (validate P raw).map fun given => some (overlay given baseline)

end Policy

end BackgroundScan
