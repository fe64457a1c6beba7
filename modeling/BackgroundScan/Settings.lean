import BackgroundScan.Argument.Conversion
import BackgroundScan.Policy
import BackgroundScan.Toml.Document

/-!
# The settings of a client

A client is set up with a baseline for each kind of policy and with limits on arguments. Settings
can be read from a JSON tree, which is not checked further, and from a TOML document, in which
`max_arg_depth` must not be zero.

In a document the root table is closed, and a policy ignores keys it does not know, though the
numbers under them have to be readable. A policy may be an array in the order of its fields; fields
for which there is no element keep their default, and elements for which there is no field are not
looked at. A date or time in place of a policy sets nothing.

Main statement: `maxArgDepth_ne_zero_of_load`.
-/

namespace BackgroundScan

/-- The settings of a client. -/
structure Settings where
  /-- What scan policies of callers are put on. -/
  scanPolicy : ScanPolicy
  /-- What info policies of callers are put on. -/
  infoPolicy : InfoPolicy
  /-- How deep containers may nest inside an argument. -/
  maxArgDepth : UInt64
  /-- How many arguments there may be. -/
  maxArgs : UInt64
  deriving DecidableEq, Repr

namespace Settings

/-- The settings where nothing is set. -/
def standard : Settings :=
  ⟨.standard, .standard, Limits.standard.maxDepth, Limits.standard.maxArgs⟩

/-- The limits on arguments. -/
def limits (s : Settings) : Limits := ⟨s.maxArgDepth, s.maxArgs⟩

/-! ## From JSON -/

/-- The shape of settings. -/
def shape : Shape where
  name := "ClientConfig"
  fields := [
    ⟨"scan_policy", none, ScanPolicy, .tree ScanPolicy.decode, some .standard⟩,
    ⟨"info_policy", none, InfoPolicy, .tree InfoPolicy.decode, some .standard⟩,
    .defaulted "max_arg_depth" Scalar.size standard.maxArgDepth,
    .defaulted "max_args" Scalar.size standard.maxArgs]
  closed := true

/-- The settings with the given values. -/
def ofValues : Values shape.fields → Settings
  | (scanPolicy, infoPolicy, maxArgDepth, maxArgs, ()) =>
    ⟨scanPolicy, infoPolicy, maxArgDepth, maxArgs⟩

/-- Reads settings from a tree. -/
def decode (raw : Json) : Except DecodeError Settings := (shape.decode raw).map ofValues

/-! ## From a document -/

/-- An unsigned integer of 32 bits. -/
def word? : Toml.Value → Option UInt32
  | .integer n => if 0 ≤ n ∧ n < 0x100000000 then some (UInt32.ofNat n.toNat) else none
  | _ => none

/-- An unsigned integer of 64 bits. -/
def size? : Toml.Value → Option UInt64
  | .integer n => if 0 ≤ n ∧ n < 0x10000000000000000 then some (UInt64.ofNat n.toNat) else none
  | _ => none

/-- A boolean. -/
def flag? : Toml.Value → Option Bool
  | .boolean b => some b
  | _ => none

/-- What is set in place of a field: by its name in a table, by its position in an array. -/
def setting (place : Nat) (key : String) : Toml.Value → Option Toml.Value
  | .table entries => entries.lookup key
  | .array items => items[place]?
  | _ => none

/-- Reads a field that keeps its default if it is not set. -/
def readField {α : Type} (read : Toml.Value → Option α) (default : α) :
    Option Toml.Value → Option α
  | none => some default
  | some v => read v

/-- Whether a value can stand in place of a policy. In a table the numbers have to be readable even
under keys that are ignored. -/
def standsForPolicy : Toml.Value → Bool
  | .table entries => Toml.entriesReadable entries
  | .array _ => true
  | .moment _ => true
  | _ => false

/-- Reads a scan policy. -/
def scanPolicy? (v : Toml.Value) : Option ScanPolicy := do
  if !standsForPolicy v then none
  let base := ScanPolicy.standard
  let timeoutMs ← readField word? base.timeoutMs (setting 0 "timeout_ms" v)
  let failOnClusterChange ←
    readField flag? base.failOnClusterChange (setting 1 "fail_on_cluster_change" v)
  return ⟨timeoutMs, failOnClusterChange⟩

/-- Reads an info policy. -/
def infoPolicy? (v : Toml.Value) : Option InfoPolicy := do
  if !standsForPolicy v then none
  let base := InfoPolicy.standard
  let timeoutMs ← readField word? base.timeoutMs (setting 0 "timeout_ms" v)
  let sendAsIs ← readField flag? base.sendAsIs (setting 1 "send_as_is" v)
  let checkBounds ← readField flag? base.checkBounds (setting 2 "check_bounds" v)
  return ⟨timeoutMs, sendAsIs, checkBounds⟩

/-- Reads settings from the root table of a document. -/
def ofTable? (root : List (String × Toml.Value)) : Option Settings := do
  if !(root.all fun e => shape.names.contains e.1) then none
  let scanPolicy ← readField scanPolicy? standard.scanPolicy (root.lookup "scan_policy")
  let infoPolicy ← readField infoPolicy? standard.infoPolicy (root.lookup "info_policy")
  let maxArgDepth ← readField size? standard.maxArgDepth (root.lookup "max_arg_depth")
  let maxArgs ← readField size? standard.maxArgs (root.lookup "max_args")
  return ⟨scanPolicy, infoPolicy, maxArgDepth, maxArgs⟩

/-- Why settings cannot be loaded. -/
inductive LoadError
  /-- The text is no TOML document, or not one of settings. -/
  | unreadable
  /-- The limit on nesting is zero. -/
  | depthIsZero
  deriving DecidableEq, Repr

/-- The wording of the error for a value that was read and is refused. -/
def LoadError.message : LoadError → String
  | .unreadable => "invalid client configuration"
  | .depthIsZero => "invalid client configuration: max_arg_depth must be at least 1"

/-- Loads settings from a TOML document. -/
def load (text : String) : Except LoadError Settings :=
  match Toml.parse text >>= ofTable? with
  | none => .error .unreadable
  | some s => if s.maxArgDepth = 0 then .error .depthIsZero else .ok s

theorem maxArgDepth_ne_zero_of_load {text : String} {s : Settings} (h : load text = .ok s) :
    s.maxArgDepth ≠ 0 := by
  unfold load at h
  split at h
  · cases h
  · split at h
    · cases h
    · simp_all

end Settings

end BackgroundScan
