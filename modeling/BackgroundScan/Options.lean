import BackgroundScan.Failure
import BackgroundScan.Record.Tree

/-!
# Scan options

A caller may choose what part of the records a scan samples, its priority, whether the nodes are
scanned in parallel, and whether bins are left out. `ScanOptions.parse` reads an object of these
four settings; `priority` is given there by its code.

Main statement: `percent_le_of_parse`, a percentage that was read is at most 100.
-/

namespace BackgroundScan

/-- How urgent a scan is. -/
inductive Priority
  | auto
  | low
  | medium
  | high
  deriving DecidableEq, Repr

namespace Priority

/-- The name of a priority. -/
def text : Priority → String
  | auto => "auto"
  | low => "low"
  | medium => "medium"
  | high => "high"

/-- All priorities, in the order of their codes. -/
def all : List Priority := [auto, low, medium, high]

/-- The priority with a code. -/
def ofCode? (code : Int64) : Option Priority :=
  if code = 0 then some auto
  else if code = 1 then some low
  else if code = 2 then some medium
  else if code = 3 then some high
  else none

/-- Reads a priority from its name. -/
def decode : Json → Except DecodeError Priority :=
  decodeVariant (all.map fun p => (p.text, p))

end Priority

/-- The settings of a scan that a caller gives. -/
structure ScanOptions where
  /-- What part of the records is sampled, in percent. -/
  percent : Option UInt8
  /-- How urgent the scan is. -/
  priority : Option Priority
  /-- Whether the nodes are scanned in parallel. -/
  concurrent : Option Bool
  /-- Whether bins are left out. -/
  noBins : Option Bool
  deriving DecidableEq, Repr

/-- Why options are refused. -/
inductive OptionsError
  | notAnObject
  | shape (cause : DecodeError)
  | percentAbove (percent : UInt8)
  | unknownPriority (code : Int64)
  deriving DecidableEq

/-- The wording of an options error. -/
def OptionsError.message : OptionsError → String
  | .notAnObject => "scan options should be an object"
  | .shape cause => "invalid scan options: " ++ cause.message
  | .percentAbove percent =>
    "percent must be between 0 and 100, got " ++ toString percent.toNat
  | .unknownPriority code => "unknown scan priority " ++ toString code.toInt

/-- The failure of a call whose options are refused. -/
def OptionsError.failure (e : OptionsError) : Failure := ⟨.validation, e.message⟩

namespace ScanOptions

/-- The shape of options as a caller gives them. -/
def shape : Shape where
  name := "ScanOptionsInput"
  fields := [.optional "percent" Scalar.byte, .optional "priority" Scalar.signed,
    .optional "concurrent" Scalar.boolean, .optional "nobins" Scalar.boolean]
  closed := true

/-- Checks the percentage. -/
def checkPercent : Option UInt8 → Except OptionsError (Option UInt8)
  | none => .ok none
  | some percent => if 100 < percent then .error (.percentAbove percent) else .ok (some percent)

/-- Finds the priority with the given code. -/
def checkPriority : Option Int64 → Except OptionsError (Option Priority)
  | none => .ok none
  | some code =>
    match Priority.ofCode? code with
    | some priority => .ok (some priority)
    | none => .error (.unknownPriority code)

/-- Checks the ranges of options that have the right shape. -/
def ofValues : Values shape.fields → Except OptionsError ScanOptions
  | (percent, priority, concurrent, noBins, ()) =>
    match checkPercent percent with
    | .error e => .error e
    | .ok percent =>
      match checkPriority priority with
      | .error e => .error e
      | .ok priority => .ok ⟨percent, priority, concurrent, noBins⟩

/-- Reads the options of a caller: first the shape counts, then the percentage, then the
priority. -/
def parse (raw : Json) : Except OptionsError ScanOptions :=
  match raw.entries? with
  | none => .error .notAnObject
  | some _ =>
    match shape.decode raw with
    | .error e => .error (.shape e)
    | .ok values => ofValues values

theorem percent_le_of_ofValues {values : Values shape.fields} {o : ScanOptions}
    (h : ofValues values = .ok o) {percent : UInt8} (hp : o.percent = some percent) :
    percent ≤ 100 := by
  obtain ⟨given, priority, concurrent, noBins, ⟨⟩⟩ := values
  simp only [ofValues] at h
  split at h
  · cases h
  · rename_i checked hc
    split at h
    · cases h
    · simp only [Except.ok.injEq] at h
      subst h
      unfold checkPercent at hc
      split at hc
      · simp_all
      · split at hc
        · cases hc
        · simp_all [UInt8.not_lt]

theorem percent_le_of_parse {raw : Json} {o : ScanOptions} (h : parse raw = .ok o)
    {percent : UInt8} (hp : o.percent = some percent) : percent ≤ 100 := by
  unfold parse at h
  split at h
  · cases h
  · split at h
    · cases h
    · exact percent_le_of_ofValues h hp

end ScanOptions

end BackgroundScan
