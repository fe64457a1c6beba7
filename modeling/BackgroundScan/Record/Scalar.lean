import BackgroundScan.Record.DecodeError

/-!
# Decoding scalars

A scalar is decoded from the head of a value, so the same decoder serves a tree and a text. An
integer is accepted only where it is written as one: a double never is, not even `5.0`.

Main statement: `integer_eq_ok_iff`, what an integer field accepts.
-/

namespace BackgroundScan

theorem map_eq_ok_iff {ε α β : Type} {f : α → β} {x : Except ε α} {b : β} :
    x.map f = .ok b ↔ ∃ a, x = .ok a ∧ f a = b := by
  cases x with
  | error e => exact ⟨nofun, nofun⟩
  | ok a => exact ⟨fun h => ⟨a, rfl, Except.ok.inj h⟩, fun ⟨_, rfl, h⟩ => congrArg _ h⟩

theorem map_eq_error_iff {ε α β : Type} {f : α → β} {x : Except ε α} {e : ε} :
    x.map f = .error e ↔ x = .error e := by
  cases x with
  | error cause =>
    exact ⟨fun h => congrArg _ (Except.error.inj h), fun h => congrArg _ (Except.error.inj h)⟩
  | ok a => exact ⟨nofun, nofun⟩

theorem mapError_eq_ok_iff {ε ε' α : Type} {f : ε → ε'} {x : Except ε α} {a : α} :
    x.mapError f = .ok a ↔ x = .ok a := by
  cases x with
  | error e => exact ⟨nofun, nofun⟩
  | ok b => exact ⟨fun h => congrArg _ (Except.ok.inj h), fun h => congrArg _ (Except.ok.inj h)⟩

theorem mapError_eq_error_iff {ε ε' α : Type} {f : ε → ε'} {x : Except ε α} {e : ε'} :
    x.mapError f = .error e ↔ ∃ cause, x = .error cause ∧ f cause = e := by
  cases x with
  | error cause =>
    exact ⟨fun h => ⟨cause, rfl, Except.error.inj h⟩, fun ⟨_, rfl, h⟩ => congrArg _ h⟩
  | ok a => exact ⟨nofun, nofun⟩

/-- A decoder that looks at the head of a value. -/
abbrev Scalar (α : Type) := Json.Head → Except DecodeError α

namespace Scalar

/-- An integer of the given type. -/
def integer (kind : IntegerKind) : Scalar Int
  | .number (.integer n _) =>
    if kind.low ≤ n ∧ n < kind.bound then .ok n else .error (.outOfRange n kind)
  | found => .error (.invalidType found (.integer kind))

/-- An unsigned integer of 8 bits. -/
def byte : Scalar UInt8 := fun h => (integer .byte h).map fun n => UInt8.ofNat n.toNat

/-- An unsigned integer of 32 bits. -/
def word : Scalar UInt32 := fun h => (integer .word h).map fun n => UInt32.ofNat n.toNat

/-- An unsigned integer of 64 bits. -/
def long : Scalar UInt64 := fun h => (integer .long h).map fun n => UInt64.ofNat n.toNat

/-- A size or count, of 64 bits. -/
def size : Scalar UInt64 := fun h => (integer .size h).map fun n => UInt64.ofNat n.toNat

/-- A signed integer of 64 bits. -/
def signed : Scalar Int64 := fun h => (integer .signed h).map Int64.ofInt

/-- A boolean. -/
def boolean : Scalar Bool
  | .bool b => .ok b
  | found => .error (.invalidType found .boolean)

/-- A string. -/
def string : Scalar String
  | .string s => .ok s
  | found => .error (.invalidType found .string)

/-- A scalar, or null for none. -/
def optional {α : Type} (read : Scalar α) : Scalar (Option α)
  | .null => .ok none
  | found => (read found).map some

theorem integer_eq_ok_iff {kind : IntegerKind} {h : Json.Head} {n : Int} :
    integer kind h = .ok n ↔
      (∃ r, h = .number (.integer n r)) ∧ kind.low ≤ n ∧ n < kind.bound := by
  constructor
  · intro eq
    unfold integer at eq
    split at eq
    · split at eq
      · simp only [Except.ok.injEq] at eq
        subst eq
        rename_i m r hr
        exact ⟨⟨r, rfl⟩, hr⟩
      · cases eq
    · cases eq
  · rintro ⟨⟨r, rfl⟩, hr⟩
    simp [integer, hr]

end Scalar

end BackgroundScan
