import BackgroundScan.Proofs.DocumentStatements

/-!
# Scalars of a document

The lines of a text name as scalars only what is one: a string, a truth value, a number, a date or
a time. So a table is in a document only where its lines say that there is one.

1. `isScalar_of_scalarValue?`: what is written without quotes is a scalar.
2. `plain_of_written?` and `plain_scan`: so is all that a value, or the lines of a text, say to be
   one.
-/

namespace BackgroundScan.Toml

/-- A value that is no array and no table. -/
def Value.IsScalar (v : Value) : Prop :=
  (∀ items, v ≠ .array items) ∧ ∀ entries, v ≠ .table entries

/-- Statements of which all that is said to be a scalar is one. -/
def Plain (statements : List Statement) : Prop :=
  ∀ path v, (path, .scalar v) ∈ statements → v.IsScalar

/-! ## 1. Scalars without quotes -/

namespace ScalarLemmas

theorem isScalar_integerValue (n : Int) : (integerValue n).IsScalar := by
  unfold integerValue
  split <;> exact ⟨nofun, nofun⟩

theorem isScalar_floatValue (x : Binary64) : (floatValue x).IsScalar := by
  unfold floatValue
  split <;> exact ⟨nofun, nofun⟩

theorem isScalar_of_based? {base : Nat} {cs : List Char} {v : Value}
    (h : based? base cs = some v) : v.IsScalar := by
  unfold based? at h
  split at h
  · obtain rfl := Option.some.inj h
    exact ⟨nofun, nofun⟩
  · obtain ⟨ds, -, rfl⟩ := Option.map_eq_some_iff.mp h
    exact isScalar_integerValue _

theorem isScalar_of_decimal? {negative : Bool} {cs : List Char} {v : Value}
    (h : decimal? negative cs = some v) : v.IsScalar := by
  unfold decimal? at h
  dsimp only at h
  repeat' split at h
  all_goals cases h
  · exact ⟨nofun, nofun⟩
  · exact isScalar_integerValue _

theorem isScalar_of_float? {negative : Bool} {cs : List Char} {v : Value}
    (h : float? negative cs = some v) : v.IsScalar := by
  simp only [float?, Option.bind_eq_bind, Option.pure_def] at h
  obtain ⟨_, -, h⟩ := Option.bind_eq_some_iff.mp h
  -- a fraction and an exponent may each be there or not
  split at h <;> obtain ⟨_, -, h⟩ := Option.bind_eq_some_iff.mp h <;> split at h <;>
    obtain ⟨_, -, h⟩ := Option.bind_eq_some_iff.mp h <;> obtain rfl := Option.some.inj h <;>
    exact isScalar_floatValue _

theorem isScalar_of_number? {cs : List Char} {v : Value} (h : number? cs = some v) :
    v.IsScalar := by
  unfold number? at h
  split at h
  · exact isScalar_of_based? h
  · exact isScalar_of_based? h
  · exact isScalar_of_based? h
  · unfold signed? at h
    dsimp only at h
    split at h
    · obtain rfl := Option.some.inj h
      exact ⟨nofun, nofun⟩
    split at h
    · obtain rfl := Option.some.inj h
      exact ⟨nofun, nofun⟩
    split at h
    · exact isScalar_of_float? h
    · exact isScalar_of_decimal? h

theorem isScalar_of_scalarValue? {word : List Char} {v : Value}
    (h : scalarValue? word = some v) : v.IsScalar := by
  unfold scalarValue? at h
  split at h
  · obtain rfl := Option.some.inj h
    exact ⟨nofun, nofun⟩
  split at h
  · obtain rfl := Option.some.inj h
    exact ⟨nofun, nofun⟩
  split at h
  · obtain rfl := Option.some.inj h
    exact ⟨nofun, nofun⟩
  · exact isScalar_of_number? h

/-! ## 2. What is read -/

theorem plain_scalar {v : Value} (h : v.IsScalar) : Plain (Written.scalar v).statements := by
  intro path w hmem
  obtain ⟨-, hw⟩ := Prod.mk.inj (List.mem_singleton.mp hmem)
  obtain rfl := Said.scalar.inj hw
  exact h

theorem plain_append {statements statements' : List Statement} (h : Plain statements)
    (h' : Plain statements') : Plain (statements ++ statements') := fun path v hmem =>
  (List.mem_append.mp hmem).elim (h path v) (h' path v)

theorem plain_below {statements : List Statement} (h : Plain statements) (path : List String) :
    Plain (below path statements) := by
  intro path' v hmem
  obtain ⟨⟨rest, what⟩, hs, heq⟩ := List.mem_map.mp hmem
  obtain ⟨-, rfl⟩ := Prod.mk.inj heq
  exact h rest v hs

end ScalarLemmas

open ScalarLemmas

mutual

/-- What is read of a value says of scalars only that they are there. -/
theorem plain_of_written? {fuel room : Nat} {cs rest : List Char} {w : Written}
    (h : written? fuel room cs = some (w, rest)) : Plain w.statements := by
  match fuel with
  | 0 =>
    rw [written?] at h
    cases h
  | fuel + 1 =>
    unfold written? at h
    split at h
    · split at h
      · cases h
      · obtain ⟨_, -, heq⟩ := Option.map_eq_some_iff.mp h
        obtain ⟨rfl, -⟩ := Prod.mk.inj heq
        intro path v hmem
        cases List.mem_singleton.mp hmem
    · split at h
      · cases h
      · obtain ⟨_, hpairs, heq⟩ := Option.map_eq_some_iff.mp h
        obtain ⟨rfl, -⟩ := Prod.mk.inj heq
        intro path v hmem
        exact plain_of_pairs? hpairs path v ((List.mem_cons.mp hmem).resolve_left nofun)
    · obtain ⟨_, -, heq⟩ := Option.map_eq_some_iff.mp h
      obtain ⟨rfl, -⟩ := Prod.mk.inj heq
      exact plain_scalar ⟨nofun, nofun⟩
    · obtain ⟨_, -, heq⟩ := Option.map_eq_some_iff.mp h
      obtain ⟨rfl, -⟩ := Prod.mk.inj heq
      exact plain_scalar ⟨nofun, nofun⟩
    · obtain ⟨_, hbare, heq⟩ := Option.map_eq_some_iff.mp h
      obtain ⟨rfl, -⟩ := Prod.mk.inj heq
      obtain ⟨v, hv, rfl⟩ := Option.map_eq_some_iff.mp hbare
      exact plain_scalar (isScalar_of_scalarValue? hv)

theorem plain_of_pairs? {fuel room : Nat} {cs rest : List Char}
    {pairs : List (List String × Written)} (h : pairs? fuel room cs = some (pairs, rest)) :
    Plain (pairsSay pairs) := by
  match fuel with
  | 0 =>
    rw [pairs?] at h
    cases h
  | fuel + 1 =>
    unfold pairs? at h
    split at h
    · obtain ⟨rfl, -⟩ := Prod.mk.inj (Option.some.inj h)
      exact fun path v hmem => absurd hmem List.not_mem_nil
    · split at h
      · cases h
      · next pair _ hpair =>
        have hfirst := plain_below (plain_of_pair? hpair) pair.1
        split at h
        · obtain ⟨_, hrest, heq⟩ := Option.map_eq_some_iff.mp h
          obtain ⟨rfl, -⟩ := Prod.mk.inj heq
          exact plain_append hfirst (plain_of_pairs? hrest)
        · obtain ⟨rfl, -⟩ := Prod.mk.inj (Option.some.inj h)
          exact plain_append hfirst fun path v hmem => absurd hmem List.not_mem_nil
        · cases h

theorem plain_of_pair? {fuel room : Nat} {cs rest : List Char} {pair : List String × Written}
    (h : pair? fuel room cs = some (pair, rest)) : Plain pair.2.statements := by
  match fuel with
  | 0 =>
    rw [pair?] at h
    cases h
  | fuel + 1 =>
    unfold pair? at h
    split at h
    · cases h
    · split at h
      · obtain ⟨_, hvalue, heq⟩ := Option.map_eq_some_iff.mp h
        obtain ⟨rfl, -⟩ := Prod.mk.inj heq
        exact plain_of_written? hvalue
      · cases h

end

namespace ScalarLemmas

theorem plain_of_line? {fuel : Nat} {cs rest : List Char} {path : List String} {w : Written}
    (h : line? fuel cs = some (.pair path w, rest)) : Plain w.statements := by
  unfold line? at h
  split at h
  · split at h
    · cases h
    · cases h
  · split at h
    · cases h
    · cases h
  · split at h
    · obtain ⟨_, hwritten, heq⟩ := Option.map_eq_some_iff.mp h
      obtain ⟨hline, -⟩ := Prod.mk.inj heq
      obtain ⟨-, rfl⟩ := Line.pair.inj hline
      exact plain_of_written? hwritten
    · cases h

theorem plain_cons {path : List String} {what : Said} {statements : List Statement}
    (hwhat : ∀ v, what ≠ .scalar v) (h : Plain statements) :
    Plain ((path, what) :: statements) := by
  intro path' v hmem
  rcases List.mem_cons.mp hmem with heq | hmem
  · exact absurd (Prod.mk.inj heq).2.symm (hwhat v)
  · exact h path' v hmem

theorem plain_of_lines? {fuel : Nat} {header : List String} {cs : List Char} {lines : List Line}
    (h : lines? fuel cs = some lines) : Plain (saidFrom header lines) := by
  induction fuel generalizing header cs lines with
  | zero => cases h
  | succ fuel ih =>
    rw [lines?] at h
    split at h
    · obtain rfl := Option.some.inj h
      exact fun path v hmem => absurd hmem List.not_mem_nil
    split at h
    · cases h
    next line rest hline =>
    split at h
    · cases h
    obtain ⟨later, hlater, rfl⟩ := Option.map_eq_some_iff.mp h
    cases line with
    | table path => exact plain_cons nofun (ih hlater)
    | element path => exact plain_cons nofun (ih hlater)
    | pair path w =>
      exact plain_append (plain_below (plain_below (plain_of_line? hline) path) header) (ih hlater)

end ScalarLemmas

/-- What a text says to be a scalar is one. -/
theorem plain_scan {text : String} {lines : List Line} (h : scan text = some lines) :
    Plain (said lines) := plain_of_lines? h

end BackgroundScan.Toml
