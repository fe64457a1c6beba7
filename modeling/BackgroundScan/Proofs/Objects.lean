import BackgroundScan.Record.Tree

/-!
# What an object gives to the fields of a record

A record is read from the entries of an object one after the other, into a draft
that is finished at the end. This module says without the draft and without the
order of the entries what is read: every field by itself holds what the object
gives under its names.

1. `Field.Holds`: the value of a field is read from the one entry under its names,
   and is what the field holds when absent if there is no such entry.
2. `fill_matches` and `finish_eq_ok_iff`: what an entry, and what the end of the
   entries, mean for a draft.
3. `decode_object_eq_ok_iff`: an object is read as `values` exactly when every field
   holds its value and, if the record is closed, every key is a name of a field.
4. `optional_holds`: an optional field holds what the object gives under its
   name, where null counts as nothing given.
-/

namespace BackgroundScan

/-! ## 1. What a field holds -/

namespace Field

/-- The names that a field answers to. -/
def allNames (f : Field) : List String := f.name :: f.secondName.toList

/-- What the entries of an object give under the names of a field. -/
def given (f : Field) (entries : List (String × Json)) : List Json :=
  (entries.filter fun e => f.accepts e.1).map Prod.snd

/-- Whether a field holds `value` when the given entries were read. -/
def Holds (f : Field) (entries : List (String × Json)) (value : f.Carrier) : Prop :=
  match f.given entries with
  | [] => f.absent = some value
  | [raw] => f.decode raw = .ok value
  | _ :: _ :: _ => False

end Field

/-- Whether every field holds its value. -/
def Values.Match : {fields : List Field} → Values fields → List (String × Json) → Prop
  | [], _, _ => True
  | f :: _, (value, values), entries => f.Holds entries value ∧ Values.Match values entries

/-- Whether a draft comes to the values when the given entries are still to be read: a
field that is filled keeps what it has, and nothing more may be given to it. -/
def Draft.Match :
    {fields : List Field} → Draft fields → List (String × Json) → Values fields → Prop
  | [], _, _, _ => True
  | f :: _, (slot, rest), entries, (value, values) =>
    (match slot with
      | some old => old = value ∧ f.given entries = []
      | none => f.Holds entries value) ∧ Draft.Match rest entries values

/-- No name belongs to two fields. -/
def SeparateNames (fields : List Field) : Prop := (fields.flatMap Field.allNames).Nodup

instance (fields : List Field) : Decidable (SeparateNames fields) := by
  unfold SeparateNames
  infer_instance

/-! ## 2. Drafts -/

namespace ObjectLemmas

theorem accepts_iff (f : Field) (key : String) :
    f.accepts key = true ↔ key ∈ f.allNames := by
  obtain ⟨name, secondName, _, _, _⟩ := f
  cases secondName with
  | none =>
    simp only [Field.accepts, Field.allNames, Bool.or_eq_true, beq_iff_eq, reduceCtorEq, or_false,
      Option.toList_none, List.mem_singleton]
    exact eq_comm
  | some other =>
    simp only [Field.accepts, Field.allNames, Bool.or_eq_true, beq_iff_eq, Option.some.injEq,
      Option.toList_some, List.mem_cons, List.not_mem_nil, or_false]
    exact or_congr eq_comm eq_comm

theorem given_of_accepts {f : Field} {key : String} (h : f.accepts key = true) (raw : Json)
    (entries : List (String × Json)) :
    f.given ((key, raw) :: entries) = raw :: f.given entries := by
  simp [Field.given, h]

theorem given_of_not_accepts {f : Field} {key : String} (h : f.accepts key = false) (raw : Json)
    (entries : List (String × Json)) : f.given ((key, raw) :: entries) = f.given entries := by
  simp [Field.given, h]

theorem holds_of_not_accepts {f : Field} {key : String} (h : f.accepts key = false) (raw : Json)
    (entries : List (String × Json)) (value : f.Carrier) :
    f.Holds ((key, raw) :: entries) value ↔ f.Holds entries value := by
  rw [Field.Holds, Field.Holds, given_of_not_accepts h]

/-- A field of which an entry is read holds what that entry gives, and nothing more
may be given to it. -/
theorem holds_of_accepts {f : Field} {key : String} (h : f.accepts key = true) (raw : Json)
    (entries : List (String × Json)) (value : f.Carrier) :
    f.Holds ((key, raw) :: entries) value ↔
      f.decode raw = .ok value ∧ f.given entries = [] := by
  rw [Field.Holds, given_of_accepts h]
  cases f.given entries <;> simp

/-- The names of the first field are none of the others'. -/
theorem not_accepts_of_separate {f : Field} {rest : List Field} {key : String}
    (hsep : SeparateNames (f :: rest)) (h : f.accepts key = true) {g : Field} (hg : g ∈ rest) :
    g.accepts key = false := by
  obtain ⟨-, -, hdisjoint⟩ := List.nodup_append.mp hsep
  refine Bool.eq_false_iff.mpr fun hkey => ?_
  have hmem : key ∈ rest.flatMap Field.allNames :=
    List.mem_flatMap.mpr ⟨g, hg, (accepts_iff g key).mp hkey⟩
  exact hdisjoint key ((accepts_iff f key).mp h) key hmem rfl

theorem separate_tail {f : Field} {rest : List Field} (hsep : SeparateNames (f :: rest)) :
    SeparateNames rest :=
  (List.nodup_append.mp hsep).2.1

/-- An entry under a name of no field is passed over. -/
theorem match_of_not_accepts {fields : List Field} {key : String}
    (h : ∀ f ∈ fields, f.accepts key = false) (raw : Json) (entries : List (String × Json))
    (draft : Draft fields) (values : Values fields) :
    draft.Match ((key, raw) :: entries) values ↔ draft.Match entries values := by
  induction fields with
  | nil => exact Iff.rfl
  | cons f rest ih =>
    obtain ⟨slot, draft⟩ := draft
    obtain ⟨value, values⟩ := values
    have hf := h f List.mem_cons_self
    have hrest := ih (fun g hg => h g (List.mem_cons_of_mem _ hg)) draft values
    cases slot with
    | none => simp only [Draft.Match, holds_of_not_accepts hf, hrest]
    | some old => simp only [Draft.Match, given_of_not_accepts hf, hrest]

theorem fill_cons {ε γ : Type} (fail : DecodeError → ε) (key : String)
    (read : (f : Field) → Except ε (f.Carrier × γ)) {f : Field} {fields : List Field}
    (slot : Option f.Carrier) (draft : Draft fields) :
    @Draft.fill _ _ fail key read (f :: fields) (slot, draft) =
      if f.accepts key then
        match slot with
        | some _ => .error (fail (.duplicateField f.name))
        | none => (read f).map fun (value, after) => some ((some value, draft), after)
      else
        (draft.fill fail key read).map fun found =>
          found.map fun (rest, after) => ((slot, rest), after) := rfl

/-- What one entry means for a draft. -/
theorem fill_matches {fields : List Field} (hsep : SeparateNames fields) (draft : Draft fields)
    (key : String) (raw : Json) :
    match draft.fill id key fun f => (f.decode raw).map fun v => (v, ()) with
    | .error _ => ∀ entries values, ¬ draft.Match ((key, raw) :: entries) values
    | .ok none => ∀ f ∈ fields, f.accepts key = false
    | .ok (some (filled, ())) =>
      (∃ f ∈ fields, f.accepts key = true) ∧
        ∀ entries values, draft.Match ((key, raw) :: entries) values ↔
          filled.Match entries values := by
  induction fields with
  | nil => exact fun f hf => absurd hf List.not_mem_nil
  | cons f rest ih =>
    obtain ⟨slot, draft⟩ := draft
    rw [fill_cons]
    cases haccepts : f.accepts key with
    | true =>
      have hothers : ∀ g ∈ rest, g.accepts key = false :=
        fun g hg => not_accepts_of_separate hsep haccepts hg
      cases slot with
      | some old =>
        rintro entries ⟨value, values⟩ ⟨⟨-, hgiven⟩, -⟩
        rw [given_of_accepts haccepts] at hgiven
        cases hgiven
      | none =>
        cases hdecode : f.decode raw with
        | error e =>
          rintro entries ⟨value, values⟩ ⟨hholds, -⟩
          rw [holds_of_accepts haccepts, hdecode] at hholds
          cases hholds.1
        | ok v =>
          refine ⟨⟨f, List.mem_cons_self, haccepts⟩, ?_⟩
          rintro entries ⟨value, values⟩
          simp only [Draft.Match, holds_of_accepts haccepts, hdecode, Except.ok.injEq,
            match_of_not_accepts hothers]
    | false =>
      have hrest := ih (separate_tail hsep) draft
      simp only [Bool.false_eq_true, ↓reduceIte]
      -- the entry is for a later field or for none, so the slot stays as it is
      cases hfill : draft.fill id key fun f => (f.decode raw).map fun v => (v, ()) with
      | error e =>
        rw [hfill] at hrest
        rintro entries ⟨value, values⟩ ⟨-, hmatch⟩
        exact hrest entries values hmatch
      | ok found =>
        rw [hfill] at hrest
        cases found with
        | none =>
          exact List.forall_mem_cons.mpr ⟨haccepts, hrest⟩
        | some filled =>
          obtain ⟨⟨g, hg, hkey⟩, hmatch⟩ := hrest
          refine ⟨⟨g, List.mem_cons_of_mem _ hg, hkey⟩, ?_⟩
          rintro entries ⟨value, values⟩
          cases slot with
          | none => simp only [Draft.Match, holds_of_not_accepts haccepts, hmatch]
          | some old => simp only [Draft.Match, given_of_not_accepts haccepts, hmatch]

theorem ok_cons_iff {f : Field} {rest : List Field} {a b : f.Carrier} {as bs : Values rest} :
    (.ok (a, as) : Except DecodeError (Values (f :: rest))) = .ok (b, bs) ↔
      a = b ∧ .ok as = (.ok bs : Except DecodeError (Values rest)) := by
  constructor
  · rintro ⟨⟩
    exact ⟨rfl, rfl⟩
  · rintro ⟨rfl, ⟨⟩⟩
    rfl

/-- The end of the entries comes to the values that a draft comes to when nothing is
left to read. -/
theorem finish_eq_ok_iff {fields : List Field} (draft : Draft fields) (values : Values fields) :
    draft.finish = .ok values ↔ draft.Match [] values := by
  induction fields with
  | nil => exact ⟨fun _ => trivial, fun _ => rfl⟩
  | cons f rest ih =>
    obtain ⟨slot, draft⟩ := draft
    obtain ⟨value, values⟩ := values
    simp only [Draft.finish, Draft.Match]
    rw [← ih draft values]
    cases slot with
    | some old =>
      have hgiven : f.given [] = [] := rfl
      simp only [Option.some_or, hgiven, and_true]
      cases draft.finish with
      | error e => exact ⟨nofun, nofun⟩
      | ok _ => exact ok_cons_iff
    | none =>
      show _ ↔ f.absent = some value ∧ _
      cases f.absent with
      | none => exact ⟨nofun, nofun⟩
      | some default =>
        simp only [Option.or_some, Option.getD_none, Option.some.injEq]
        cases draft.finish with
        | error e => exact ⟨nofun, nofun⟩
        | ok _ => exact ok_cons_iff

end ObjectLemmas

open ObjectLemmas

/-! ## 3. Whole objects -/

/-- Entries are read into a draft as `values` exactly when the draft comes to them and,
if the record is closed, every key is a name of a field. -/
theorem decodeEntries_eq_ok_iff {s : Shape} (hsep : SeparateNames s.fields)
    (draft : Draft s.fields) (entries : List (String × Json)) (values : Values s.fields) :
    s.decodeEntries draft entries = .ok values ↔
      draft.Match entries values ∧
        (s.closed = true → ∀ e ∈ entries, ∃ f ∈ s.fields, f.accepts e.1 = true) := by
  -- the draft changes with every entry; what it comes to with the rest is the invariant
  induction entries generalizing draft with
  | nil =>
    rw [Shape.decodeEntries, finish_eq_ok_iff]
    exact ⟨fun h => ⟨h, fun _ e he => absurd he List.not_mem_nil⟩, And.left⟩
  | cons entry rest ih =>
    obtain ⟨key, raw⟩ := entry
    have hfill := fill_matches hsep draft key raw
    rw [Shape.decodeEntries]
    cases hfilled : draft.fill id key fun f => (f.decode raw).map fun v => (v, ()) with
    | error e =>
      rw [hfilled] at hfill
      exact ⟨nofun, fun h => absurd h.1 (hfill rest values)⟩
    | ok found =>
      rw [hfilled] at hfill
      cases found with
      | none =>
        have hskip := match_of_not_accepts hfill raw rest draft values
        cases hclosed : s.closed with
        | true =>
          refine ⟨nofun, fun h => ?_⟩
          obtain ⟨f, hf, hkey⟩ := h.2 rfl (key, raw) List.mem_cons_self
          rw [hfill f hf] at hkey
          cases hkey
        | false =>
          have hrest := ih draft
          rw [hclosed] at hrest
          simpa [hskip] using hrest
      | some filled =>
        obtain ⟨hknown, hmatch⟩ := hfill
        simp only
        rw [ih filled.1, hmatch, List.forall_mem_cons]
        exact and_congr_right fun _ =>
          ⟨fun h hclosed => ⟨hknown, h hclosed⟩, fun h hclosed => (h hclosed).2⟩

theorem match_empty {fields : List Field} (entries : List (String × Json))
    (values : Values fields) :
    (Draft.empty fields).Match entries values ↔ values.Match entries := by
  induction fields with
  | nil => exact Iff.rfl
  | cons f rest ih =>
    obtain ⟨value, values⟩ := values
    exact and_congr_right fun _ => ih values

/-- An object is read as `values` exactly when every field holds its value and, if the
record is closed, every key is a name of a field. -/
theorem decode_object_eq_ok_iff {s : Shape} (hsep : SeparateNames s.fields)
    (entries : List (String × Json)) (values : Values s.fields) :
    s.decode (.object entries) = .ok values ↔
      values.Match entries ∧
        (s.closed = true → ∀ e ∈ entries, ∃ f ∈ s.fields, f.accepts e.1 = true) := by
  rw [Shape.decode, decodeEntries_eq_ok_iff hsep, match_empty]

/-! ## 4. Optional fields -/

/-- Whether an object, if there is one, gives a value under a key. Null is no value. -/
def Gives (raw : Option Json) (key : String) (value : Json) : Prop :=
  ∃ entries, raw = some (.object entries) ∧ (key, value) ∈ entries ∧ value ≠ .null

namespace ObjectLemmas

theorem head_eq_null_iff {raw : Json} : raw.head = .null ↔ raw = .null := by
  cases raw <;> simp [Json.head]

/-- An optional scalar is null, or is read as the scalar. -/
theorem optional_eq_ok {α : Type} {read : Scalar α} {raw : Json} {held : Option α}
    (h : read.optional raw.head = .ok held) :
    (raw = .null ∧ held = none) ∨ ∃ a, raw ≠ .null ∧ held = some a ∧ read raw.head = .ok a := by
  unfold Scalar.optional at h
  split at h
  · next hnull => exact .inl ⟨head_eq_null_iff.mp hnull, (Except.ok.inj h).symm⟩
  · next hnull =>
    obtain ⟨a, hread, hheld⟩ := map_eq_ok_iff.mp h
    exact .inr ⟨a, mt head_eq_null_iff.mpr hnull, hheld.symm, hread⟩

/-- The entries under the name of an optional field are those that are given to it. -/
theorem mem_given_optional {α : Type} {key : String} (read : Scalar α) {value : Json}
    {entries : List (String × Json)} :
    value ∈ (Field.optional key read).given entries ↔ (key, value) ∈ entries := by
  simp [Field.given, Field.optional, Field.accepts]

end ObjectLemmas

/-- An optional field holds the one value that the object gives under its name, and
nothing where no value is given. -/
theorem optional_holds {α : Type} {key : String} {read : Scalar α}
    {entries : List (String × Json)} {held : Option α}
    (h : (Field.optional key read).Holds entries held) :
    (held = none ∧ ∀ value, ¬ Gives (some (.object entries)) key value) ∨
      ∃ a value, held = some a ∧ Gives (some (.object entries)) key value ∧
        (∀ other, Gives (some (.object entries)) key other → other = value) ∧
        read value.head = .ok a := by
  unfold Field.Holds at h
  cases hgiven : (Field.optional key read).given entries with
  | nil =>
    rw [hgiven] at h
    refine .inl ⟨(Option.some.inj h).symm, ?_⟩
    rintro value ⟨_, ⟨⟩, hentry, -⟩
    rw [← mem_given_optional read, hgiven] at hentry
    cases hentry
  | cons raw more =>
    rw [hgiven] at h
    cases more with
    | cons _ _ => exact h.elim
    | nil =>
      rcases optional_eq_ok h with ⟨hnull, hheld⟩ | ⟨a, hvalue, hheld, hread⟩
      · refine .inl ⟨hheld, ?_⟩
        rintro value ⟨_, ⟨⟩, hentry, hvalue⟩
        rw [← mem_given_optional read, hgiven, List.mem_singleton] at hentry
        exact hvalue (hentry.trans hnull)
      · have hentry : (key, raw) ∈ entries := by
          rw [← mem_given_optional read, hgiven]
          exact List.mem_singleton_self raw
        refine .inr ⟨a, raw, hheld, ⟨entries, rfl, hentry, hvalue⟩, ?_, hread⟩
        rintro other ⟨_, ⟨⟩, hother, -⟩
        rwa [← mem_given_optional read, hgiven, List.mem_singleton] at hother

end BackgroundScan
