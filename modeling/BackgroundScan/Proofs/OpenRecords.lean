import BackgroundScan.Proofs.Grammar

/-!
# Open records

An open record passes over the entries under keys of none of its fields. So what is read of an
object hangs on the entries under known keys alone, and of these only on what stands under which
key.

1. `Shape.keys` and `Shape.known`: the keys of a record and the entries under them.
   `decode_known`: the other entries make no difference to what is read or to the error.
   `decode_known_perm`: nor does the order of the known ones to what is read.
2. `Field.found` and `given_perm`: what a field is given is what its one or two names find.
   `Field.HoldsFrom` and `holds_iff_find?`: so a field holds what is found there.
-/

namespace BackgroundScan

/-! ## 1. Known keys -/

namespace Shape

/-- The keys of a record: every name that a field of it answers to. -/
def keys (s : Shape) : List String := s.fields.flatMap Field.allNames

/-- The entries under keys of a record. -/
def known (s : Shape) (entries : List (String × Json)) : List (String × Json) :=
  entries.filter fun e => s.keys.contains e.1

end Shape

namespace OpenRecordLemmas

open ObjectLemmas

theorem contains_keys_iff {s : Shape} {key : String} :
    s.keys.contains key = true ↔ ∃ f ∈ s.fields, f.accepts key = true := by
  rw [List.contains_iff_mem, Shape.keys, List.mem_flatMap]
  exact exists_congr fun f => and_congr_right fun _ => (accepts_iff f key).symm

theorem not_accepts_of_unknown {s : Shape} {key : String} (h : s.keys.contains key = false) :
    ∀ f ∈ s.fields, f.accepts key = false := by
  intro f hf
  refine Bool.eq_false_iff.mpr fun haccepts => ?_
  rw [contains_keys_iff.mpr ⟨f, hf, haccepts⟩] at h
  cases h

/-- A key that no field accepts fills none. -/
theorem fill_of_not_accepts {ε γ : Type} (fail : DecodeError → ε) {key : String}
    (read : (f : Field) → Except ε (f.Carrier × γ)) {fields : List Field}
    (h : ∀ f ∈ fields, f.accepts key = false) (draft : Draft fields) :
    draft.fill fail key read = .ok none := by
  induction fields with
  | nil => rfl
  | cons f rest ih =>
    obtain ⟨slot, draft⟩ := draft
    obtain ⟨hf, hrest⟩ := List.forall_mem_cons.mp h
    rw [fill_cons, hf, ih hrest draft]
    rfl

theorem known_cons_of_unknown {s : Shape} {key : String} (h : s.keys.contains key = false)
    (value : Json) (entries : List (String × Json)) :
    s.known ((key, value) :: entries) = s.known entries :=
  List.filter_cons_of_neg (Bool.eq_false_iff.mp h)

theorem known_cons_of_known {s : Shape} {key : String} (h : s.keys.contains key = true)
    (value : Json) (entries : List (String × Json)) :
    s.known ((key, value) :: entries) = (key, value) :: s.known entries :=
  List.filter_cons_of_pos h

/-- Entries under unknown keys leave a draft as it is. -/
theorem decodeEntries_known {s : Shape} (hopen : s.closed = false) (draft : Draft s.fields)
    (entries : List (String × Json)) :
    s.decodeEntries draft (s.known entries) = s.decodeEntries draft entries := by
  induction entries generalizing draft with
  | nil => rfl
  | cons entry rest ih =>
    obtain ⟨key, value⟩ := entry
    cases hkey : s.keys.contains key with
    | false =>
      rw [known_cons_of_unknown hkey, ih, Shape.decodeEntries,
        fill_of_not_accepts _ _ (not_accepts_of_unknown hkey)]
      simp only [hopen, Bool.false_eq_true, ↓reduceIte]
    | true =>
      rw [known_cons_of_known hkey, Shape.decodeEntries, Shape.decodeEntries]
      simp only [hopen, Bool.false_eq_true, ↓reduceIte, ih]

end OpenRecordLemmas

open OpenRecordLemmas

theorem decode_known {s : Shape} (hopen : s.closed = false) (entries : List (String × Json)) :
    s.decode (.object (s.known entries)) = s.decode (.object entries) :=
  decodeEntries_known hopen _ entries

/-- Two objects with the same entries under known keys, in any order, are read as the same
values. -/
theorem decode_known_perm {s : Shape} (hsep : SeparateNames s.fields) (hopen : s.closed = false)
    {entries entries' : List (String × Json)} (hperm : (s.known entries').Perm (s.known entries))
    (values : Values s.fields) :
    s.decode (.object entries') = .ok values ↔ s.decode (.object entries) = .ok values := by
  rw [← decode_known hopen entries, ← decode_known hopen entries']
  exact ⟨decode_object_perm hsep hperm, decode_object_perm hsep hperm.symm⟩

/-! ## 2. What the names of a field find -/

/-- What is found under the names of a field. -/
def Field.found (f : Field) (entries : List (String × Json)) : List Json :=
  (Json.find? f.name entries).toList ++
    (f.secondName.bind fun other => Json.find? other entries).toList

namespace OpenRecordLemmas

open ObjectLemmas

theorem find?_eq_none_of_not_mem {key : String} {entries : List (String × Json)}
    (h : key ∉ Json.keys entries) : Json.find? key entries = none := by
  induction entries with
  | nil => rfl
  | cons entry rest ih =>
    obtain ⟨first, value⟩ := entry
    obtain ⟨hfirst, hrest⟩ := not_or.mp (mt List.mem_cons.mpr h)
    rw [Json.find?, if_neg (Ne.symm hfirst), ih hrest]

/-- Under a key that is there at most once stands what is found there. -/
theorem filter_key {key : String} {entries : List (String × Json)}
    (hkeys : (Json.keys entries).Nodup) :
    (entries.filter fun e => key == e.1).map Prod.snd = (Json.find? key entries).toList := by
  induction entries with
  | nil => rfl
  | cons entry rest ih =>
    obtain ⟨first, value⟩ := entry
    obtain ⟨hfirst, hrest⟩ := List.nodup_cons.mp hkeys
    rw [List.filter_cons, Json.find?]
    by_cases hkey : first = key
    · subst hkey
      rw [if_pos (beq_self_eq_true first), if_pos rfl, List.map_cons, ih hrest,
        find?_eq_none_of_not_mem hfirst]
      rfl
    · have hne : ¬ (key == first) = true := fun h => hkey (beq_iff_eq.mp h).symm
      rw [if_neg hne, if_neg hkey, ih hrest]

/-- What entries that repeat no key give to a field is what is found under its names. -/
theorem given_perm {f : Field} (hnames : f.secondName ≠ some f.name)
    {entries : List (String × Json)} (hkeys : (Json.keys entries).Nodup) :
    (f.given entries).Perm (f.found entries) := by
  have hfirst : (f.given entries).Perm
      ((entries.filter fun e => f.name == e.1).map Prod.snd ++
        (entries.filter fun e => f.secondName == some e.1).map Prod.snd) := by
    have hsplit := (List.filter_append_perm (fun e : String × Json => f.name == e.1)
      (entries.filter fun e => f.accepts e.1)).symm
    rw [List.filter_filter, List.filter_filter] at hsplit
    rw [← List.map_append]
    refine (hsplit.map Prod.snd).trans (List.Perm.of_eq ?_)
    congr 2
    · refine List.filter_congr fun e _ => ?_
      cases hname : f.name == e.1 <;> simp [Field.accepts, hname]
    · refine List.filter_congr fun e _ => ?_
      cases hname : f.name == e.1 with
      | false => simp [Field.accepts, hname]
      | true =>
        have hother : (f.secondName == some e.1) = false := by
          rw [← beq_iff_eq.mp hname]
          exact beq_eq_false_iff_ne.mpr hnames
        rw [hother]
        rfl
  refine hfirst.trans (List.Perm.of_eq ?_)
  rw [filter_key hkeys, Field.found]
  cases f.secondName with
  | none => simp
  | some other =>
    simp only [Option.some_beq_some, filter_key hkeys, Option.bind_some]

end OpenRecordLemmas

/-- Whether a field holds `value` when it is given these values. -/
def Field.HoldsFrom (f : Field) (value : f.Carrier) : List Json → Prop
  | [] => f.absent = some value
  | [raw] => f.decode raw = .ok value
  | _ :: _ :: _ => False

/-- A field holds what is found under its one name that is there, or what it holds when absent. -/
theorem holds_iff_find? {f : Field} (hnames : f.secondName ≠ some f.name)
    {entries : List (String × Json)} (hkeys : (Json.keys entries).Nodup) (value : f.Carrier) :
    f.Holds entries value ↔ f.HoldsFrom value (f.found entries) := by
  have hperm := given_perm hnames hkeys
  unfold Field.Holds
  generalize f.found entries = values at hperm
  rcases values with _ | ⟨raw, _ | ⟨other, more⟩⟩
  · rw [hperm.eq_nil]
    exact Iff.rfl
  · rw [List.perm_singleton.mp hperm]
    exact Iff.rfl
  · generalize f.given entries = given at hperm
    -- two values are found, so as many are given
    rcases given with _ | ⟨a, _ | ⟨b, rest⟩⟩
    · cases hperm.length_eq
    · cases Nat.succ.inj hperm.length_eq
    · exact Iff.rfl

end BackgroundScan
