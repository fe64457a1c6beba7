import BackgroundScan.Json.Reader
import BackgroundScan.Proofs.Conversions

/-!
# Trees that were read

A text may list a key in an object several times. The tree that is read from it does not: every
object in it, at any depth, has each key once. So what is true only of trees without repeated keys
is true of all that a text can hold.

1. `Json.Proper`: no object in a tree has a key twice. `distinct_put`: this stays so when a key
   gets a value.
2. `proper_of_parse`: what is read from a text is proper.
-/

namespace BackgroundScan.Json

/-! ## 1. Trees without repeated keys -/

/-- Whether none of some parts is an object that has a key twice. -/
def Distinct (parts : List (Nat × Json)) : Prop :=
  ∀ part ∈ parts, ∀ entries, part.2 = .object entries → (keys entries).Nodup

/-- Whether no object in a JSON value has a key twice. -/
def Proper (raw : Json) : Prop := Distinct (raw.parts 0)

namespace ReadTreeLemmas

theorem distinct_nil : Distinct [] := fun _ h => nomatch h

theorem distinct_append {parts more : List (Nat × Json)} :
    Distinct (parts ++ more) ↔ Distinct parts ∧ Distinct more :=
  List.forall_mem_append

/-- A value that is no object adds none to the parts. -/
theorem distinct_cons {depth : Nat} {raw : Json} {more : List (Nat × Json)}
    (h : ∀ entries, raw ≠ .object entries) (hmore : Distinct more) :
    Distinct ((depth, raw) :: more) :=
  List.forall_mem_cons.mpr ⟨fun entries hobject => absurd hobject (h entries), hmore⟩

theorem distinct_object {depth : Nat} {entries : List (String × Json)}
    (hkeys : (keys entries).Nodup) (hvalues : Distinct (partsOfEntries (depth + 1) entries)) :
    Distinct (parts depth (.object entries)) := by
  refine List.forall_mem_cons.mpr ⟨fun entries' hobject => ?_, hvalues⟩
  rw [← Json.object.inj hobject]
  exact hkeys

/-- The value that a key gets takes the place of another, or comes after them all. -/
theorem distinct_put {depth : Nat} {key : String} {value : Json} {entries : List (String × Json)}
    (hvalue : Distinct (value.parts depth)) (hentries : Distinct (partsOfEntries depth entries)) :
    Distinct (partsOfEntries depth (put key value entries)) := by
  induction entries with
  | nil => exact distinct_append.mpr ⟨hvalue, distinct_nil⟩
  | cons entry rest ih =>
    obtain ⟨first, v⟩ := entry
    obtain ⟨hfirst, hrest⟩ := distinct_append.mp hentries
    rw [put]
    split
    · exact distinct_append.mpr ⟨hvalue, hrest⟩
    · exact distinct_append.mpr ⟨hfirst, ih hrest⟩

end ReadTreeLemmas

open ReadTreeLemmas

/-! ## 2. What a text holds -/

mutual

/-- What is read is proper, whatever depth it is read at. -/
theorem distinct_of_readValue {fuel room : Nat} {tokens rest : List Token} {raw : Json}
    (h : readValue fuel room tokens = some (raw, rest)) (depth : Nat) :
    Distinct (raw.parts depth) := by
  cases fuel with
  | zero => cases h
  | succ fuel =>
    unfold readValue at h
    dsimp only at h
    split at h
    · obtain ⟨rfl, -⟩ := Prod.mk.inj (Option.some.inj h)
      exact distinct_cons nofun distinct_nil
    · obtain ⟨rfl, -⟩ := Prod.mk.inj (Option.some.inj h)
      exact distinct_cons nofun distinct_nil
    · obtain ⟨rfl, -⟩ := Prod.mk.inj (Option.some.inj h)
      exact distinct_cons nofun distinct_nil
    · obtain ⟨rfl, -⟩ := Prod.mk.inj (Option.some.inj h)
      exact distinct_cons nofun distinct_nil
    · split at h
      · cases h
      · split at h
        · obtain ⟨rfl, -⟩ := Prod.mk.inj (Option.some.inj h)
          exact distinct_cons nofun distinct_nil
        · obtain ⟨⟨items, after⟩, hitems, heq⟩ := Option.map_eq_some_iff.mp h
          obtain ⟨rfl, -⟩ := Prod.mk.inj heq
          exact distinct_cons nofun (distinct_of_readItems hitems (depth + 1))
    · split at h
      · cases h
      · split at h
        · obtain ⟨rfl, -⟩ := Prod.mk.inj (Option.some.inj h)
          exact distinct_object List.nodup_nil distinct_nil
        · obtain ⟨⟨found, after⟩, hmembers, heq⟩ := Option.map_eq_some_iff.mp h
          obtain ⟨rfl, -⟩ := Prod.mk.inj heq
          obtain ⟨hkeys, hvalues⟩ :=
            distinct_of_readMembers hmembers List.nodup_nil fun _ => distinct_nil
          exact distinct_object hkeys (hvalues (depth + 1))
    · cases h

theorem distinct_of_readItems {fuel room : Nat} {tokens rest : List Token} {items : List Json}
    (h : readItems fuel room tokens = some (items, rest)) (depth : Nat) :
    Distinct (partsOfItems depth items) := by
  cases fuel with
  | zero => cases h
  | succ fuel =>
    rw [readItems] at h
    split at h
    · next hfirst =>
      obtain ⟨⟨more, after⟩, hmore, heq⟩ := Option.map_eq_some_iff.mp h
      obtain ⟨rfl, -⟩ := Prod.mk.inj heq
      exact distinct_append.mpr
        ⟨distinct_of_readValue hfirst depth, distinct_of_readItems hmore depth⟩
    · next hfirst =>
      obtain ⟨rfl, -⟩ := Prod.mk.inj (Option.some.inj h)
      exact distinct_append.mpr ⟨distinct_of_readValue hfirst depth, distinct_nil⟩
    · cases h

theorem distinct_of_readMembers {fuel room : Nat} {tokens rest : List Token}
    {sofar found : List (String × Json)}
    (h : readMembers fuel room sofar tokens = some (found, rest)) (hkeys : (keys sofar).Nodup)
    (hvalues : ∀ depth, Distinct (partsOfEntries depth sofar)) :
    (keys found).Nodup ∧ ∀ depth, Distinct (partsOfEntries depth found) := by
  cases fuel with
  | zero => cases h
  | succ fuel =>
    unfold readMembers at h
    split at h
    · split at h
      · next hfirst =>
        exact distinct_of_readMembers h (nodup_keys_put hkeys) fun depth =>
          distinct_put (distinct_of_readValue hfirst depth) (hvalues depth)
      · next hfirst =>
        obtain ⟨rfl, -⟩ := Prod.mk.inj (Option.some.inj h)
        exact ⟨nodup_keys_put hkeys, fun depth =>
          distinct_put (distinct_of_readValue hfirst depth) (hvalues depth)⟩
      · cases h
    · cases h

end

/-- What a text holds has no key twice in any object. -/
theorem proper_of_parse {room : Nat} {text : String} {raw : Json}
    (h : parse room text = some raw) : raw.Proper := by
  unfold parse at h
  dsimp only at h
  split at h
  · next hread =>
    obtain rfl := Option.some.inj h
    exact distinct_of_readValue hread 0
  · cases h

end BackgroundScan.Json
