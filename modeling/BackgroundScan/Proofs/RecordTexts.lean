import BackgroundScan.Proofs.OpenRecords
import BackgroundScan.Proofs.Written
import BackgroundScan.Record.Text

/-!
# Records read from text and from trees

A record can be read from the tokens of a text as they come, or from the tree of that text once
it is finished. The first never sees the whole: it passes over what it does not need, and stops
at the first problem. This module shows that the two agree on a text that is JSON, as long as an
object repeats no known key, which its tree does not show, and an array is not longer than the
record, which the two report in different ways.

1. `Json.ReadsValue`: what the tokens of a value can be. `Field.Shallow` and `read_of_readValue`: a
   field takes from them what it takes from the tree.
2. `Json.Members` and `readMembers_of_members`: the members of an object are read one after the
   other as entries of a tree are, repeated keys included. `written_of_members`: the same keys
   stand in the text.
3. `decode_putAll`: the tree of the object keeps one entry for each key, and that is all that
   matters if no known key is repeated.
4. `readElements_of_readItems`: the elements of an array are read as those of a tree are.
5. `decodeText_of_parse`: a whole text.
-/

namespace BackgroundScan

open Json (Token Written)

/-! ## 1. One value -/

namespace Json

/-- What the tokens of a value can be, the tree that is read from them and the tokens after. -/
inductive ReadsValue : (fuel room : Nat) → List Token → Json → List Token → Prop
  | scalar {fuel room : Nat} {tokens rest : List Token} {raw : Json}
      (hhead : readHead tokens = some (raw.head, rest)) (hsequence : raw.head ≠ .sequence)
      (hmap : raw.head ≠ .map) : ReadsValue (fuel + 1) room tokens raw rest
  | emptyArray {fuel room : Nat} {rest : List Token} :
      ReadsValue (fuel + 1) (room + 1) (.openBracket :: .closeBracket :: rest) (.array []) rest
  | array {fuel room : Nat} {tokens rest : List Token} {items : List Json}
      (hnonempty : ∀ after, tokens ≠ .closeBracket :: after)
      (hitems : readItems fuel room tokens = some (items, rest)) :
      ReadsValue (fuel + 1) (room + 1) (.openBracket :: tokens) (.array items) rest
  | emptyObject {fuel room : Nat} {rest : List Token} :
      ReadsValue (fuel + 1) (room + 1) (.openBrace :: .closeBrace :: rest) (.object []) rest
  | object {fuel room : Nat} {tokens rest : List Token} {entries : List (String × Json)}
      (hnonempty : ∀ after, tokens ≠ .closeBrace :: after)
      (hmembers : readMembers fuel room [] tokens = some (entries, rest)) :
      ReadsValue (fuel + 1) (room + 1) (.openBrace :: tokens) (.object entries) rest

end Json

namespace RecordTextLemmas

open Json

theorem readsValue_of_readValue {fuel room : Nat} {tokens rest : List Token} {raw : Json}
    (h : readValue fuel room tokens = some (raw, rest)) :
    ReadsValue fuel room tokens raw rest := by
  cases fuel with
  | zero => cases h
  | succ fuel =>
    unfold readValue at h
    dsimp only at h
    split at h
    case h_5 =>
      split at h
      · cases h
      · split at h
        · obtain ⟨rfl, rfl⟩ := Prod.mk.inj (Option.some.inj h)
          exact .emptyArray
        · next hnonempty =>
          obtain ⟨⟨items, after⟩, hitems, heq⟩ := Option.map_eq_some_iff.mp h
          obtain ⟨rfl, rfl⟩ := Prod.mk.inj heq
          exact .array hnonempty hitems
    case h_6 =>
      split at h
      · cases h
      · split at h
        · obtain ⟨rfl, rfl⟩ := Prod.mk.inj (Option.some.inj h)
          exact .emptyObject
        · next hnonempty =>
          obtain ⟨⟨entries, after⟩, hentries, heq⟩ := Option.map_eq_some_iff.mp h
          obtain ⟨rfl, rfl⟩ := Prod.mk.inj heq
          exact .object hnonempty hentries
    case h_7 => cases h
    all_goals
      obtain ⟨rfl, rfl⟩ := Prod.mk.inj (Option.some.inj h)
      refine .scalar rfl ?_ ?_ <;> rintro ⟨⟩

/-- A scalar is one token, and passing over it takes that. -/
theorem skipValue_of_readHead {tokens rest : List Token} {head : Head}
    (h : readHead tokens = some (head, rest)) (hsequence : head ≠ .sequence) (hmap : head ≠ .map)
    (fuel : Nat) : skipValue (fuel + 1) tokens = some rest := by
  unfold readHead at h
  split at h
  case h_5 => exact absurd (Prod.mk.inj (Option.some.inj h)).1.symm hsequence
  case h_6 => exact absurd (Prod.mk.inj (Option.some.inj h)).1.symm hmap
  case h_7 => cases h
  all_goals exact congrArg some (Prod.mk.inj (Option.some.inj h)).2

mutual

/-- Passing over a value ends where reading it ends. -/
theorem skipValue_of_readValue {fuel room : Nat} {tokens rest : List Token} {raw : Json}
    (h : readValue fuel room tokens = some (raw, rest)) : skipValue fuel tokens = some rest := by
  cases fuel with
  | zero => cases h
  | succ fuel =>
    cases readsValue_of_readValue h with
    | scalar hhead hsequence hmap => exact skipValue_of_readHead hhead hsequence hmap fuel
    | emptyArray => rfl
    | array hnonempty hitems =>
      rw [skipValue, skipItems_of_readItems hitems]
      exact hnonempty
    | emptyObject => rfl
    | object hnonempty hmembers =>
      rw [skipValue, skipMembers_of_readMembers hmembers]
      exact hnonempty

theorem skipItems_of_readItems {fuel room : Nat} {tokens rest : List Token} {items : List Json}
    (h : readItems fuel room tokens = some (items, rest)) : skipItems fuel tokens = some rest := by
  cases fuel with
  | zero => cases h
  | succ fuel =>
    rw [readItems] at h
    rw [skipItems]
    split at h
    · next hfirst =>
      obtain ⟨⟨more, after⟩, hmore, heq⟩ := Option.map_eq_some_iff.mp h
      obtain ⟨-, rfl⟩ := Prod.mk.inj heq
      rw [skipValue_of_readValue hfirst]
      exact skipItems_of_readItems hmore
    · next hfirst =>
      obtain ⟨-, rfl⟩ := Prod.mk.inj (Option.some.inj h)
      rw [skipValue_of_readValue hfirst]
    · cases h

theorem skipMembers_of_readMembers {fuel room : Nat} {tokens rest : List Token}
    {sofar found : List (String × Json)}
    (h : readMembers fuel room sofar tokens = some (found, rest)) :
    skipMembers fuel tokens = some rest := by
  cases fuel with
  | zero => cases h
  | succ fuel =>
    unfold readMembers at h
    split at h
    · rw [skipMembers]
      split at h
      · next hfirst =>
        rw [skipValue_of_readValue hfirst]
        exact skipMembers_of_readMembers h
      · next hfirst =>
        obtain ⟨-, rfl⟩ := Prod.mk.inj (Option.some.inj h)
        rw [skipValue_of_readValue hfirst]
      · cases h
    · cases h

end

/-- The head of a value is the head of its tree; after a scalar nothing is left of it. -/
theorem readHead_of_readValue {fuel room : Nat} {tokens rest : List Token} {raw : Json}
    (h : readValue fuel room tokens = some (raw, rest)) :
    ∃ after, readHead tokens = some (raw.head, after) ∧
      (raw.head ≠ .sequence → raw.head ≠ .map → after = rest) := by
  cases readsValue_of_readValue h with
  | scalar hhead => exact ⟨rest, hhead, fun _ _ => rfl⟩
  | emptyArray => exact ⟨_, rfl, fun hne => absurd rfl hne⟩
  | array => exact ⟨_, rfl, fun hne => absurd rfl hne⟩
  | emptyObject => exact ⟨_, rfl, fun _ hne => absurd rfl hne⟩
  | object => exact ⟨_, rfl, fun _ hne => absurd rfl hne⟩

end RecordTextLemmas

/-- What a tree is read as, where its tokens are followed by others. -/
def leaving {α : Type} (rest : List Token) (x : Except DecodeError α) :
    Except TextError (α × List Token) :=
  (x.mapError .decode).map fun a => (a, rest)

/-- Whether a field that looks at heads alone refuses those of containers, so that it never leaves
a part of a value behind. -/
def Field.Shallow (f : Field) : Prop :=
  match f.reading with
  | .scalar read => (∃ e, read .sequence = .error e) ∧ ∃ e, read .map = .error e
  | .tree _ => True

namespace RecordTextLemmas

open Json

/-- A field takes from the tokens of a value what it takes from the tree. -/
theorem read_of_readValue {f : Field} (hf : f.Shallow) {fuel room : Nat}
    {tokens rest : List Token} {raw : Json} (h : readValue fuel room tokens = some (raw, rest)) :
    f.read fuel room tokens = leaving rest (f.decode raw) := by
  unfold Field.Shallow at hf
  unfold Field.read Field.decode
  cases hreading : f.reading with
  | tree read =>
    dsimp only
    rw [h]
    dsimp only
    cases read raw <;> rfl
  | scalar read =>
    rw [hreading] at hf
    obtain ⟨⟨e, hsequence⟩, e', hmap⟩ := hf
    obtain ⟨after, hhead, hafter⟩ := readHead_of_readValue h
    dsimp only
    rw [hhead]
    dsimp only
    cases hread : read raw.head with
    | error cause => rfl
    | ok value =>
      -- a container is refused, so the value is a scalar and its head is all of it
      have hscalar : after = rest := by
        refine hafter ?_ ?_ <;> intro heq <;> rw [heq] at hread
        · cases hsequence.symm.trans hread
        · cases hmap.symm.trans hread
      rw [hscalar]
      rfl

end RecordTextLemmas

/-! ## 2. The members of an object -/

/-- Reads one entry of an object into a draft. -/
def Shape.decodeEntry (s : Shape) (draft : Draft s.fields) (key : String) (value : Json) :
    Except DecodeError (Draft s.fields) :=
  match draft.fill id key fun f => (f.decode value).map fun v => (v, ()) with
  | .error e => .error e
  | .ok (some (draft, ())) => .ok draft
  | .ok none => if s.closed then .error (.unknownField key s.names) else .ok draft

namespace RecordTextLemmas

open Json

theorem decodeEntries_cons (s : Shape) (draft : Draft s.fields) (key : String) (value : Json)
    (rest : List (String × Json)) :
    s.decodeEntries draft ((key, value) :: rest) =
      match s.decodeEntry draft key value with
      | .error e => .error e
      | .ok draft => s.decodeEntries draft rest := by
  rw [Shape.decodeEntries, Shape.decodeEntry]
  rcases draft.fill id key fun f => (f.decode value).map fun v => (v, ()) with
    e | _ | ⟨filled, ⟨⟩⟩
  · rfl
  · cases s.closed <;> rfl
  · rfl

/-- A draft is filled from the tokens of a value as it is from the tree. -/
theorem fill_leaving {fields : List Field} {key : String} {raw : Json} {rest : List Token}
    {read : (f : Field) → Except TextError (f.Carrier × List Token)}
    (hread : ∀ f ∈ fields, read f = leaving rest (f.decode raw)) (draft : Draft fields) :
    draft.fill .decode key read =
      ((draft.fill id key fun f => (f.decode raw).map fun v => (v, ())).mapError .decode).map
        (Option.map fun filled => (filled.1, rest)) := by
  induction fields with
  | nil => rfl
  | cons f fields ih =>
    obtain ⟨slot, draft⟩ := draft
    obtain ⟨hf, hfields⟩ := List.forall_mem_cons.mp hread
    rw [ObjectLemmas.fill_cons, ObjectLemmas.fill_cons]
    cases f.accepts key with
    | true =>
      simp only [↓reduceIte]
      cases slot with
      | some old => rfl
      | none =>
        rw [hf]
        cases f.decode raw <;> rfl
    | false =>
      simp only [Bool.false_eq_true, ↓reduceIte]
      rw [ih hfields draft]
      rcases draft.fill id key fun f => (f.decode raw).map fun v => (v, ()) with
        e | _ | ⟨filled, ⟨⟩⟩ <;> rfl

/-- A member is read from its tokens as it is from the tree of its value. -/
theorem readMember_of_readValue {s : Shape} (hs : ∀ f ∈ s.fields, f.Shallow) {fuel room : Nat}
    {tokens rest : List Token} {raw : Json} (h : readValue fuel room tokens = some (raw, rest))
    (draft : Draft s.fields) (key : String) :
    s.readMember fuel room draft key (.colon :: tokens) =
      leaving rest (s.decodeEntry draft key raw) := by
  have hread : ∀ f ∈ s.fields, f.read fuel room tokens = leaving rest (f.decode raw) :=
    fun f hf => read_of_readValue (hs f hf) h
  rw [Shape.readMember, Shape.decodeEntry]
  dsimp only
  rw [fill_leaving hread, skipValue_of_readValue h]
  rcases draft.fill id key fun f => (f.decode raw).map fun v => (v, ()) with
    e | _ | ⟨filled, ⟨⟩⟩
  · rfl
  · cases s.closed <;> rfl
  · rfl

end RecordTextLemmas

namespace Json

/-- Whether tokens begin with these members and a closing brace, before the rest. -/
inductive Members (room : Nat) :
    Nat → List Token → List (String × Json) → List Token → Prop
  | last {fuel : Nat} {key : String} {tokens rest : List Token} {value : Json}
      (hvalue : readValue fuel room tokens = some (value, .closeBrace :: rest)) :
      Members room (fuel + 1) (.string (some key) :: .colon :: tokens) [(key, value)] rest
  | more {fuel : Nat} {key : String} {tokens after rest : List Token} {value : Json}
      {members : List (String × Json)}
      (hvalue : readValue fuel room tokens = some (value, .comma :: after))
      (hmembers : Members room fuel after members rest) :
      Members room (fuel + 1) (.string (some key) :: .colon :: tokens) ((key, value) :: members)
        rest

/-- Puts members into an object one after the other. -/
def putAll (sofar : List (String × Json)) : List (String × Json) → List (String × Json)
  | [] => sofar
  | (key, value) :: rest => putAll (put key value sofar) rest

end Json

namespace RecordTextLemmas

open Json

theorem members_of_readMembers {fuel room : Nat} {tokens rest : List Token}
    {sofar found : List (String × Json)}
    (h : readMembers fuel room sofar tokens = some (found, rest)) :
    ∃ members, Members room fuel tokens members rest ∧ found = putAll sofar members := by
  induction fuel generalizing tokens sofar with
  | zero => cases h
  | succ fuel ih =>
    unfold readMembers at h
    split at h
    · split at h
      · next hvalue =>
        obtain ⟨members, hmembers, rfl⟩ := ih h
        exact ⟨_, .more hvalue hmembers, rfl⟩
      · next hvalue =>
        obtain ⟨rfl, rfl⟩ := Prod.mk.inj (Option.some.inj h)
        exact ⟨_, .last hvalue, rfl⟩
      · cases h
    · cases h

/-- The members of an object are read one after the other as the entries of a tree are. -/
theorem readMembers_of_members {s : Shape} (hs : ∀ f ∈ s.fields, f.Shallow) {fuel room : Nat}
    {tokens rest : List Token} {members : List (String × Json)}
    (h : Members room fuel tokens members rest) (draft : Draft s.fields) :
    s.readMembers fuel room draft tokens = leaving rest (s.decodeEntries draft members) := by
  induction h generalizing draft with
  | last hvalue =>
    rw [Shape.readMembers, readMember_of_readValue hs hvalue, decodeEntries_cons]
    cases s.decodeEntry draft _ _ with
    | error e => rfl
    | ok filled =>
      dsimp only [leaving, Except.mapError, Except.map]
      rw [Shape.readFinish, Shape.decodeEntries]
      cases filled.finish <;> rfl
  | more hvalue _ ih =>
    rw [Shape.readMembers, readMember_of_readValue hs hvalue, decodeEntries_cons]
    cases s.decodeEntry draft _ _ with
    | error e => rfl
    | ok filled => exact ih filled

open Written WrittenLemmas in
/-- Members stand in a text as they are written, with the same keys. -/
theorem written_of_members {fuel room : Nat} {tokens rest : List Token}
    {members : List (String × Json)} (h : Members room fuel tokens members rest)
    {ls : List Lexeme} (hls : Spells ls tokens) :
    ∃ (key : String) (w : Written) (ms : List (String × Written)) (ls' : List Lexeme),
      ls = mark (.string (some key)) :: mark .colon :: (w.lexemes ++ lexemesOfMembers ms) ++ ls' ∧
        Spells ls' rest ∧ key :: ms.map Prod.fst = keys members := by
  induction h generalizing ls with
  | @last _ key _ _ _ hvalue =>
    obtain ⟨ls', rfl, hcolon⟩ := uncons_mark (fun _ h => by cases h) hls
    obtain ⟨ls'', rfl, hafter⟩ := uncons_mark (fun _ h => by cases h) hcolon
    obtain ⟨w, ls', rfl, hclose, -⟩ := written_of_readValue hvalue hafter
    obtain ⟨ls'', rfl, hrest⟩ := uncons_mark (fun _ h => by cases h) hclose
    refine ⟨key, w, [], ls'', ?_, hrest, rfl⟩
    simp only [lexemesOfMembers, List.append_assoc, List.cons_append, List.nil_append]
  | @more _ key _ _ _ _ _ hvalue _ ih =>
    obtain ⟨ls', rfl, hcolon⟩ := uncons_mark (fun _ h => by cases h) hls
    obtain ⟨ls'', rfl, hafter⟩ := uncons_mark (fun _ h => by cases h) hcolon
    obtain ⟨w, ls', rfl, hcomma, -⟩ := written_of_readValue hvalue hafter
    obtain ⟨ls'', rfl, hmore⟩ := uncons_mark (fun _ h => by cases h) hcomma
    obtain ⟨key', w', ms, ls', rfl, hrest, hkeys⟩ := ih hmore
    refine ⟨key, w, (key', w') :: ms, ls', ?_, hrest, ?_⟩
    · simp only [lexemesOfMembers, List.append_assoc, List.cons_append]
    · rw [List.map_cons, hkeys]
      rfl

/-! ## 3. Keys that are repeated -/

theorem put_of_not_mem {key : String} {entries : List (String × Json)} (h : key ∉ keys entries)
    (value : Json) : put key value entries = entries ++ [(key, value)] := by
  induction entries with
  | nil => rfl
  | cons entry rest ih =>
    obtain ⟨first, old⟩ := entry
    obtain ⟨hfirst, hrest⟩ := not_or.mp (mt List.mem_cons.mpr h)
    rw [put, if_neg (Ne.symm hfirst), ih hrest]
    rfl

theorem known_put_of_unknown {s : Shape} {key : String} (h : s.keys.contains key = false)
    (value : Json) (entries : List (String × Json)) :
    s.known (put key value entries) = s.known entries := by
  induction entries with
  | nil => exact OpenRecordLemmas.known_cons_of_unknown h value []
  | cons entry rest ih =>
    obtain ⟨first, old⟩ := entry
    rw [put]
    by_cases hfirst : first = key
    · subst hfirst
      rw [if_pos rfl, OpenRecordLemmas.known_cons_of_unknown h,
        OpenRecordLemmas.known_cons_of_unknown h]
    · rw [if_neg hfirst, Shape.known, Shape.known, List.filter_cons, List.filter_cons]
      rw [Shape.known, Shape.known] at ih
      rw [ih]

theorem known_append (s : Shape) (entries more : List (String × Json)) :
    s.known (entries ++ more) = s.known entries ++ s.known more :=
  List.filter_append ..

/-- Putting a member into an object makes no difference to the known entries, unless it has a
known key that is there already. -/
theorem known_put_append {s : Shape} {key : String} {value : Json}
    {sofar rest : List (String × Json)}
    (h : (keys (s.known (sofar ++ (key, value) :: rest))).Nodup) :
    s.known (put key value sofar ++ rest) = s.known (sofar ++ (key, value) :: rest) := by
  cases hkey : s.keys.contains key with
  | false =>
    rw [known_append, known_append, known_put_of_unknown hkey,
      OpenRecordLemmas.known_cons_of_unknown hkey]
  | true =>
    have hnew : key ∉ keys sofar := by
      intro hmem
      obtain ⟨⟨_, old⟩, hold, rfl⟩ := List.mem_map.mp hmem
      rw [known_append, OpenRecordLemmas.known_cons_of_known hkey, keys, List.map_append] at h
      have hknown : (_, old) ∈ s.known sofar := List.mem_filter.mpr ⟨hold, hkey⟩
      exact (List.nodup_append.mp h).2.2 _ (List.mem_map_of_mem hknown) _ List.mem_cons_self rfl
    rw [put_of_not_mem hnew, List.append_assoc, List.singleton_append]

/-- Of members that repeat no known key the object keeps all that are known. -/
theorem known_putAll {s : Shape} {sofar members : List (String × Json)}
    (h : (keys (s.known (sofar ++ members))).Nodup) :
    s.known (putAll sofar members) = s.known (sofar ++ members) := by
  induction members generalizing sofar with
  | nil => rw [putAll, List.append_nil]
  | cons member rest ih =>
    obtain ⟨key, value⟩ := member
    have hput := known_put_append h
    rw [putAll, ih (by rwa [hput]), hput]

/-- An object is read as the members are that were put into it. -/
theorem decode_putAll {s : Shape} (hopen : s.closed = false) {members : List (String × Json)}
    (h : (keys (s.known members)).Nodup) :
    s.decode (.object (putAll [] members)) = s.decode (.object members) := by
  rw [← decode_known hopen, known_putAll h, List.nil_append, decode_known hopen]

/-! ## 4. The elements of an array -/

theorem ne_closeBracket_of_readItems {fuel room : Nat} {tokens : List Token}
    {found : List Json × List Token} (h : readItems fuel room tokens = some found) :
    ∀ rest, tokens ≠ .closeBracket :: rest := by
  rintro rest rfl
  cases fuel with
  | zero => cases h
  | succ fuel =>
    rw [readItems] at h
    cases fuel <;> cases h

theorem ne_zero_of_readValue {fuel room : Nat} {tokens : List Token} {found : Json × List Token}
    (h : readValue fuel room tokens = some found) : fuel ≠ 0 := by
  rintro rfl
  cases h

theorem nextElement_first {tokens : List Token} (h : ∀ rest, tokens ≠ .closeBracket :: rest) :
    Shape.nextElement 0 tokens = .ok (some tokens) := by
  unfold Shape.nextElement
  split
  · exact absurd rfl (h _)
  · rfl
  all_goals contradiction

theorem nextElement_further (count : Nat) {tokens : List Token}
    (h : ∀ rest, tokens ≠ .closeBracket :: rest) :
    Shape.nextElement (count + 1) (.comma :: tokens) = .ok (some tokens) := by
  rw [Shape.nextElement]
  exact h

/-- Nothing is left for the fields that come after the last element of an array. -/
theorem readElements_of_end (s : Shape) {fuel room : Nat} (hfuel : fuel ≠ 0) (count : Nat)
    (fields : List Field) (rest : List Token) :
    s.readElements room fuel count fields (.closeBracket :: rest) =
      leaving (.closeBracket :: rest) (s.decodeItems count fields []) := by
  cases fields with
  | nil => cases fuel <;> rfl
  | cons f fields =>
    cases fuel with
    | zero => exact absurd rfl hfuel
    | succ fuel =>
      have hend : Shape.nextElement count (.closeBracket :: rest) = .ok none := by
        cases count <;> rfl
      rw [Shape.readElements, hend, Shape.decodeItems]
      cases Values.absent? (f :: fields) <;> rfl

/-- An element is read from its tokens as it is from the tree of its value, if that holds of what
comes after it. -/
theorem readElements_cons (s : Shape) {fuel room count : Nat} {f : Field} {fields : List Field}
    {tokens ahead after rest : List Token} {item : Json} {items : List Json} (length : Nat)
    (hf : f.Shallow) (hahead : Shape.nextElement count ahead = .ok (some tokens))
    (hitem : readValue fuel room tokens = some (item, after))
    (hafter : s.readElements room fuel (count + 1) fields after =
      leaving rest (s.decodeItems length fields items)) :
    s.readElements room (fuel + 1) count (f :: fields) ahead =
      leaving rest (s.decodeItems length (f :: fields) (item :: items)) := by
  rw [Shape.readElements, hahead, Shape.decodeItems]
  dsimp only
  rw [read_of_readValue hf hitem]
  cases f.decode item with
  | error e => rfl
  | ok value =>
    dsimp only [leaving, Except.mapError, Except.map] at hafter ⊢
    rw [hafter]
    cases s.decodeItems length fields items <;> rfl

/-- The elements of an array are read one after the other as those of a tree are, `count` of them
before. -/
theorem readElements_of_readItems (s : Shape) {fuel room : Nat} {tokens rest : List Token}
    {items : List Json} (h : readItems fuel room tokens = some (items, rest))
    {fields : List Field} (hs : ∀ f ∈ fields, f.Shallow) (hlength : items.length ≤ fields.length)
    {count : Nat} {ahead : List Token}
    (hahead : Shape.nextElement count ahead = .ok (some tokens)) :
    s.readElements room fuel count fields ahead =
      leaving (.closeBracket :: rest) (s.decodeItems (count + items.length) fields items) := by
  induction fuel generalizing tokens items fields count ahead with
  | zero => cases h
  | succ fuel ih =>
    rw [readItems] at h
    split at h
    · next item after hitem =>
      obtain ⟨⟨more, left⟩, hmore, heq⟩ := Option.map_eq_some_iff.mp h
      obtain ⟨rfl, rfl⟩ := Prod.mk.inj heq
      cases fields with
      | nil => cases hlength
      | cons f fields =>
        obtain ⟨hf, hfields⟩ := List.forall_mem_cons.mp hs
        have hnext := nextElement_further count (ne_closeBracket_of_readItems hmore)
        have htail := ih hmore hfields (Nat.le_of_succ_le_succ hlength) hnext
        rw [Nat.add_assoc, Nat.add_comm 1] at htail
        exact readElements_cons s _ hf hahead hitem htail
    · next item after hitem =>
      obtain ⟨rfl, rfl⟩ := Prod.mk.inj (Option.some.inj h)
      cases fields with
      | nil => cases hlength
      | cons f fields =>
        obtain ⟨hf, hfields⟩ := List.forall_mem_cons.mp hs
        exact readElements_cons s _ hf hahead hitem
          (readElements_of_end s (ne_zero_of_readValue hitem) _ fields _)
    · cases h

end RecordTextLemmas

/-! ## 5. Whole texts -/

/-- The keys of an object as it is written, each as often as it stands there. -/
def Json.Written.topKeys : Written → List String
  | .object members => members.map Prod.fst
  | _ => []

namespace RecordTextLemmas

open Json Written WrittenLemmas

theorem keys_known (s : Shape) (entries : List (String × Json)) :
    keys (s.known entries) = (keys entries).filter s.keys.contains := by
  rw [keys, keys, List.filter_map]
  rfl

/-- An object is read from its tokens as it is from the tree, if it repeats no known key. -/
theorem readMembers_of_object {s : Shape} (hs : ∀ f ∈ s.fields, f.Shallow)
    (hopen : s.closed = false) {fuel room : Nat} {tokens rest : List Token}
    {found : List (String × Json)} (h : Json.readMembers fuel room [] tokens = some (found, rest))
    {w : Written} {ls' : List Lexeme} (hls : Spells (w.lexemes ++ ls') (.openBrace :: tokens))
    (hkeys : (w.topKeys.filter s.keys.contains).Nodup) :
    s.readMembers fuel room (.empty s.fields) tokens = leaving rest (s.decode (.object found)) := by
  obtain ⟨members, hmembers, rfl⟩ := members_of_readMembers h
  obtain ⟨inside, hopening, hinside⟩ := uncons_mark (fun _ h => by cases h) hls
  obtain ⟨key, first, ms, after, rfl, -, hsame⟩ := written_of_members hmembers hinside
  have hlexemes : w.lexemes ++ ls' = (Written.object ((key, first) :: ms)).lexemes ++ after := by
    rw [hopening]
    simp only [lexemes, List.cons_append]
  have hwritten : w = .object ((key, first) :: ms) := (lexemes_append_inj hlexemes).1
  rw [hwritten, topKeys, List.map_cons, hsame, ← keys_known] at hkeys
  rw [readMembers_of_members hs hmembers, decode_putAll hopen hkeys, Shape.decode]

/-- A record that is an array ends with the bracket after its elements. -/
theorem read_of_readElements {s : Shape} {fuel room : Nat} {tokens rest : List Token}
    {x : Except DecodeError (Values s.fields)}
    (h : s.readElements room fuel 0 s.fields tokens = leaving (.closeBracket :: rest) x) :
    s.read fuel room (.openBracket :: tokens) = leaving rest x := by
  rw [Shape.read, h]
  cases x <;> rfl

/-- No record is a scalar. -/
theorem read_of_readHead {s : Shape} {fuel room : Nat} {tokens rest : List Token} {raw : Json}
    (h : readHead tokens = some (raw.head, rest)) (hsequence : raw.head ≠ .sequence)
    (hmap : raw.head ≠ .map) : s.read fuel room tokens = leaving rest (s.decode raw) := by
  rcases raw with _ | _ | _ | _ | _ | _
  case array => exact absurd rfl hsequence
  case object => exact absurd rfl hmap
  all_goals
    unfold readHead at h
    split at h <;> cases h
    rfl

/-- A record is read from the tokens of a value as it is from the tree, if an object repeats no
known key and an array is not too long. -/
theorem read_of_written {s : Shape} (hs : ∀ f ∈ s.fields, f.Shallow) (hopen : s.closed = false)
    {fuel room : Nat} (hfuel : fuel ≠ 0) {tokens rest : List Token} {raw : Json}
    (h : readValue (fuel + 1) (room + 1) tokens = some (raw, rest)) {w : Written}
    {ls' : List Lexeme} (hls : Spells (w.lexemes ++ ls') tokens)
    (hkeys : (w.topKeys.filter s.keys.contains).Nodup)
    (hlength : ∀ items, raw = .array items → items.length ≤ s.fields.length) :
    s.read fuel room tokens = leaving rest (s.decode raw) := by
  cases readsValue_of_readValue h with
  | scalar hhead hsequence hmap => exact read_of_readHead hhead hsequence hmap
  | emptyArray => exact read_of_readElements (readElements_of_end s hfuel 0 s.fields _)
  | array hnonempty hitems =>
    have hfirst := nextElement_first hnonempty
    have hrecord := readElements_of_readItems s hitems hs (hlength _ rfl) hfirst
    rw [Nat.zero_add] at hrecord
    exact read_of_readElements hrecord
  | emptyObject =>
    rw [Shape.read, Shape.readFinish, Shape.decode, Shape.decodeEntries]
    cases (Draft.empty s.fields).finish <;> rfl
  | object hnonempty hmembers =>
    rw [Shape.read]
    · exact readMembers_of_object hs hopen hmembers hls hkeys
    · exact hnonempty

end RecordTextLemmas

open RecordTextLemmas

/-- A record is read from a text that is JSON as it is from the tree of the text, with the same
problem if there is one, unless an object repeats a known key or an array is too long. -/
theorem decodeText_of_parse {s : Shape} (hs : ∀ f ∈ s.fields, f.Shallow) (hopen : s.closed = false)
    {text : String} {raw : Json} (h : Json.parse Json.maxNesting text = some raw) {w : Written}
    (hw : w.lexemes = Token.lexemes text) (hkeys : (w.topKeys.filter s.keys.contains).Nodup)
    (hlength : ∀ items, raw = .array items → items.length ≤ s.fields.length) :
    s.decodeText text = (s.decode raw).mapError .decode := by
  unfold Json.parse at h
  dsimp only at h
  split at h
  · next hread =>
    obtain rfl := Option.some.inj h
    have hls : Json.Spells (w.lexemes ++ []) (Token.scan text) := by
      rw [List.append_nil, hw]
      exact Json.WrittenLemmas.spells_lexemes text
    have hrecord : s.read (Json.fuelFor (Token.scan text)) (Json.maxNesting - 1)
        (Token.scan text) = leaving [] (s.decode _) :=
      read_of_written hs hopen (Nat.succ_ne_zero _) hread hls hkeys hlength
    unfold Shape.decodeText
    dsimp only
    rw [hrecord]
    cases s.decode _ <;> rfl
  · cases h

end BackgroundScan
