import BackgroundScan.Proofs.Lexemes

/-!
# JSON as it is written

The tree of a text keeps of a number only what it stands for, and of members with one key only
the last. `Written` is a value before that: its numbers are the characters that stand in the text,
and its objects list all their members.

1. `Written`: a value as it is written, its lexemes and the tree it stands for.
2. `written_of_parse`: a text that can be read is written as some value.
   `lexemes_injective`: it is so in one way only.
3. `follow`: what lies at the end of a path. `child_of_value`: a step leads to the same place in
   a written value and in its tree.
-/

namespace BackgroundScan.Json

/-! ## 1. Values before they are read -/

/-- A JSON value as it is written, blanks and escapes apart. -/
inductive Written
  | null
  | bool (b : Bool)
  | number (literal : List Char)
  | string (s : String)
  | array (items : List Written)
  | object (members : List (String × Written))

namespace Written

/-- A lexeme that is no number. -/
def mark (token : Token) : Lexeme := ⟨token, []⟩

mutual

/-- The lexemes of a value. -/
def lexemes : Written → List Lexeme
  | .null => [mark .null]
  | .bool b => [mark (.bool b)]
  | .number literal => [⟨.number (numberOf literal), literal⟩]
  | .string s => [mark (.string (some s))]
  | .array [] => [mark .openBracket, mark .closeBracket]
  | .array (item :: rest) =>
    mark .openBracket :: (item.lexemes ++ lexemesOfItems rest)
  | .object [] => [mark .openBrace, mark .closeBrace]
  | .object ((key, value) :: rest) =>
    mark .openBrace :: mark (.string (some key)) :: mark .colon ::
      (value.lexemes ++ lexemesOfMembers rest)

/-- The lexemes of the further elements of an array, up to its closing bracket. -/
def lexemesOfItems : List Written → List Lexeme
  | [] => [mark .closeBracket]
  | item :: rest => mark .comma :: (item.lexemes ++ lexemesOfItems rest)

/-- The lexemes of the further members of an object, up to its closing brace. -/
def lexemesOfMembers : List (String × Written) → List Lexeme
  | [] => [mark .closeBrace]
  | (key, value) :: rest =>
    mark .comma :: mark (.string (some key)) :: mark .colon ::
      (value.lexemes ++ lexemesOfMembers rest)

end

mutual

/-- The tree a value stands for, if all its numbers stand for one. -/
def value : Written → Option Json
  | .null => some .null
  | .bool b => some (.bool b)
  | .number literal => (numberOf literal).map .number
  | .string s => some (.string s)
  | .array items => (values items).map .array
  | .object members => (entries [] members).map .object

/-- The trees of the elements of an array. -/
def values : List Written → Option (List Json)
  | [] => some []
  | item :: rest =>
    match item.value with
    | some v => (values rest).map (v :: ·)
    | none => none

/-- The entries of an object, on top of those so far. -/
def entries (sofar : List (String × Json)) : List (String × Written) → Option (List (String × Json))
  | [] => some sofar
  | (key, item) :: rest =>
    match item.value with
    | some v => entries (put key v sofar) rest
    | none => none

end

end Written

/-! ## 2. What a text is written as -/

/-- Lexemes with the given tokens, of which every number is what its characters stand for. -/
structure Spells (ls : List Lexeme) (tokens : List Token) : Prop where
  tokens : ls.map Lexeme.token = tokens
  spelled : ∀ l ∈ ls, l.Spelled

namespace WrittenLemmas

open Written

theorem spells_lexemes (text : String) : Spells (Token.lexemes text) (Token.scan text) :=
  ⟨Token.map_token_lexemes text, Token.spelled_lexemes text⟩

theorem uncons {ls : List Lexeme} {token : Token} {rest : List Token}
    (h : Spells ls (token :: rest)) :
    ∃ l ls', ls = l :: ls' ∧ l.Spelled ∧ l.token = token ∧ Spells ls' rest := by
  obtain ⟨htokens, hspelled⟩ := h
  obtain ⟨l, ls', rfl, htoken, hrest⟩ := List.map_eq_cons_iff.mp htokens
  obtain ⟨hl, hls'⟩ := List.forall_mem_cons.mp hspelled
  exact ⟨l, ls', rfl, hl, htoken, hrest, hls'⟩

/-- A token that is no number comes from its mark. -/
theorem uncons_mark {ls : List Lexeme} {token : Token} {rest : List Token}
    (hmark : ∀ value, token ≠ .number value) (h : Spells ls (token :: rest)) :
    ∃ ls', ls = mark token :: ls' ∧ Spells ls' rest := by
  obtain ⟨l, ls', rfl, hl, rfl, hrest⟩ := uncons h
  cases hl with
  | number literal => exact absurd rfl (hmark _)
  | mark _ => exact ⟨ls', rfl, hrest⟩

/-- A number comes from characters that stand for it. -/
theorem uncons_number {ls : List Lexeme} {value : Option Number} {rest : List Token}
    (h : Spells ls (.number value :: rest)) :
    ∃ literal ls', ls = ⟨.number (numberOf literal), literal⟩ :: ls' ∧
      numberOf literal = value ∧ Spells ls' rest := by
  obtain ⟨l, ls', rfl, hl, htoken, hrest⟩ := uncons h
  cases hl with
  | number literal => exact ⟨literal, ls', rfl, Token.number.inj htoken, hrest⟩
  | mark hmark => exact absurd htoken (hmark _)

end WrittenLemmas

open Written WrittenLemmas

mutual

/-- What is read from lexemes is written at their front. -/
theorem written_of_readValue {fuel room : Nat} {tokens rest : List Token} {raw : Json}
    {ls : List Lexeme} (hread : readValue fuel room tokens = some (raw, rest))
    (hls : Spells ls tokens) :
    ∃ (w : Written) (ls' : List Lexeme),
      ls = w.lexemes ++ ls' ∧ Spells ls' rest ∧ w.value = some raw := by
  cases fuel with
  | zero => cases hread
  | succ fuel =>
    unfold readValue at hread
    dsimp only at hread
    split at hread
    · obtain ⟨ls', rfl, hrest⟩ := uncons_mark (fun _ h => by cases h) hls
      obtain ⟨rfl, rfl⟩ := Prod.mk.inj (Option.some.inj hread)
      exact ⟨.null, ls', rfl, hrest, rfl⟩
    · obtain ⟨ls', rfl, hrest⟩ := uncons_mark (fun _ h => by cases h) hls
      obtain ⟨rfl, rfl⟩ := Prod.mk.inj (Option.some.inj hread)
      exact ⟨.bool _, ls', rfl, hrest, rfl⟩
    · obtain ⟨literal, ls', rfl, hvalue, hrest⟩ := uncons_number hls
      obtain ⟨rfl, rfl⟩ := Prod.mk.inj (Option.some.inj hread)
      exact ⟨.number literal, ls', rfl, hrest, by rw [Written.value, hvalue]; rfl⟩
    · obtain ⟨ls', rfl, hrest⟩ := uncons_mark (fun _ h => by cases h) hls
      obtain ⟨rfl, rfl⟩ := Prod.mk.inj (Option.some.inj hread)
      exact ⟨.string _, ls', rfl, hrest, rfl⟩
    · obtain ⟨ls', rfl, hinside⟩ := uncons_mark (fun _ h => by cases h) hls
      split at hread
      · cases hread
      · split at hread
        · obtain ⟨ls'', rfl, hrest⟩ := uncons_mark (fun _ h => by cases h) hinside
          obtain ⟨rfl, rfl⟩ := Prod.mk.inj (Option.some.inj hread)
          exact ⟨.array [], ls'', rfl, hrest, rfl⟩
        · obtain ⟨⟨items, after⟩, hitems, heq⟩ := Option.map_eq_some_iff.mp hread
          obtain ⟨rfl, rfl⟩ := Prod.mk.inj heq
          obtain ⟨w, ws, ls'', rfl, hrest, hvalues⟩ := written_of_readItems hitems hinside
          refine ⟨.array (w :: ws), ls'', ?_, hrest, ?_⟩
          · simp only [lexemes, List.cons_append]
          · rw [Written.value, hvalues]
            rfl
    · obtain ⟨ls', rfl, hinside⟩ := uncons_mark (fun _ h => by cases h) hls
      split at hread
      · cases hread
      · split at hread
        · obtain ⟨ls'', rfl, hrest⟩ := uncons_mark (fun _ h => by cases h) hinside
          obtain ⟨rfl, rfl⟩ := Prod.mk.inj (Option.some.inj hread)
          exact ⟨.object [], ls'', rfl, hrest, rfl⟩
        · obtain ⟨⟨found, after⟩, hmembers, heq⟩ := Option.map_eq_some_iff.mp hread
          obtain ⟨rfl, rfl⟩ := Prod.mk.inj heq
          obtain ⟨key, w, ms, ls'', rfl, hrest, hentries⟩ :=
            written_of_readMembers hmembers hinside
          refine ⟨.object ((key, w) :: ms), ls'', ?_, hrest, ?_⟩
          · simp only [lexemes, List.cons_append]
          · rw [Written.value, hentries]
            rfl
    · cases hread

theorem written_of_readItems {fuel room : Nat} {tokens rest : List Token} {items : List Json}
    {ls : List Lexeme} (hread : readItems fuel room tokens = some (items, rest))
    (hls : Spells ls tokens) :
    ∃ w ws ls', ls = w.lexemes ++ lexemesOfItems ws ++ ls' ∧ Spells ls' rest ∧
      values (w :: ws) = some items := by
  cases fuel with
  | zero => cases hread
  | succ fuel =>
    rw [readItems] at hread
    split at hread
    · next hfirst =>
      obtain ⟨⟨more, after⟩, hmore, heq⟩ := Option.map_eq_some_iff.mp hread
      obtain ⟨rfl, rfl⟩ := Prod.mk.inj heq
      obtain ⟨w, ls', rfl, hcomma, hvalue⟩ := written_of_readValue hfirst hls
      obtain ⟨ls'', rfl, hrest⟩ := uncons_mark (fun _ h => by cases h) hcomma
      obtain ⟨w', ws, ls', rfl, hrest, hvalues⟩ := written_of_readItems hmore hrest
      refine ⟨w, w' :: ws, ls', ?_, hrest, ?_⟩
      · simp only [lexemesOfItems, List.append_assoc, List.cons_append]
      · rw [values, hvalue, hvalues]
        rfl
    · next hfirst =>
      obtain ⟨rfl, rfl⟩ := Prod.mk.inj (Option.some.inj hread)
      obtain ⟨w, ls', rfl, hclose, hvalue⟩ := written_of_readValue hfirst hls
      obtain ⟨ls'', rfl, hrest⟩ := uncons_mark (fun _ h => by cases h) hclose
      refine ⟨w, [], ls'', ?_, hrest, ?_⟩
      · simp only [lexemesOfItems, List.append_assoc, List.singleton_append]
      · rw [values, hvalue]
        rfl
    · cases hread

theorem written_of_readMembers {fuel room : Nat} {tokens rest : List Token}
    {sofar found : List (String × Json)} {ls : List Lexeme}
    (hread : readMembers fuel room sofar tokens = some (found, rest)) (hls : Spells ls tokens) :
    ∃ key w ms ls', ls = mark (.string (some key)) :: mark .colon ::
        (w.lexemes ++ lexemesOfMembers ms) ++ ls' ∧ Spells ls' rest ∧
      entries sofar ((key, w) :: ms) = some found := by
  cases fuel with
  | zero => cases hread
  | succ fuel =>
    unfold readMembers at hread
    split at hread
    · next key after =>
      obtain ⟨ls', rfl, hcolon⟩ := uncons_mark (fun _ h => by cases h) hls
      obtain ⟨ls'', rfl, hafter⟩ := uncons_mark (fun _ h => by cases h) hcolon
      split at hread
      · next hfirst =>
        obtain ⟨w, ls', rfl, hcomma, hvalue⟩ := written_of_readValue hfirst hafter
        obtain ⟨ls'', rfl, hrest⟩ := uncons_mark (fun _ h => by cases h) hcomma
        obtain ⟨key', w', ms, ls', rfl, hrest, hentries⟩ := written_of_readMembers hread hrest
        refine ⟨key, w, (key', w') :: ms, ls', ?_, hrest, ?_⟩
        · simp only [lexemesOfMembers, List.append_assoc, List.cons_append]
        · rw [entries, hvalue]
          exact hentries
      · next hfirst =>
        obtain ⟨rfl, rfl⟩ := Prod.mk.inj (Option.some.inj hread)
        obtain ⟨w, ls', rfl, hclose, hvalue⟩ := written_of_readValue hfirst hafter
        obtain ⟨ls'', rfl, hrest⟩ := uncons_mark (fun _ h => by cases h) hclose
        refine ⟨key, w, [], ls'', ?_, hrest, ?_⟩
        · simp only [lexemesOfMembers, List.append_assoc, List.cons_append, List.nil_append]
        · rw [entries, hvalue]
          rfl
      · cases hread
    · cases hread

end

/-- A text that can be read is written as some value. -/
theorem written_of_parse {room : Nat} {text : String} {raw : Json}
    (h : parse room text = some raw) :
    ∃ w : Written, w.lexemes = Token.lexemes text ∧ w.value = some raw := by
  unfold parse at h
  dsimp only at h
  split at h
  · next hread =>
    obtain rfl := Option.some.inj h
    obtain ⟨w, ls', hlexemes, hrest, hvalue⟩ := written_of_readValue hread (spells_lexemes text)
    obtain rfl := List.map_eq_nil_iff.mp hrest.tokens
    exact ⟨w, by rw [hlexemes, List.append_nil], hvalue⟩
  · cases h

namespace WrittenLemmas

/-- The lexeme that a value begins with. -/
def opening : Written → Lexeme
  | .null => mark .null
  | .bool b => mark (.bool b)
  | .number literal => ⟨.number (numberOf literal), literal⟩
  | .string s => mark (.string (some s))
  | .array _ => mark .openBracket
  | .object _ => mark .openBrace

theorem lexemes_eq_cons (w : Written) : ∃ rest, w.lexemes = opening w :: rest := by
  cases w with
  | null | bool b | number literal | string s => exact ⟨[], rfl⟩
  | array items =>
    cases items with
    | nil => exact ⟨_, rfl⟩
    | cons item rest => exact ⟨_, by rw [lexemes]; rfl⟩
  | object members =>
    cases members with
    | nil => exact ⟨_, rfl⟩
    | cons member rest => exact ⟨_, by rw [lexemes]; rfl⟩

theorem opening_eq {w w' : Written} {r r' : List Lexeme}
    (h : w.lexemes ++ r = w'.lexemes ++ r') : opening w = opening w' := by
  obtain ⟨rest, hrest⟩ := lexemes_eq_cons w
  obtain ⟨rest', hrest'⟩ := lexemes_eq_cons w'
  rw [hrest, hrest'] at h
  exact (List.cons.inj h).1

theorem opening_ne_close (w : Written) : opening w ≠ mark .closeBracket := by
  cases w <;> simp [opening, mark]

theorem lexemes_ne_close {w : Written} {r r' : List Lexeme} :
    w.lexemes ++ r ≠ mark .closeBracket :: r' := by
  intro h
  obtain ⟨rest, hrest⟩ := lexemes_eq_cons w
  rw [hrest] at h
  exact opening_ne_close w (List.cons.inj h).1

end WrittenLemmas

mutual

/-- Where a value ends is seen from its lexemes, and so is the value. -/
theorem lexemes_append_inj {w w' : Written} {r r' : List Lexeme}
    (h : w.lexemes ++ r = w'.lexemes ++ r') : w = w' ∧ r = r' := by
  have hopening := opening_eq h
  cases w <;> cases w' <;> try (simp [opening, mark] at hopening; done)
  case null.null => exact ⟨rfl, (List.cons.inj h).2⟩
  case bool.bool =>
    simp only [opening, mark, Lexeme.mk.injEq, Token.bool.injEq, and_true] at hopening
    exact ⟨by rw [hopening], (List.cons.inj h).2⟩
  case number.number =>
    simp only [opening, Lexeme.mk.injEq] at hopening
    exact ⟨by rw [hopening.2], (List.cons.inj h).2⟩
  case string.string =>
    simp only [opening, mark, Lexeme.mk.injEq, Token.string.injEq, Option.some.injEq,
      and_true] at hopening
    exact ⟨by rw [hopening], (List.cons.inj h).2⟩
  case array.array items items' =>
    cases items with
    | nil =>
      cases items' with
      | nil => exact ⟨rfl, (List.cons.inj (List.cons.inj h).2).2⟩
      | cons w' ws' =>
        simp only [lexemes, List.cons_append, List.append_assoc, List.cons.injEq, true_and] at h
        exact absurd h.symm lexemes_ne_close
    | cons w ws =>
      cases items' with
      | nil =>
        simp only [lexemes, List.cons_append, List.append_assoc, List.cons.injEq, true_and] at h
        exact absurd h lexemes_ne_close
      | cons w' ws' =>
        simp only [lexemes, List.cons_append, List.append_assoc, List.cons.injEq, true_and] at h
        obtain ⟨rfl, hmore⟩ := lexemes_append_inj h
        obtain ⟨rfl, hr⟩ := lexemesOfItems_append_inj hmore
        exact ⟨rfl, hr⟩
  case object.object members members' =>
    match members, members' with
    | [], [] => exact ⟨rfl, (List.cons.inj (List.cons.inj h).2).2⟩
    | [], (key', w') :: ms' =>
      simp [lexemes, mark] at h
    | (key, w) :: ms, [] =>
      simp [lexemes, mark] at h
    | (key, w) :: ms, (key', w') :: ms' =>
      simp only [lexemes, mark, List.cons_append, List.append_assoc, List.cons.injEq,
        Lexeme.mk.injEq, Token.string.injEq, Option.some.injEq, and_true, true_and] at h
      obtain ⟨rfl, h⟩ := h
      obtain ⟨rfl, hmore⟩ := lexemes_append_inj h
      obtain ⟨rfl, hr⟩ := lexemesOfMembers_append_inj hmore
      exact ⟨rfl, hr⟩

theorem lexemesOfItems_append_inj {ws ws' : List Written} {r r' : List Lexeme}
    (h : lexemesOfItems ws ++ r = lexemesOfItems ws' ++ r') : ws = ws' ∧ r = r' := by
  match ws, ws' with
  | [], [] => exact ⟨rfl, (List.cons.inj h).2⟩
  | [], w' :: ws' => simp [lexemesOfItems, mark] at h
  | w :: ws, [] => simp [lexemesOfItems, mark] at h
  | w :: ws, w' :: ws' =>
    simp only [lexemesOfItems, List.cons_append, List.append_assoc, List.cons.injEq,
      true_and] at h
    obtain ⟨rfl, hmore⟩ := lexemes_append_inj h
    obtain ⟨rfl, hr⟩ := lexemesOfItems_append_inj hmore
    exact ⟨rfl, hr⟩

theorem lexemesOfMembers_append_inj {ms ms' : List (String × Written)} {r r' : List Lexeme}
    (h : lexemesOfMembers ms ++ r = lexemesOfMembers ms' ++ r') : ms = ms' ∧ r = r' := by
  match ms, ms' with
  | [], [] => exact ⟨rfl, (List.cons.inj h).2⟩
  | [], (key', w') :: ms' => simp [lexemesOfMembers, mark] at h
  | (key, w) :: ms, [] => simp [lexemesOfMembers, mark] at h
  | (key, w) :: ms, (key', w') :: ms' =>
    simp only [lexemesOfMembers, mark, List.cons_append, List.append_assoc, List.cons.injEq,
      Lexeme.mk.injEq, Token.string.injEq, Option.some.injEq, and_true, true_and] at h
    obtain ⟨rfl, h⟩ := h
    obtain ⟨rfl, hmore⟩ := lexemes_append_inj h
    obtain ⟨rfl, hr⟩ := lexemesOfMembers_append_inj hmore
    exact ⟨rfl, hr⟩

end

/-- No lexemes are those of two values. -/
theorem lexemes_injective {w w' : Written} (h : w.lexemes = w'.lexemes) : w = w' :=
  (lexemes_append_inj (congrArg (· ++ []) h)).1

/-! ## 3. Paths -/

/-- A step from a container to a value in it. -/
inductive Step
  | item (index : Nat)
  | key (name : String)
  deriving DecidableEq

/-- What lies at the end of a path, where `child?` takes a step. -/
def follow {α : Type} (child? : α → Step → Option α) : List Step → α → Option α
  | [], a => some a
  | step :: path, a => (child? a step).bind (follow child? path)

/-- A step into a JSON value. -/
def child? : Json → Step → Option Json
  | .array items, .item index => items[index]?
  | .object entries, .key name => find? name entries
  | _, _ => none

namespace Written

/-- The last of the members with a key. -/
def lastMember (name : String) : List (String × Written) → Option Written
  | [] => none
  | (key, item) :: rest => (lastMember name rest).or (if key = name then some item else none)

/-- A step into a value as it is written; of the members with one key the last counts. -/
def child? : Written → Step → Option Written
  | .array items, .item index => items[index]?
  | .object members, .key name => lastMember name members
  | _, _ => none

end Written

/-- If every step from related values leads to related values, so does every path. -/
theorem follow_related {α β : Type} (related : α → β → Prop) {into : α → Step → Option α}
    {into' : β → Step → Option β}
    (hstep : ∀ a b step a', related a b → into a step = some a' →
      ∃ b', into' b step = some b' ∧ related a' b')
    {path : List Step} {a a' : α} {b : β} (h : related a b) (hpath : follow into path a = some a') :
    ∃ b', follow into' path b = some b' ∧ related a' b' := by
  induction path generalizing a b with
  | nil =>
    obtain rfl := Option.some.inj hpath
    exact ⟨b, rfl, h⟩
  | cons step path ih =>
    obtain ⟨next, hnext, hrest⟩ := Option.bind_eq_some_iff.mp hpath
    obtain ⟨next', hnext', hrelated⟩ := hstep a b step next h hnext
    obtain ⟨b', hb', hend⟩ := ih hrelated hrest
    exact ⟨b', by rw [follow, hnext', Option.bind_some, hb'], hend⟩

namespace WrittenLemmas

theorem values_getElem? {items : List Written} {raws : List Json} (h : values items = some raws)
    {index : Nat} {item : Written} (hitem : items[index]? = some item) :
    ∃ raw, raws[index]? = some raw ∧ item.value = some raw := by
  induction items generalizing raws index with
  | nil => simp at hitem
  | cons first rest ih =>
    rw [values] at h
    cases hfirst : first.value with
    | none =>
      rw [hfirst] at h
      cases h
    | some v =>
      rw [hfirst] at h
      obtain ⟨more, hmore, rfl⟩ := Option.map_eq_some_iff.mp h
      cases index with
      | zero =>
        obtain rfl := Option.some.inj hitem
        exact ⟨v, rfl, hfirst⟩
      | succ index => exact ih hmore hitem

/-- A key has the value of the last member with it, or the one it had before. -/
theorem find?_entries {members : List (String × Written)} {sofar found : List (String × Json)}
    (h : entries sofar members = some found) (name : String) :
    match lastMember name members with
    | some item => ∃ raw, find? name found = some raw ∧ item.value = some raw
    | none => find? name found = find? name sofar := by
  induction members generalizing sofar with
  | nil =>
    obtain rfl := Option.some.inj h
    rfl
  | cons member rest ih =>
    obtain ⟨key, item⟩ := member
    rw [entries] at h
    cases hitem : item.value with
    | none =>
      rw [hitem] at h
      cases h
    | some v =>
      rw [hitem] at h
      have hrest := ih h
      rw [lastMember]
      cases hlast : lastMember name rest with
      | some later =>
        rw [hlast] at hrest
        exact hrest
      | none =>
        rw [hlast] at hrest
        by_cases hkey : key = name
        · subst hkey
          rw [if_pos rfl]
          exact ⟨v, by rw [hrest, find?_put_self], hitem⟩
        · rw [if_neg hkey]
          exact hrest.trans (find?_put_of_ne hkey)

end WrittenLemmas

/-- A step leads to the same place in a written value and in its tree. -/
theorem child_of_value {w w' : Written} {raw : Json} {step : Step} (h : w.value = some raw)
    (hstep : w.child? step = some w') :
    ∃ raw', raw.child? step = some raw' ∧ w'.value = some raw' := by
  cases w with
  | null | bool b | number literal | string s => cases step <;> cases hstep
  | array items =>
    obtain ⟨raws, hraws, rfl⟩ := Option.map_eq_some_iff.mp h
    cases step with
    | key name => cases hstep
    | item index => exact values_getElem? hraws hstep
  | object members =>
    obtain ⟨found, hfound, rfl⟩ := Option.map_eq_some_iff.mp h
    cases step with
    | item index => cases hstep
    | key name =>
      have hlast := find?_entries hfound name
      rw [show lastMember name members = some w' from hstep] at hlast
      exact hlast

end BackgroundScan.Json
