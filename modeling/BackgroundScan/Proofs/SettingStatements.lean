import Mathlib.Logic.Relation
import BackgroundScan.Proofs.DocumentScalars
import BackgroundScan.Settings

/-!
# What documents say of settings

What a document says of settings is what it says of seven paths, and which keys are in its root
table. Nothing else in it matters: not what else is in the tables of the policies, nor the order of
the keys, nor how the tables are written.

1. `Holds`: nothing but one value of a kind is said at a path. `Chosen`: the value that is said at
   a path, or the default. `Reads.readField_eq_some_iff`: so each field is read.
2. `PassesChecks`: what a document of settings may say. `Sets`: the settings that it says.
   `maxArgDepth_eq_zero_iff`: when the limit on nesting among them is zero.
3. `SayTheSame`: documents that say the same of settings. `SayTheSame.passesChecks` and
   `SayTheSame.sets`: nothing else is asked of them. `Respelled`: a change of the order of keys, of
   the form of tables, or of keys that are ignored. `sayTheSame_of_eqvGen`: such changes play no
   part.
-/

namespace BackgroundScan.Settings

open Toml Toml.StatementLemmas

/-! ## 1. Fields -/

/-- All that is said at a path or below it is one value, of a kind. -/
def Holds (statements : List Statement) (path : List String) (kind : Toml.Value → Prop) : Prop :=
  ∀ rest what, (path ++ rest, what) ∈ statements →
    rest = [] ∧ ∃ v, what = .scalar v ∧ kind v

/-- The value that is said at a path, or the default where nothing is said. -/
structure Chosen {α : Type} (statements : List Statement) (path : List String)
    (write : α → Toml.Value) (default x : α) : Prop where
  given : ∀ v, (path, .scalar v) ∈ statements → v = write x
  absent : (∀ rest what, (path ++ rest, what) ∉ statements) → x = default

/-- An integer that a field of 32 bits holds. -/
def IsWord (v : Toml.Value) : Prop := ∃ n, v = .integer n ∧ 0 ≤ n ∧ n ≤ 0xFFFFFFFF

/-- An integer that a field of 64 bits holds. -/
def IsSize (v : Toml.Value) : Prop := ∃ n, v = .integer n ∧ 0 ≤ n ∧ n ≤ 0xFFFFFFFFFFFFFFFF

/-- A truth value. -/
def IsFlag (v : Toml.Value) : Prop := ∃ b, v = .boolean b

/-- A number of 32 bits in a document. -/
def ofWord (n : UInt32) : Toml.Value := .integer n.toNat

/-- A number of 64 bits in a document. -/
def ofSize (n : UInt64) : Toml.Value := .integer n.toNat

namespace LoadLemmas

/-- The numbers up to a last one, as the words of a type. -/
structure Words {α : Type} (last : Int) (ofNat : Nat → α) (toNat : α → Nat) : Prop where
  le : ∀ x, (toNat x : Int) ≤ last
  toNat_ofNat : ∀ n : Nat, (n : Int) ≤ last → toNat (ofNat n) = n
  inj : ∀ {x y}, toNat x = toNat y → x = y

theorem words_word : Words 0xFFFFFFFF UInt32.ofNat UInt32.toNat where
  le := fun x => by
    have hlt : x.toNat < 0x100000000 := x.toNat_lt
    omega
  toNat_ofNat := fun n hn => UInt32.toNat_ofNat_of_lt' (by rw [UInt32.size]; omega)
  inj := UInt32.toNat_inj.mp

theorem words_size : Words 0xFFFFFFFFFFFFFFFF UInt64.ofNat UInt64.toNat where
  le := fun x => by
    have hlt : x.toNat < 0x10000000000000000 := x.toNat_lt
    omega
  toNat_ofNat := fun n hn => UInt64.toNat_ofNat_of_lt' (by rw [UInt64.size]; omega)
  inj := UInt64.toNat_inj.mp

namespace Words

variable {α : Type} {last : Int} {ofNat : Nat → α} {toNat : α → Nat}

theorem read_eq_some_iff (h : Words last ofNat toNat) (n : Int) (x : α) :
    (if 0 ≤ n ∧ n < last + 1 then some (ofNat n.toNat) else none) = some x ↔ n = toNat x := by
  have hle := h.le x
  split
  · next hn =>
    have hvalue : toNat (ofNat n.toNat) = n.toNat := h.toNat_ofNat n.toNat (by omega)
    rw [Option.some.injEq]
    constructor
    · rintro rfl
      omega
    · intro heq
      exact h.inj (by omega)
  · next hn => exact ⟨nofun, fun heq => absurd heq (by omega)⟩

theorem integer_iff (h : Words last ofNat toNat) (v : Toml.Value) :
    (∃ n, v = .integer n ∧ 0 ≤ n ∧ n ≤ last) ↔ ∃ x, v = .integer (toNat x) := by
  constructor
  · rintro ⟨n, rfl, hn⟩
    refine ⟨ofNat n.toNat, ?_⟩
    rw [h.toNat_ofNat n.toNat (by omega), Int.toNat_of_nonneg hn.1]
  · rintro ⟨x, rfl⟩
    exact ⟨_, rfl, Int.natCast_nonneg _, h.le x⟩

end Words

theorem word?_eq_some_iff (v : Toml.Value) (x : UInt32) : word? v = some x ↔ v = ofWord x := by
  cases v with
  | integer n =>
    rw [word?, ofWord, Toml.Value.integer.injEq]
    exact words_word.read_eq_some_iff n x
  | _ => exact ⟨nofun, nofun⟩

theorem size?_eq_some_iff (v : Toml.Value) (x : UInt64) : size? v = some x ↔ v = ofSize x := by
  cases v with
  | integer n =>
    rw [size?, ofSize, Toml.Value.integer.injEq]
    exact words_size.read_eq_some_iff n x
  | _ => exact ⟨nofun, nofun⟩

theorem flag?_eq_some_iff (v : Toml.Value) (x : Bool) : flag? v = some x ↔ v = .boolean x := by
  cases v with
  | boolean b => rw [flag?, Option.some.injEq, Toml.Value.boolean.injEq]
  | _ => exact ⟨nofun, nofun⟩

/-- What is said of a scalar is only that it is there. -/
theorem statements_of_scalar {statements : List Statement} {v : Toml.Value}
    (h : v.Shows statements) (hscalar : v.IsScalar) : statements = [([], .scalar v)] := by
  cases h with
  | scalar v => rfl
  | array | elements => exact absurd rfl (hscalar.1 _)
  | table => exact absurd rfl (hscalar.2 _)

/-- A value of which nothing is said but that it is one of a kind is said to be there. -/
theorem scalar_of_holds {statements : List Statement} {key : String} {kind : Toml.Value → Prop}
    {v : Toml.Value} (h : v.Shows (under key statements)) (hholds : Holds statements [key] kind) :
    ([key], .scalar v) ∈ statements ∧ kind v := by
  have hsaid {rest : List String} {what : Said} (hwhat : (rest, what) ∈ under key statements) :
      rest = [] ∧ ∃ w, what = .scalar w ∧ kind w := hholds rest what (mem_under.mp hwhat)
  suffices hmem : ([], .scalar v) ∈ under key statements by
    obtain ⟨-, w, hw, hkind⟩ := hsaid hmem
    obtain rfl := Said.scalar.inj hw
    exact ⟨mem_under.mp hmem, hkind⟩
  generalize under key statements = there at h hsaid
  cases h with
  | scalar v => exact List.mem_singleton_self _
  | array h =>
    obtain ⟨-, w, hw, -⟩ := hsaid (List.mem_singleton_self _)
    cases hw
  | elements h =>
    obtain ⟨-, w, hw, -⟩ := hsaid h
    cases hw
  | table hsome _ hhere =>
    obtain ⟨⟨rest, what⟩, hs⟩ := List.exists_mem_of_ne_nil _ hsome
    obtain ⟨rfl, w, rfl, -⟩ := hsaid hs
    cases hhere _ hs

end LoadLemmas

open LoadLemmas

/-- A field reads the values of one kind, which are scalars. -/
structure Reads {α : Type} (read : Toml.Value → Option α) (write : α → Toml.Value)
    (kind : Toml.Value → Prop) : Prop where
  read : ∀ v x, read v = some x ↔ v = write x
  kind : ∀ v, kind v ↔ ∃ x, v = write x
  scalar : ∀ x, (write x).IsScalar

theorem reads_word : Reads word? ofWord IsWord :=
  ⟨word?_eq_some_iff, words_word.integer_iff, fun _ => ⟨nofun, nofun⟩⟩

theorem reads_size : Reads size? ofSize IsSize :=
  ⟨size?_eq_some_iff, words_size.integer_iff, fun _ => ⟨nofun, nofun⟩⟩

theorem reads_flag : Reads flag? .boolean IsFlag :=
  ⟨flag?_eq_some_iff, fun _ => Iff.rfl, fun _ => ⟨nofun, nofun⟩⟩

namespace Reads

variable {α : Type} {read : Toml.Value → Option α} {write : α → Toml.Value}
  {kind : Toml.Value → Prop} {statements : List Statement} {entries : List (String × Toml.Value)}

/-- A field is read if nothing else is said of it than its value, which then is chosen. -/
theorem readField_eq_some_iff (hreads : Reads read write kind)
    (h : Shown Toml.Value.Shows statements entries) (key : String) (default x : α) :
    readField read default (entries.lookup key) = some x ↔
      Holds statements [key] kind ∧ Chosen statements [key] write default x := by
  have hmem (rest : List String) (what : Said) :
      ([key] ++ rest, what) ∈ statements ↔ (rest, what) ∈ under key statements := mem_under.symm
  cases hlookup : entries.lookup key with
  | none =>
    have hnothing (rest : List String) (what : Said) : ([key] ++ rest, what) ∉ statements := by
      rw [hmem, h.none key hlookup]
      exact List.not_mem_nil
    rw [readField, Option.some.injEq]
    constructor
    · rintro rfl
      exact ⟨fun rest what hsaid => absurd hsaid (hnothing rest what),
        fun v hsaid => absurd hsaid (hnothing [] _), fun _ => rfl⟩
    · rintro ⟨-, hchosen⟩
      exact (hchosen.absent hnothing).symm
  | some v =>
    have hshows := h.found key v hlookup
    rw [readField, hreads.read]
    constructor
    · rintro rfl
      have honly := statements_of_scalar hshows (hreads.scalar x)
      have hsaid {rest : List String} {what : Said} (hwhat : ([key] ++ rest, what) ∈ statements) :
          rest = [] ∧ what = .scalar (write x) := by
        rw [hmem, honly, List.mem_singleton] at hwhat
        exact Prod.mk.inj hwhat
      refine ⟨?_, ?_, ?_⟩
      · intro rest what hwhat
        exact ⟨(hsaid hwhat).1, _, (hsaid hwhat).2, (hreads.kind _).mpr ⟨x, rfl⟩⟩
      · intro v hv
        obtain ⟨-, heq⟩ : [] = [] ∧ Said.scalar v = .scalar (write x) := hsaid hv
        exact Said.scalar.inj heq
      · intro hnothing
        refine absurd ((hmem [] _).mpr ?_) (hnothing [] (.scalar (write x)))
        rw [honly]
        exact List.mem_singleton_self _
    · rintro ⟨hholds, hchosen⟩
      exact hchosen.given v (scalar_of_holds hshows hholds).1

/-- A field is read if nothing else is said of it than a value of its kind. -/
theorem exists_readField (hreads : Reads read write kind)
    (h : Shown Toml.Value.Shows statements entries) {key : String}
    (hholds : Holds statements [key] kind) (default : α) :
    ∃ x, readField read default (entries.lookup key) = some x := by
  cases hlookup : entries.lookup key with
  | none => exact ⟨default, rfl⟩
  | some v =>
    obtain ⟨-, hkind⟩ := scalar_of_holds (h.found key v hlookup) hholds
    obtain ⟨x, hx⟩ := (hreads.kind v).mp hkind
    exact ⟨x, (hreads.read v x).mpr hx⟩

end Reads

/-! ## 2. Settings -/

/-- The paths of the limits. -/
def limitPaths : List (List String) := [["max_arg_depth"], ["max_args"]]

/-- The paths of the time limits. -/
def timeoutPaths : List (List String) :=
  [["scan_policy", "timeout_ms"], ["info_policy", "timeout_ms"]]

/-- The paths of the flags of policies. -/
def flagPaths : List (List String) :=
  [["scan_policy", "fail_on_cluster_change"], ["info_policy", "send_as_is"],
    ["info_policy", "check_bounds"]]

/-- What a document of settings may say. -/
structure PassesChecks (statements : List Statement) : Prop where
  keys : ∀ key path what, (key :: path, what) ∈ statements →
    key ∈ ["scan_policy", "info_policy", "max_arg_depth", "max_args"]
  limits : ∀ path ∈ limitPaths, Holds statements path IsSize
  timeouts : ∀ path ∈ timeoutPaths, Holds statements path IsWord
  flags : ∀ path ∈ flagPaths, Holds statements path IsFlag

/-- Settings of which each is the one that statements say, or its default. -/
structure Sets (statements : List Statement) (s : Settings) : Prop where
  scanTimeout :
    Chosen statements ["scan_policy", "timeout_ms"] ofWord 0 s.scanPolicy.timeoutMs
  failOnClusterChange : Chosen statements ["scan_policy", "fail_on_cluster_change"] .boolean false
    s.scanPolicy.failOnClusterChange
  infoTimeout :
    Chosen statements ["info_policy", "timeout_ms"] ofWord 1000 s.infoPolicy.timeoutMs
  sendAsIs : Chosen statements ["info_policy", "send_as_is"] .boolean true s.infoPolicy.sendAsIs
  checkBounds :
    Chosen statements ["info_policy", "check_bounds"] .boolean true s.infoPolicy.checkBounds
  maxArgDepth : Chosen statements ["max_arg_depth"] ofSize 10 s.maxArgDepth
  maxArgs : Chosen statements ["max_args"] ofSize 1024 s.maxArgs

namespace LoadLemmas

theorem holds_under {key : String} {statements : List Statement} {path : List String}
    {kind : Toml.Value → Prop} :
    Holds (under key statements) path kind ↔ Holds statements (key :: path) kind := by
  simp only [Holds, mem_under, List.cons_append]

theorem chosen_under {α : Type} {key : String} {statements : List Statement} {path : List String}
    {write : α → Toml.Value} {default x : α} :
    Chosen (under key statements) path write default x ↔
      Chosen statements (key :: path) write default x := by
  constructor
  · rintro ⟨hgiven, habsent⟩
    simp only [mem_under] at hgiven habsent
    exact ⟨hgiven, habsent⟩
  · rintro ⟨hgiven, habsent⟩
    refine ⟨?_, ?_⟩
    · simpa only [mem_under] using hgiven
    · simpa only [mem_under, List.cons_append] using habsent

/-- Statements that allow settings, of which the limit on nesting is zero, say that it is. -/
theorem maxArgDepth_eq_zero_iff {s : Settings} (hchecks : PassesChecks statements)
    (hsets : Sets statements s) :
    s.maxArgDepth = 0 ↔ (["max_arg_depth"], .scalar (.integer 0)) ∈ statements := by
  constructor
  · intro hzero
    by_cases hsaid : ∀ rest what, (["max_arg_depth"] ++ rest, what) ∉ statements
    · have hdefault := hsets.maxArgDepth.absent hsaid
      rw [hzero] at hdefault
      exact absurd hdefault (by decide)
    · obtain ⟨rest, hrest⟩ := Classical.not_forall.mp hsaid
      obtain ⟨what, hwhat⟩ := Classical.not_forall.mp hrest
      have hmem := Classical.not_not.mp hwhat
      obtain ⟨rfl, v, rfl, -⟩ := hchecks.limits ["max_arg_depth"] (by decide) rest what hmem
      obtain rfl : v = .integer 0 :=
        (hsets.maxArgDepth.given v hmem).trans (congrArg ofSize hzero)
      exact hmem
  · intro hmem
    have hzero := Toml.Value.integer.inj (hsets.maxArgDepth.given _ hmem)
    exact UInt64.toNat_inj.mp (Int.ofNat.inj hzero.symm)

end LoadLemmas

/-! ## 3. Documents that say the same -/

/-- Documents that say the same of the settings, and have the same other keys in their root
tables. -/
structure SayTheSame (statements statements' : List Statement) : Prop where
  settings : ∀ path ∈ limitPaths ++ timeoutPaths ++ flagPaths, ∀ rest what,
    (path ++ rest, what) ∈ statements ↔ (path ++ rest, what) ∈ statements'
  keys : ∀ key ∉ ["scan_policy", "info_policy", "max_arg_depth", "max_args"],
    (∃ path what, (key :: path, what) ∈ statements) ↔
      ∃ path what, (key :: path, what) ∈ statements'

namespace LoadLemmas

variable {statements statements' : List Statement} {path : List String}

/-- What holds at a path is decided by what is said there. -/
theorem holds_congr {kind : Toml.Value → Prop}
    (h : ∀ rest what, (path ++ rest, what) ∈ statements ↔ (path ++ rest, what) ∈ statements') :
    Holds statements path kind ↔ Holds statements' path kind := by
  simp only [Holds, h]

theorem chosen_congr {α : Type} {write : α → Toml.Value} {default x : α}
    (h : ∀ rest what, (path ++ rest, what) ∈ statements ↔ (path ++ rest, what) ∈ statements') :
    Chosen statements path write default x ↔ Chosen statements' path write default x := by
  have hhere (what : Said) : (path, what) ∈ statements ↔ (path, what) ∈ statements' := by
    simpa only [List.append_nil] using h [] what
  constructor
  · rintro ⟨hgiven, habsent⟩
    simp only [hhere, h] at hgiven habsent
    exact ⟨hgiven, habsent⟩
  · rintro ⟨hgiven, habsent⟩
    simp only [← hhere, ← h] at hgiven habsent
    exact ⟨hgiven, habsent⟩

end LoadLemmas

namespace SayTheSame

variable {statements statements' : List Statement}

theorem refl (statements : List Statement) : SayTheSame statements statements where
  settings := fun _ _ _ _ => Iff.rfl
  keys := fun _ _ => Iff.rfl

theorem symm (h : SayTheSame statements statements') : SayTheSame statements' statements where
  settings := fun path hpath rest what => (h.settings path hpath rest what).symm
  keys := fun key hkey => (h.keys key hkey).symm

theorem trans {statements'' : List Statement} (h : SayTheSame statements statements')
    (h' : SayTheSame statements' statements'') : SayTheSame statements statements'' where
  settings := fun path hpath rest what =>
    (h.settings path hpath rest what).trans (h'.settings path hpath rest what)
  keys := fun key hkey => (h.keys key hkey).trans (h'.keys key hkey)

theorem passesChecks (h : SayTheSame statements statements') (hchecks : PassesChecks statements) :
    PassesChecks statements' where
  keys := by
    intro key path what hmem
    refine Classical.byContradiction fun hkey => ?_
    obtain ⟨path', what', hmem'⟩ := (h.keys key hkey).mpr ⟨path, what, hmem⟩
    exact hkey (hchecks.keys key path' what' hmem')
  limits := fun path hpath => (holds_congr (h.settings path
    (List.mem_append_left _ (List.mem_append_left _ hpath)))).mp (hchecks.limits path hpath)
  timeouts := fun path hpath => (holds_congr (h.settings path
    (List.mem_append_left _ (List.mem_append_right _ hpath)))).mp (hchecks.timeouts path hpath)
  flags := fun path hpath => (holds_congr (h.settings path
    (List.mem_append_right _ hpath))).mp (hchecks.flags path hpath)

theorem sets (h : SayTheSame statements statements') {s : Settings} (hsets : Sets statements s) :
    Sets statements' s where
  scanTimeout := (chosen_congr (h.settings _ (by decide))).mp hsets.scanTimeout
  failOnClusterChange := (chosen_congr (h.settings _ (by decide))).mp hsets.failOnClusterChange
  infoTimeout := (chosen_congr (h.settings _ (by decide))).mp hsets.infoTimeout
  sendAsIs := (chosen_congr (h.settings _ (by decide))).mp hsets.sendAsIs
  checkBounds := (chosen_congr (h.settings _ (by decide))).mp hsets.checkBounds
  maxArgDepth := (chosen_congr (h.settings _ (by decide))).mp hsets.maxArgDepth
  maxArgs := (chosen_congr (h.settings _ (by decide))).mp hsets.maxArgs

end SayTheSame

/-- Whether a policy looks at what is written under some keys in its table. -/
def isRead (policy : String) : List String × Written → Bool
  | (key :: _, _) => (timeoutPaths ++ flagPaths).contains [policy, key]
  | ([], _) => true

/-- Lines that differ in how they are written, or in what is ignored. -/
inductive Respelled : List Line → List Line → Prop
  /-- The keys of the root table come in any order. -/
  | root {pairs pairs' : List (List String × Written)} (h : pairs.Perm pairs') (rest : List Line) :
    Respelled (pairLines pairs ++ rest) (pairLines pairs' ++ rest)
  /-- What is under a header comes before or after what is under another. -/
  | headers (front : List Line) {first second rest : List Line} (hfirst : StartAnew first)
    (hsecond : StartAnew second) (hrest : StartAnew rest) :
    Respelled (front ++ (first ++ (second ++ rest))) (front ++ (second ++ (first ++ rest)))
  /-- The table of a policy is written in any form, with its keys in any order and with any others
  that are ignored. -/
  | policy (policy : String) (hpolicy : policy ∈ ["scan_policy", "info_policy"])
    (form form' : TableForm) (front : List (List String × Written))
    {pairs pairs' : List (List String × Written)}
    (h : (pairs.filter (isRead policy)).Perm (pairs'.filter (isRead policy))) (rest : List Line)
    (hrest : StartAnew rest) :
    Respelled (pairLines front ++ (form.lines [policy] pairs ++ rest))
      (pairLines front ++ (form'.lines [policy] pairs' ++ rest))

/-- Paths that are looked at: those of settings and below them, and those of which the first key is
none of settings. -/
def Matters (path : List String) : Prop :=
  (∃ setting ∈ limitPaths ++ timeoutPaths ++ flagPaths, ∃ rest, path = setting ++ rest) ∨
    ∃ key rest, path = key :: rest ∧
      key ∉ ["scan_policy", "info_policy", "max_arg_depth", "max_args"]

namespace LoadLemmas

variable {statements statements' : List Statement} {policy : String}

theorem sayTheSame_of_matters
    (h : ∀ path what, Matters path → ((path, what) ∈ statements ↔ (path, what) ∈ statements')) :
    SayTheSame statements statements' where
  settings := fun path hpath rest what => h _ what (.inl ⟨path, hpath, rest, rfl⟩)
  keys := fun key hkey =>
    exists_congr fun path => exists_congr fun what => h _ what (.inr ⟨key, path, rfl, hkey⟩)

/-- A policy matters only where it looks. -/
theorem isRead_of_matters (hpolicy : policy ∈ ["scan_policy", "info_policy"]) {path : List String}
    (h : Matters (policy :: path)) :
    ∃ key rest, path = key :: rest ∧ [policy, key] ∈ timeoutPaths ++ flagPaths := by
  have hlimits : ∀ setting ∈ limitPaths, ∃ key, setting = [key] ∧
      key ∉ ["scan_policy", "info_policy"] := by simp [limitPaths]
  have hfields : ∀ setting ∈ timeoutPaths ++ flagPaths, ∃ first key, setting = [first, key] := by
    simp [timeoutPaths, flagPaths]
  rcases h with ⟨setting, hsetting, rest, heq⟩ | ⟨key, rest, heq, hkey⟩
  · rw [List.append_assoc, List.mem_append] at hsetting
    rcases hsetting with hlimit | hfield
    · obtain ⟨key, rfl, hkey⟩ := hlimits setting hlimit
      obtain ⟨rfl, -⟩ := List.cons.inj heq
      exact absurd hpolicy hkey
    · obtain ⟨first, key, rfl⟩ := hfields setting hfield
      obtain ⟨rfl, rfl⟩ := List.cons.inj heq
      exact ⟨key, rest, rfl, hfield⟩
  · obtain ⟨rfl, -⟩ := List.cons.inj heq
    exact absurd (List.mem_append_left _ hpolicy) hkey

/-- Of the table of a policy only the keys matter that the policy looks at. -/
theorem mem_table_iff (hpolicy : policy ∈ ["scan_policy", "info_policy"]) (form : TableForm)
    (pairs : List (List String × Written)) {path : List String}
    (hpath : Matters path) (what : Said) :
    (path, what) ∈ form.opening [policy] ++ below [policy] (pairsSay pairs) ↔
      (path, what) ∈ below [policy] (pairsSay (pairs.filter (isRead policy))) := by
  have hopening : (path, what) ∉ form.opening [policy] := by
    intro hmem
    have heq : path = [policy] := by
      cases form with
      | header | inline => exact (Prod.mk.inj (List.mem_singleton.mp hmem)).1
      | dotted => cases hmem
    subst heq
    obtain ⟨key, rest, hnil, -⟩ := isRead_of_matters hpolicy hpath
    cases hnil
  rw [List.mem_append, or_iff_right hopening]
  simp only [below, List.mem_map, pairsSay_eq_flatMap, List.mem_flatMap, List.mem_filter]
  constructor
  · rintro ⟨s, ⟨e, he, hs⟩, heq⟩
    refine ⟨s, ⟨e, ⟨he, ?_⟩, hs⟩, heq⟩
    obtain ⟨keys, w⟩ := e
    cases keys with
    | nil => rfl
    | cons key rest =>
      obtain ⟨_, -, rfl⟩ := hs
      obtain ⟨rfl, -⟩ := Prod.mk.inj heq
      obtain ⟨_, _, heq', hread⟩ := isRead_of_matters hpolicy hpath
      obtain ⟨rfl, -⟩ := List.cons.inj heq'
      exact List.contains_iff_mem.mpr hread
  · rintro ⟨s, ⟨e, ⟨he, -⟩, hs⟩, heq⟩
    exact ⟨s, ⟨e, he, hs⟩, heq⟩

end LoadLemmas

/-- Lines that differ only in how they are written, or in what is ignored, say the same. -/
theorem sayTheSame_of_respelled {lines lines' : List Line} (h : Respelled lines lines') :
    SayTheSame (said lines) (said lines') := by
  refine sayTheSame_of_matters fun path what hpath => ?_
  cases h with
  | root h rest =>
    rw [said, said, saidFrom_pairLines, saidFrom_pairLines]
    exact (((perm_pairsSay h).map _).append_right _).mem_iff
  | headers front hfirst hsecond hrest =>
    rw [said_append front (hfirst.append (hsecond.append hrest)),
      said_append front (hsecond.append (hfirst.append hrest)),
      said_append _ (hsecond.append hrest), said_append _ (hfirst.append hrest),
      said_append _ hrest, said_append _ hrest]
    exact ((List.perm_append_comm_assoc _ _ _).append_left _).mem_iff
  | policy policy hpolicy form form' front h rest hrest =>
    have htable := (mem_table_iff hpolicy form _ hpath what).trans
      (((perm_pairsSay h).map _).mem_iff.trans (mem_table_iff hpolicy form' _ hpath what).symm)
    rw [said, said, saidFrom_pairLines, saidFrom_pairLines]
    show _ ∈ _ ++ said _ ↔ _ ∈ _ ++ said _
    rw [said_table form _ _ hrest, said_table form' _ _ hrest]
    simp only [List.mem_append] at htable ⊢
    rw [htable]

/-- So do lines that are reached by any number of such changes. -/
theorem sayTheSame_of_eqvGen {lines lines' : List Line}
    (h : Relation.EqvGen Respelled lines lines') : SayTheSame (said lines) (said lines') := by
  induction h with
  | rel _ _ hrespelled => exact sayTheSame_of_respelled hrespelled
  | refl lines => exact .refl (said lines)
  | symm _ _ _ ih => exact ih.symm
  | trans _ _ _ _ _ ih ih' => exact ih.trans ih'

end BackgroundScan.Settings
