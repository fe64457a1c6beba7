import Mathlib.Data.List.Nodup
import BackgroundScan.Proofs.IntegerLiterals
import BackgroundScan.Proofs.RecordTexts
import BackgroundScan.Proofs.RequestObjects

/-!
# Requests from texts

A request can be read from a text directly or from the tree of the text. `reads_text_as_tree` says
that this makes no difference, to the request or to the problem that is reported.
-/

namespace BackgroundScan

open Json (Token Written)

namespace RequestTextLemmas

/-- A string is read from no container, and the other fields of a request are whole trees. -/
theorem shallow_fields : ∀ f ∈ ScanRequest.shape.fields, f.Shallow := by
  have hstring (name : String) (other : Option String) :
      Field.Shallow { Field.required name Scalar.string with secondName := other } :=
    ⟨⟨_, rfl⟩, _, rfl⟩
  refine List.forall_mem_cons.mpr ⟨hstring _ _, List.forall_mem_cons.mpr ⟨hstring _ none, ?_⟩⟩
  refine List.forall_mem_cons.mpr ⟨hstring _ none, List.forall_mem_cons.mpr ⟨hstring _ none, ?_⟩⟩
  refine List.forall_mem_cons.mpr ⟨trivial, List.forall_mem_cons.mpr ⟨trivial, ?_⟩⟩
  exact List.forall_mem_singleton.mpr trivial

/-- Keys of which none is there twice are all different. -/
theorem nodup_filter {keys : List String} {known : List String}
    (h : ∀ key ∈ known, keys.count key ≤ 1) : (keys.filter known.contains).Nodup := by
  refine List.nodup_iff_count_le_one.mpr fun key => ?_
  by_cases hkey : known.contains key = true
  · rw [List.count_filter hkey]
    exact h key (List.contains_iff_mem.mp hkey)
  · have hnone : key ∉ keys.filter known.contains := fun hmem => hkey (List.mem_filter.mp hmem).2
    rw [List.count_eq_zero_of_not_mem hnone]
    exact Nat.zero_le 1

end RequestTextLemmas

open RequestTextLemmas RequestObjectLemmas

/-- A text that is JSON is written in one way. If as it is written no key of a request is in it
twice, and if it is no array of more than seven elements, the request that is read from it, or the
problem that is reported, is the one that comes from its tree. -/
theorem reads_text_as_tree {text : String} {raw : Json}
    (hread : Json.parse Json.maxNesting text = some raw) :
    ∃ w : Written, w.lexemes = Token.lexemes text ∧ w.value = some raw ∧
      (∀ w' : Written, w'.lexemes = Token.lexemes text → w' = w) ∧
      ((∀ items, raw = .array items → items.length ≤ 7) →
        (∀ key ∈ ScanRequest.keys, w.topKeys.count key ≤ 1) →
        ScanRequest.decodeText text = (ScanRequest.decode raw).mapError .decode) := by
  obtain ⟨w, hlexemes, hvalue, hunique⟩ := IntegerLiteralLemmas.existsUnique_written hread
  refine ⟨w, hlexemes, hvalue, hunique, fun hlength hkeys => ?_⟩
  have hnodup : (w.topKeys.filter ScanRequest.shape.keys.contains).Nodup := by
    rw [keys_shape]
    exact nodup_filter hkeys
  rw [ScanRequest.decodeText, ScanRequest.decode,
    decodeText_of_parse shallow_fields rfl hread hlexemes hnodup hlength]
  cases ScanRequest.shape.decode raw <;> rfl

/-- An object in which a key is written with an escape, one that is none of a request is there
twice, and the set is no string; and an array with null for its arguments and nothing after. -/
theorem reads_text_as_tree_mistyped :
    let text := "\x7b\"\\u006es\":\"test\",\"x\":[1],\"set\":true,\"x\":null\x7d"
    let positional := "[\"test\",\"demo\",\"mod\",\"fn\",null]"
    ScanRequest.decodeText text = .error (.decode (.invalidType (.bool true) .string)) ∧
      ScanRequest.decodeText positional = .ok ⟨"test", "demo", "mod", "fn", .null, none, none⟩ := by
  intro text positional
  constructor
  · let written : Written := .object [("ns", .string "test"), ("x", .array [.number ['1']]),
      ("set", .bool true), ("x", .null)]
    have hscan : Token.scan text = [.openBrace, .string (some "ns"), .colon,
        .string (some "test"), .comma, .string (some "x"), .colon, .openBracket,
        .number (some (.integer 1 (by decide))), .closeBracket, .comma, .string (some "set"),
        .colon, .bool true, .comma, .string (some "x"), .colon, .null, .closeBrace] := by
      decide +kernel
    have hread : Json.parse Json.maxNesting text = some (.object [("ns", .string "test"),
        ("x", .null), ("set", .bool true)]) := by
      unfold Json.parse
      rw [hscan]
      rfl
    have hwritten : written.lexemes = Token.lexemes text := by decide +kernel
    obtain ⟨w, -, -, hunique, hsame⟩ := reads_text_as_tree hread
    rw [← hunique written hwritten] at hsame
    exact hsame nofun (by decide)
  · let written : Written :=
      .array [.string "test", .string "demo", .string "mod", .string "fn", .null]
    have hscan : Token.scan positional = [.openBracket, .string (some "test"), .comma,
        .string (some "demo"), .comma, .string (some "mod"), .comma, .string (some "fn"), .comma,
        .null, .closeBracket] := by
      decide +kernel
    have hread : Json.parse Json.maxNesting positional = some (.array [.string "test",
        .string "demo", .string "mod", .string "fn", .null]) := by
      unfold Json.parse
      rw [hscan]
      rfl
    have hwritten : written.lexemes = Token.lexemes positional := by decide +kernel
    obtain ⟨w, -, -, hunique, hsame⟩ := reads_text_as_tree hread
    rw [← hunique written hwritten] at hsame
    refine hsame (fun items hitems => ?_) (by decide)
    rw [← Json.array.inj hitems]
    decide

end BackgroundScan
