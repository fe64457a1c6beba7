import BackgroundScan.Record.Scalar

/-!
# Job ids

A store names its jobs by 64-bit words, and clients only hand them on. `JobId.sorted` lists ids in
their order without repetition.

Main statements: `mem_sorted`, sorting loses no id and adds none, and `pairwise_sorted`, every id
of the list is below those after it.
-/

namespace BackgroundScan

/-- The id of a job. -/
abbrev JobId := UInt64

namespace JobId

/-- The text of an id. -/
def text (id : JobId) : String := toString id.toNat

/-- Reads an id. -/
def decode (raw : Json) : Except DecodeError JobId := Scalar.long raw.head

/-- Puts an id in its place, unless it is there. -/
def insertSorted (id : JobId) : List JobId → List JobId
  | [] => [id]
  | k :: rest =>
    if id < k then id :: k :: rest
    else if id = k then k :: rest
    else k :: insertSorted id rest

/-- The ids in order, each once. -/
def sorted (ids : List JobId) : List JobId := ids.foldr insertSorted []

theorem mem_insertSorted {id k : JobId} {ids : List JobId} :
    k ∈ insertSorted id ids ↔ k = id ∨ k ∈ ids := by
  induction ids with
  | nil => simp [insertSorted]
  | cons first rest ih =>
    unfold insertSorted
    split
    · simp
    · split
      · rename_i h
        simp [h]
      · simp only [List.mem_cons, ih]
        exact or_left_comm

theorem mem_sorted {k : JobId} {ids : List JobId} : k ∈ sorted ids ↔ k ∈ ids := by
  induction ids with
  | nil => simp [sorted]
  | cons first rest ih =>
    simp only [sorted, List.foldr_cons, mem_insertSorted, List.mem_cons] at ih ⊢
    rw [ih]

theorem pairwise_insertSorted {id : JobId} {ids : List JobId} (h : ids.Pairwise (· < ·)) :
    (insertSorted id ids).Pairwise (· < ·) := by
  induction ids with
  | nil => simp [insertSorted]
  | cons first rest ih =>
    obtain ⟨below, ordered⟩ := List.pairwise_cons.mp h
    unfold insertSorted
    split
    · rename_i hlt
      refine List.pairwise_cons.mpr ⟨fun k hk => ?_, h⟩
      rcases List.mem_cons.mp hk with rfl | hk
      · exact hlt
      · exact UInt64.lt_trans hlt (below k hk)
    · rename_i hnlt
      split
      · exact h
      · rename_i hne
        refine List.pairwise_cons.mpr ⟨fun k hk => ?_, ih ordered⟩
        rcases mem_insertSorted.mp hk with rfl | hk
        · exact UInt64.lt_of_le_of_ne (UInt64.not_lt.mp hnlt) (Ne.symm hne)
        · exact below k hk

theorem pairwise_sorted (ids : List JobId) : (sorted ids).Pairwise (· < ·) := by
  induction ids with
  | nil => exact List.Pairwise.nil
  | cons first rest ih => exact pairwise_insertSorted ih

end JobId

end BackgroundScan
