/-!
# Counts in words

The counters of a store and of a ledger go up by one at a time and are kept in words of 64 bits,
which start over when they are full. `wordCount` is what such a word shows of a count, and
`WordGrows` how it goes on with the count.

Main statements:
* `toNat_wordCount`: a word shows the count without what fills whole words.
* `wordGrows`: a word goes on as its count does, exactly as long as it can hold it.
-/

namespace BackgroundScan

/-- A word that was counted up from zero so many times. -/
def wordCount : Nat → UInt64
  | 0 => 0
  | n + 1 => wordCount n + 1

/-- The word that shows a count goes on by `n` from `before` to `after`: exactly if it can hold the
count, and otherwise from zero again. -/
structure WordGrows (n before after : Nat) : Prop where
  wraps : wordCount after = wordCount before + wordCount n
  exact : after < UInt64.size → (wordCount after).toNat = (wordCount before).toNat + n

theorem toNat_wordCount (n : Nat) : (wordCount n).toNat = n % UInt64.size := by
  induction n with
  | zero => rfl
  | succ n ih =>
    have hone : (1 : UInt64).toNat = 1 := rfl
    rw [wordCount, UInt64.toNat_add, ih, hone, Nat.mod_add_mod]

theorem toNat_wordCount_of_lt {n : Nat} (h : n < UInt64.size) : (wordCount n).toNat = n := by
  rw [toNat_wordCount, Nat.mod_eq_of_lt h]

theorem wordCount_add (m n : Nat) : wordCount (m + n) = wordCount m + wordCount n := by
  induction n with
  | zero => exact (UInt64.add_zero _).symm
  | succ n ih => rw [← Nat.add_assoc, wordCount, wordCount, ih, UInt64.add_assoc]

theorem wordGrows {n before after : Nat} (h : after = before + n) : WordGrows n before after where
  wraps := h ▸ wordCount_add before n
  exact := by
    intro hsize
    rw [toNat_wordCount_of_lt hsize, toNat_wordCount_of_lt (by omega), h]

end BackgroundScan
