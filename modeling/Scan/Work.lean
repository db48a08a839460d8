/-!
# Work units

Progress is counted in machine words. Sums and products that do not fit a word are refused rather
than wrapped.
-/

namespace Scan.Work

/-- The number as a word, if it fits. -/
def ofNat? (count : Nat) : Option UInt64 :=
  if count < Nat.pow 2 64 then some (UInt64.ofNat count) else none

/-- The sum of two words, if it fits. -/
def add? (left right : UInt64) : Option UInt64 :=
  ofNat? (left.toNat + right.toNat)

/-- The product of two words, if it fits. -/
def mul? (left right : UInt64) : Option UInt64 :=
  ofNat? (left.toNat * right.toNat)

/-- The sum of words in order, if no partial sum is too large. -/
def sum? (counts : List UInt64) : Option UInt64 :=
  counts.foldlM add? 0

theorem toNat_ofNat? {count : Nat} {word : UInt64} (fits : ofNat? count = some word) :
    word.toNat = count := by
  unfold ofNat? at fits
  split at fits
  · rename_i small
    cases fits
    rw [UInt64.toNat_ofNat']
    exact Nat.mod_eq_of_lt small
  · cases fits

/-- A sum that fits is the exact sum. -/
theorem toNat_add? {left right word : UInt64} (fits : add? left right = some word) :
    word.toNat = left.toNat + right.toNat :=
  toNat_ofNat? fits

/-- A product that fits is the exact product. -/
theorem toNat_mul? {left right word : UInt64} (fits : mul? left right = some word) :
    word.toNat = left.toNat * right.toNat :=
  toNat_ofNat? fits

end Scan.Work
