import Mathlib.Data.BitVec

/-! Machine words and the flags that are packed into them. -/

namespace CatOs

/-- A 32-bit unsigned machine word. -/
abbrev Word := BitVec 32

/-- A 16-bit unsigned machine word. -/
abbrev Half := BitVec 16

section Flags

variable {w : Nat}

/-- Whether a word has one of the bits of a mask. -/
def hasFlag (word mask : BitVec w) : Bool :=
  decide (word &&& mask ≠ 0)

/-- A combination has the bits of both of its parts. -/
theorem hasFlag_or (first second mask : BitVec w) :
    hasFlag (first ||| second) mask = (hasFlag first mask || hasFlag second mask) := by
  -- A combination is zero exactly if both parts are.
  have zero : (first ||| second) &&& mask = 0 ↔ first &&& mask = 0 ∧ second &&& mask = 0 := by
    rw [BitVec.and_or_distrib_right]
    exact BitVec.or_eq_zero_iff
  unfold hasFlag
  rw [← Bool.decide_or, decide_eq_decide, ne_eq, zero, not_and_or]

/-- What a mask keeps has none of the bits outside it. -/
theorem hasFlag_and_of_disjoint {keep mask : BitVec w} (disjoint : keep &&& mask = 0)
    (word : BitVec w) : hasFlag (word &&& keep) mask = false := by
  simp [hasFlag, BitVec.and_assoc, disjoint]

end Flags

section Masks

variable {w : Nat} (word : BitVec w) (k : Nat)

/-- Masking with all bits but the lowest clears the lowest. -/
theorem and_highOnes : word &&& (BitVec.allOnes w >>> k) <<< k = (word >>> k) <<< k := by
  apply BitVec.eq_of_getLsbD_eq
  intro i within
  simp only [BitVec.getLsbD_and, BitVec.getLsbD_shiftLeft, BitVec.getLsbD_ushiftRight,
    BitVec.getLsbD_allOnes, within]
  by_cases low : i < k
  · simp [low]
  · have same : k + (i - k) = i := by omega
    simp [low, same, within]

/-- Clearing the lowest bits rounds down to a multiple. -/
theorem toNat_clearLow : ((word >>> k) <<< k).toNat = word.toNat / 2 ^ k * 2 ^ k := by
  have small : word.toNat / 2 ^ k * 2 ^ k < 2 ^ w :=
    Nat.lt_of_le_of_lt (Nat.div_mul_le_self _ _) word.isLt
  rw [BitVec.toNat_shiftLeft, BitVec.toNat_ushiftRight, Nat.shiftRight_eq_div_pow,
    Nat.shiftLeft_eq, Nat.mod_eq_of_lt small]

end Masks

end CatOs
