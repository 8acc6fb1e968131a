import Mathlib.Algebra.BigOperators.Fin
import Mathlib.Data.Nat.ModEq
import CatOs.Lib.Loop

/-! Sums with end-around carry: every positive sum has one value from one up to the modulus. -/

namespace CatOs

section OnesComplement

variable {m : Nat}

/-- A sum brought to the modulus or below by adding its carries back. Only zero stays zero. -/
def onesFold (m sum : Nat) : Nat := if sum = 0 then 0 else (sum - 1) % m + 1

/-- What a folded sum lacks of the modulus. -/
def onesComplement (m sum : Nat) : Nat := m - onesFold m sum

/-- A folded sum is at most the modulus. -/
theorem onesFold_le (positive : 0 < m) (sum : Nat) : onesFold m sum ≤ m := by
  unfold onesFold
  split
  · exact Nat.zero_le m
  · exact Nat.mod_lt _ positive

/-- A positive sum is its folded value and a multiple of the modulus. -/
theorem onesFold_add_mul {sum : Nat} (positive : 0 < sum) :
    onesFold m sum + m * ((sum - 1) / m) = sum := by
  have split := Nat.mod_add_div (sum - 1) m
  rw [onesFold, if_neg (by omega)]
  omega

theorem eq_onesFold {value sum : Nat} (small : value ≤ m) (same : value % m = sum % m)
    (zero : value = 0 ↔ sum = 0) : value = onesFold m sum := by
  unfold onesFold
  split
  · rename_i empty
    exact zero.mpr empty
  · rename_i nonzero
    have positive : 0 < value := by omega
    -- One below, the value is itself a remainder.
    have pred : value - 1 ≡ sum - 1 [MOD m] := by
      apply Nat.ModEq.add_right_cancel' 1
      rw [Nat.sub_add_cancel positive, Nat.sub_add_cancel (Nat.pos_of_ne_zero nonzero)]
      exact same
    have within : (value - 1) % m = value - 1 := Nat.mod_eq_of_lt (by omega)
    have rest : value - 1 = (sum - 1) % m := within.symm.trans pred
    omega

/-- A sum folds to the modulus exactly if it is a positive multiple of it. -/
theorem onesFold_eq_modulus (positive : 0 < m) {sum : Nat} :
    onesFold m sum = m ↔ 0 < sum ∧ sum % m = 0 := by
  constructor
  · intro full
    have isPos : 0 < sum := by
      by_contra none
      rw [onesFold, if_pos (by omega)] at full
      omega
    have whole := onesFold_add_mul (m := m) isPos
    rw [full] at whole
    refine ⟨isPos, ?_⟩
    rw [← whole, Nat.add_mul_mod_self_left, Nat.mod_self]
  · rintro ⟨isPos, multiple⟩
    refine (eq_onesFold (Nat.le_refl m) ?_ (by omega)).symm
    rw [multiple, Nat.mod_self]

/-- A sum and its complement are a positive multiple of the modulus. -/
theorem onesFold_add_complement (positive : 0 < m) (sum : Nat) :
    onesFold m (sum + onesComplement m sum) = m := by
  rw [onesFold_eq_modulus positive, onesComplement]
  have small := onesFold_le positive sum
  rcases Nat.eq_zero_or_pos sum with rfl | isPos
  · rw [onesFold, if_pos rfl]
    simp [positive]
  · have whole := onesFold_add_mul (m := m) isPos
    refine ⟨by omega, ?_⟩
    have total : sum + (m - onesFold m sum) = m * ((sum - 1) / m + 1) := by
      rw [Nat.mul_add, Nat.mul_one]
      omega
    rw [total, Nat.mul_mod_right]

/-- A sum and its complement pass no multiple of the modulus that the sum did not pass. -/
theorem add_onesComplement_le {sum top : Nat} (positive : 0 < m) (divides : m ∣ top)
    (isPos : 0 < top) (below : sum ≤ top) : sum + onesComplement m sum ≤ top := by
  obtain ⟨k, rfl⟩ := divides
  rw [onesComplement]
  have small := onesFold_le positive sum
  rcases Nat.eq_zero_or_pos sum with rfl | nonzero
  · have factor : 0 < k := Nat.pos_of_mul_pos_left isPos
    have one := Nat.le_mul_of_pos_right m factor
    omega
  · have whole := onesFold_add_mul (m := m) nonzero
    have quotient : (sum - 1) / m < k := Nat.div_lt_of_lt_mul (by omega)
    have next : m * ((sum - 1) / m + 1) ≤ m * k := Nat.mul_le_mul_left m quotient
    rw [Nat.mul_add, Nat.mul_one] at next
    omega

end OnesComplement

end CatOs
