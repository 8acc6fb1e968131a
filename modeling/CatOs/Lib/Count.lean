import CatOs.Lib.Loop
import Mathlib.Data.Nat.Count

/-! Counting the indices below a bound that have a property. -/

namespace CatOs

section Count

variable {p q : Nat → Prop} [DecidablePred p] [DecidablePred q] {n : Nat}

/-- Properties that agree below the bound have the same count. -/
theorem count_congr (same : ∀ k < n, p k ↔ q k) : Nat.count p n = Nat.count q n := by
  apply Nat.le_antisymm
  · exact Nat.count_mono_left fun k below => (same k below).mp
  · exact Nat.count_mono_left fun k below => (same k below).mpr

/-- Properties that differ at one index have counts that differ by what happens there. -/
theorem count_change {k : Nat} (below : k < n) (apart : ∀ j < n, j ≠ k → (p j ↔ q j)) :
    Nat.count q n + (if p k then 1 else 0) = Nat.count p n + (if q k then 1 else 0) := by
  -- The bound is at least one past the index, and nothing changes from there on.
  induction n with
  | zero => exact absurd below (Nat.not_lt_zero k)
  | succ n ih =>
    rw [Nat.count_succ, Nat.count_succ]
    by_cases last : k = n
    · subst last
      have before : Nat.count p k = Nat.count q k :=
        count_congr fun j earlier => apart j (Nat.lt_succ_of_lt earlier) (Nat.ne_of_lt earlier)
      omega
    · have earlier : k < n := by omega
      have same : (if p n then 1 else 0) = if q n then 1 else 0 :=
        if_congr (apart n (Nat.lt_succ_self n) (Ne.symm last)) rfl rfl
      have step := ih earlier fun j within => apart j (Nat.lt_succ_of_lt within)
      omega

/-- A property that at most one index has is counted at most once. -/
theorem count_le_one (unique : ∀ j < n, ∀ k < n, p j → p k → j = k) : Nat.count p n ≤ 1 := by
  induction n with
  | zero => simp
  | succ n ih =>
    rw [Nat.count_succ]
    by_cases last : p n
    · -- The last index has the property, so no earlier one does.
      have none : Nat.count p n = 0 := by
        refine Nat.count_iff_forall_not.mpr fun k below holds => ?_
        have same := unique k (Nat.lt_succ_of_lt below) n (Nat.lt_succ_self n) holds last
        omega
      rw [none, if_pos last]
    · rw [if_neg last]
      exact ih fun j jBelow k kBelow =>
        unique j (Nat.lt_succ_of_lt jBelow) k (Nat.lt_succ_of_lt kBelow)

/-- The count grows by what a further stretch of indices contributes. -/
theorem count_stretch_eq {length : Nat} (none : ∀ k < length, ¬p (n + k)) :
    Nat.count p (n + length) = Nat.count p n := by
  have zero : Nat.count (fun k => p (n + k)) length = 0 := Nat.count_iff_forall_not.mpr none
  rw [Nat.count_add, zero, Nat.add_zero]

/-- A loop that counts the indices with a property computes their number. -/
theorem forRange_count (p : Nat → Prop) [DecidablePred p] (n : Nat) :
    forRange n (fun i total => if p i then total + 1 else total) 0 = Nat.count p n := by
  induction n with
  | zero => rfl
  | succ n ih =>
    rw [forRange_succ, Nat.count_succ, ih]
    split <;> rfl

end Count

end CatOs
