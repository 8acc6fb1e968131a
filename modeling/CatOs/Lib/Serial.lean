import Mathlib.Data.BitVec

/-! Serial-number arithmetic: positions of an unbounded stream read modulo a power of two. -/

namespace CatOs

section Serial

variable {w : Nat}

/-- The serial number of a stream position counted from a base. -/
def serial (base : BitVec w) (position : Nat) : BitVec w :=
  base + BitVec.ofNat w position

/-- Position zero is the base itself. -/
@[simp] theorem serial_zero (base : BitVec w) : serial base 0 = base := by
  simp [serial]

/-- Advancing a serial number advances its position. -/
theorem serial_add (base : BitVec w) (position count : Nat) :
    serial base position + BitVec.ofNat w count = serial base (position + count) := by
  simp only [serial, BitVec.ofNat_add, BitVec.add_assoc]

/-- Positions less than half the number space apart have their true signed distance. -/
theorem serial_sub_toInt (base : BitVec w) {x y : Nat}
    (above : x < y + 2 ^ (w - 1)) (below : y < x + 2 ^ (w - 1)) :
    (serial base x - serial base y).toInt = (x : Int) - y := by
  -- The base cancels, which leaves the two positions reduced into the signed range.
  have cancelled : serial base x - serial base y = BitVec.ofNat w x - BitVec.ofNat w y := by
    simp only [serial, add_sub_add_left_eq_sub]
  rw [cancelled, BitVec.toInt_sub, BitVec.toInt_ofNat', BitVec.toInt_ofNat', ← Int.sub_bmod]
  -- A distance below half of the modulus is its own balanced remainder.
  rcases Nat.eq_zero_or_pos w with rfl | positive
  · have same : x = y := by simp only [Nat.zero_sub, Nat.pow_zero] at above below; omega
    simp [same]
  · have double : 2 ^ w = 2 * 2 ^ (w - 1) := by
      rw [← Nat.pow_succ', Nat.succ_eq_add_one, Nat.sub_add_cancel positive]
    rw [double]
    generalize 2 ^ (w - 1) = half at above below
    exact Int.bmod_eq_of_le_mul_two (by push_cast; omega) (by push_cast; omega)

/-- The unsigned distance of two positions is their true distance up to the number space. -/
theorem serial_sub_toNat_mod (base : BitVec w) {x y : Nat} (ordered : y ≤ x) :
    (serial base x - serial base y).toNat = (x - y) % 2 ^ w := by
  obtain ⟨count, rfl⟩ := Nat.exists_eq_add_of_le ordered
  have cancelled : serial base (y + count) - serial base y = BitVec.ofNat w count := by
    rw [← serial_add, add_sub_cancel_left]
  rw [cancelled, BitVec.toNat_ofNat, Nat.add_sub_cancel_left]

/-- Positions less than the whole number space apart have their true unsigned distance. -/
theorem serial_sub_toNat (base : BitVec w) {x y : Nat} (ordered : y ≤ x) (near : x < y + 2 ^ w) :
    (serial base x - serial base y).toNat = x - y := by
  rw [serial_sub_toNat_mod base ordered, Nat.mod_eq_of_lt (by omega)]

/-- The unsigned distance of two positions is never more than their true distance. -/
theorem serial_sub_toNat_le (base : BitVec w) {x y : Nat} (ordered : y ≤ x) :
    (serial base x - serial base y).toNat ≤ x - y := by
  rw [serial_sub_toNat_mod base ordered]
  exact Nat.mod_le _ _

/-- Nearby positions with the same serial number are the same position. -/
theorem serial_injective (base : BitVec w) {x y : Nat} (ordered : y ≤ x) (near : x < y + 2 ^ w)
    (same : serial base x = serial base y) : x = y := by
  have distance := serial_sub_toNat base ordered near
  rw [same, BitVec.sub_self, BitVec.toNat_zero] at distance
  omega

/-- The serial number a given distance past another one. -/
theorem serial_eq_of_sub (base value : BitVec w) {position count : Nat}
    (distance : (value - serial base position).toNat = count) :
    value = serial base (position + count) := by
  rw [← serial_add, ← distance, BitVec.ofNat_toNat, BitVec.setWidth_eq,
    add_sub_cancel]

/-- Every serial number is the one its distance past another one says. -/
theorem eq_serial_sub (base value : BitVec w) : value = serial base (value - base).toNat := by
  have same := serial_eq_of_sub base value (rfl : (value - serial base 0).toNat = _)
  rw [Nat.zero_add, serial_zero] at same
  exact same

/-- A position less than the whole number space is the distance past the base. -/
theorem serial_sub_base (base : BitVec w) {position : Nat} (small : position < 2 ^ w) :
    (serial base position - base).toNat = position := by
  have distance := serial_sub_toNat base (Nat.zero_le position) (by omega)
  rwa [serial_zero] at distance

end Serial

end CatOs
