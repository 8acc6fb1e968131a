import Mathlib.Algebra.Order.BigOperators.Group.Finset
import CatOs.Net.Demux
import CatOs.Lib.OnesComplement

/-! Checksums: the sum a checksum folds, what storing it makes of the sum, and sent headers. -/

namespace CatOs.Net

open Tcp (be16 be16Bytes be16_be16Bytes)
open Function

abbrev Mac := Vector UInt8 6

def ipChecksumPseudo (src dst : Word) (proto : UInt8) (tcpLen : Half) (b : Buffer UInt8)
    (len : Nat) : Half :=
  let s := le32Bytes src
  let d := le32Bytes dst
  let pseudo : Word :=
    (be16 s).zeroExtend 32 + (be16 (s.drop 2)).zeroExtend 32 +
      (be16 d).zeroExtend 32 + (be16 (d.drop 2)).zeroExtend 32 +
      proto.toBitVec.zeroExtend 32 + tcpLen.zeroExtend 32
  let pairs :=
    forRange (len / 2) (fun i sum => sum + (be16 (b.read (2 * i) 2)).zeroExtend 32) pseudo
  let sum : Word :=
    if len % 2 = 1 then pairs + (be16 [b (len - 1), 0]).zeroExtend 32 else pairs
  ~~~((doWhile foldCarry 3 sum).truncate 16)

def beginIp (gMac : Mac) (gIp : Word) (ipId : Half) (dst : Word) (proto : UInt8) (dmac : Mac)
    (frame : Option (Buffer UInt8)) : Option (Buffer UInt8) :=
  frame.map fun f =>
    f.write 0 (dmac.toList ++ gMac.toList ++ [0x08, 0x00] ++
      [0x45, 0] ++ be16Bytes 0 ++ be16Bytes ipId ++ be16Bytes 0 ++ [64, proto] ++ be16Bytes 0 ++
      le32Bytes gIp ++ le32Bytes dst)

def endIp (f : Buffer UInt8) (seglen : Word) : Buffer UInt8 :=
  let sized := f.write (14 + 2) (be16Bytes ((20 + seglen).truncate 16))
  sized.write (14 + 10) (be16Bytes (ipChecksum (framePacket sized) 20))

def wordAt (b : Buffer UInt8) (i : Nat) : Half := be16 (b.read (2 * i) 2)

def wordTotal (b : Buffer UInt8) (len : Nat) : Nat :=
  ∑ i ∈ Finset.range (len / 2), (wordAt b i).toNat +
    if len % 2 = 1 then (be16 [b (len - 1), 0]).toNat else 0

def pairSum (start : Word) (b : Buffer UInt8) (len : Nat) : Word :=
  let pairs :=
    forRange (len / 2) (fun i sum => sum + (be16 (b.read (2 * i) 2)).zeroExtend 32) start
  if len % 2 = 1 then pairs + (be16 [b (len - 1), 0]).zeroExtend 32 else pairs

def foldSum (sum : Word) : Half := ~~~((doWhile foldCarry 3 sum).truncate 16)

def pseudoSum (src dst : Word) (proto : UInt8) (tcpLen : Half) : Word :=
  (be16 (le32Bytes src)).zeroExtend 32 + (be16 ((le32Bytes src).drop 2)).zeroExtend 32 +
    (be16 (le32Bytes dst)).zeroExtend 32 + (be16 ((le32Bytes dst).drop 2)).zeroExtend 32 +
    proto.toBitVec.zeroExtend 32 + tcpLen.zeroExtend 32

theorem ipChecksum_eq_foldSum (b : Buffer UInt8) (len : Nat) :
    ipChecksum b len = foldSum (pairSum 0 b len) := rfl

theorem addCarry_mod (sum : Word) : (addCarry sum).toNat % 65535 = sum.toNat % 65535 := by
  rw [addCarry_toNat]
  omega

theorem addCarry_eq_zero (sum : Word) : (addCarry sum).toNat = 0 ↔ sum.toNat = 0 := by
  rw [addCarry_toNat]
  omega

theorem toNat_foldCarries (sum : Word) :
    (doWhile foldCarry 3 sum).toNat = onesFold 65535 sum.toNat := by
  -- No pass changes the remainder, or makes a sum empty or an empty sum not.
  have kept : (doWhile foldCarry 3 sum).toNat % 65535 = sum.toNat % 65535 ∧
      ((doWhile foldCarry 3 sum).toNat = 0 ↔ sum.toNat = 0) := by
    apply doWhile_invariant (fun now : Word => now.toNat % 65535 = sum.toNat % 65535 ∧
      (now.toNat = 0 ↔ sum.toNat = 0))
    · intro now held
      unfold foldCarry
      split
      · exact held
      · exact ⟨(addCarry_mod now).trans held.1, (addCarry_eq_zero now).trans held.2⟩
    · exact ⟨rfl, Iff.rfl⟩
  have settled := (shiftRight_eq_zero_iff _).mp (foldCarry_settles sum)
  exact eq_onesFold (by omega) kept.1 kept.2

theorem toNat_foldSum (sum : Word) : (foldSum sum).toNat = onesComplement 65535 sum.toNat := by
  have small := onesFold_le (m := 65535) (by decide) sum.toNat
  rw [foldSum, BitVec.toNat_not, BitVec.truncate_eq_setWidth, BitVec.toNat_setWidth,
    toNat_foldCarries, onesComplement]
  omega

theorem foldSum_eq_zero (sum : Word) :
    foldSum sum = 0 ↔ 0 < sum.toNat ∧ sum.toNat % 65535 = 0 := by
  have small := onesFold_le (m := 65535) (by decide) sum.toNat
  rw [← onesFold_eq_modulus (m := 65535) (by decide), ← BitVec.toNat_inj, toNat_foldSum,
    onesComplement]
  simp only [BitVec.ofNat_eq_ofNat, BitVec.toNat_ofNat, Nat.zero_mod]
  omega

theorem toNat_pairSum (start : Word) (b : Buffer UInt8) (len : Nat) :
    (pairSum start b len).toNat = (start.toNat + wordTotal b len) % 4294967296 := by
  -- The loop adds in the arithmetic of the machine what the total adds exactly.
  have pairs : (forRange (len / 2)
      (fun i sum => sum + (be16 (b.read (2 * i) 2)).zeroExtend 32) start).toNat =
      (start.toNat + ∑ i ∈ Finset.range (len / 2), (wordAt b i).toNat) % 4294967296 := by
    refine forRange_invariant (fun done (sum : Word) => sum.toNat =
      (start.toNat + ∑ i ∈ Finset.range done, (wordAt b i).toNat) % 4294967296) ?_ ?_
    · have bound := start.isLt
      rw [Finset.sum_range_zero, Nat.add_zero, Nat.mod_eq_of_lt bound]
    · intro done sum _ held
      have width : ((be16 (b.read (2 * done) 2)).zeroExtend 32).toNat = (wordAt b done).toNat :=
        BitVec.toNat_setWidth_of_le (by decide)
      rw [BitVec.toNat_add, held, width, Finset.sum_range_succ, Nat.mod_add_mod, Nat.add_assoc]
  have width : ∀ h : Half, (h.zeroExtend 32).toNat = h.toNat :=
    fun h => BitVec.toNat_setWidth_of_le (by decide)
  unfold pairSum wordTotal
  split
  · rw [BitVec.toNat_add, pairs, width, Nat.mod_add_mod, Nat.add_assoc]
  · rw [pairs, Nat.add_zero]

theorem toNat_pairSum_short (b : Buffer UInt8) {len : Nat} (short : len ≤ 131072) :
    (pairSum 0 b len).toNat = wordTotal b len := by
  have zero : (0 : Word).toNat = 0 := rfl
  rw [toNat_pairSum, zero, Nat.zero_add, Nat.mod_eq_of_lt]
  have words : ∑ i ∈ Finset.range (len / 2), (wordAt b i).toNat ≤ len / 2 * 65535 := by
    have each := Finset.sum_le_card_nsmul (Finset.range (len / 2))
      (fun i => (wordAt b i).toNat) 65535 (fun i _ => by have := (wordAt b i).isLt; omega)
    rwa [Finset.card_range, smul_eq_mul] at each
  have last := (be16 [b (len - 1), 0]).isLt
  unfold wordTotal
  split <;> omega

theorem wordAt_write (b : Buffer UInt8) (i : Nat) (value : Half) :
    wordAt (b.write (2 * i) (be16Bytes value)) = update (wordAt b) i value := by
  have width : (be16Bytes value).length = 2 := rfl
  funext j
  unfold wordAt
  rcases eq_or_ne j i with rfl | other
  · rw [update_self, Buffer.read_write_of_length b _ width]
    exact be16_be16Bytes value []
  · rw [update_of_ne other]
    congr 1
    apply Buffer.read_congr
    intro k within
    -- Two pairs overlap only if they are the same pair.
    rcases Nat.lt_or_ge j i with below | above
    · exact Buffer.write_before b _ (by omega)
    · exact Buffer.write_after b _ (by omega)

theorem wordTotal_write (b : Buffer UInt8) {len i : Nat} (inside : 2 * i + 2 ≤ len)
    (value : Half) :
    wordTotal (b.write (2 * i) (be16Bytes value)) len + (wordAt b i).toNat =
      wordTotal b len + value.toNat := by
  have width : (be16Bytes value).length = 2 := rfl
  have member : i ∈ Finset.range (len / 2) := Finset.mem_range.mpr (by omega)
  -- The odd last byte lies behind every whole pair.
  have last : len % 2 = 1 → b.write (2 * i) (be16Bytes value) (len - 1) = b (len - 1) :=
    fun odd => Buffer.write_after b _ (by omega)
  have words : ∑ j ∈ Finset.range (len / 2), (update (wordAt b) i value j).toNat +
      (wordAt b i).toNat = ∑ j ∈ Finset.range (len / 2), (wordAt b j).toNat + value.toNat := by
    have rest : ∑ j ∈ (Finset.range (len / 2)).erase i,
        (update (wordAt b) i value j).toNat =
          ∑ j ∈ (Finset.range (len / 2)).erase i, (wordAt b j).toNat := by
      apply Finset.sum_congr rfl
      intro j outside
      rw [update_of_ne (Finset.ne_of_mem_erase outside)]
    rw [← Finset.add_sum_erase _ _ member, ← Finset.add_sum_erase _ (fun j => (wordAt b j).toNat)
      member, rest, update_self]
    omega
  unfold wordTotal
  rw [wordAt_write]
  split
  · rename_i odd
    rw [last odd]
    omega
  · omega

theorem foldSum_store (start : Word) (b : Buffer UInt8) {len i : Nat}
    (inside : 2 * i + 2 ≤ len) (empty : wordAt b i = 0) :
    foldSum (pairSum start (b.write (2 * i) (be16Bytes (foldSum (pairSum start b len)))) len) =
      0 := by
  have total := wordTotal_write b inside (foldSum (pairSum start b len))
  have zero : (wordAt b i).toNat = 0 := by rw [empty]; rfl
  -- The largest sum of the machine is a multiple of the modulus, so no carry is lost.
  have below : (pairSum start b len).toNat ≤ 4294967295 := by omega
  have fits := add_onesComplement_le (m := 65535) (by decide) (by decide) (by decide) below
  have whole := onesFold_add_complement (m := 65535) (by decide) (pairSum start b len).toNat
  rw [← toNat_foldSum] at fits whole
  rw [foldSum_eq_zero, ← onesFold_eq_modulus (m := 65535) (by decide)]
  have stored : (pairSum start (b.write (2 * i)
      (be16Bytes (foldSum (pairSum start b len)))) len).toNat =
      (pairSum start b len).toNat + (foldSum (pairSum start b len)).toNat := by
    have before := toNat_pairSum start b len
    rw [toNat_pairSum]
    omega
  rw [stored, whole]

def swapsZeros (old new : Half) : Bool :=
  (old == 0 && new == 0xffff) || (old == 0xffff && new == 0)

theorem swapsZeros_of_mod_eq {old new : Half} (changed : new ≠ old)
    (same : old.toNat % 65535 = new.toNat % 65535) : swapsZeros old new = true := by
  have differ : new.toNat ≠ old.toNat := fun equal => changed (BitVec.eq_of_toNat_eq equal)
  have oldBound := old.isLt
  have newBound := new.isLt
  have ends : (old.toNat = 0 ∧ new.toNat = 65535) ∨ (old.toNat = 65535 ∧ new.toNat = 0) := by
    omega
  rcases ends with ⟨low, high⟩ | ⟨high, low⟩
  · have oldZero : old = 0 := BitVec.eq_of_toNat_eq low
    have newOnes : new = 0xffff := BitVec.eq_of_toNat_eq high
    rw [oldZero, newOnes]
    decide
  · have oldOnes : old = 0xffff := BitVec.eq_of_toNat_eq high
    have newZero : new = 0 := BitVec.eq_of_toNat_eq low
    rw [oldOnes, newZero]
    decide

theorem ipChecksum_change {b : Buffer UInt8} {len i : Nat} {value : Half}
    (short : len ≤ 131072) (inside : 2 * i + 2 ≤ len) (good : ipChecksum b len = 0)
    (changed : value ≠ wordAt b i) (visible : swapsZeros (wordAt b i) value = false) :
    ipChecksum (b.write (2 * i) (be16Bytes value)) len ≠ 0 := by
  intro undetected
  rw [ipChecksum_eq_foldSum, foldSum_eq_zero, toNat_pairSum_short _ short] at good undetected
  have total := wordTotal_write b inside value
  have same : (wordAt b i).toNat % 65535 = value.toNat % 65535 := by omega
  rw [swapsZeros_of_mod_eq changed same] at visible
  cases visible

theorem wordAt_zeroed (b : Buffer UInt8) (i : Nat) :
    wordAt (b.write (2 * i) (be16Bytes 0)) i = 0 := by
  rw [wordAt_write, update_self]

theorem framePacket_write (f : Buffer UInt8) (start : Nat) (data : List UInt8) :
    framePacket (f.write (14 + start) data) = (framePacket f).write start data := by
  funext i
  simp only [framePacket, Buffer.write, Nat.add_lt_add_iff_left, Nat.add_sub_add_left]

theorem beginIp_checksum {gMac dmac : Mac} {gIp dst : Word} {ipId : Half} {proto : UInt8}
    {frame : Option (Buffer UInt8)} {f : Buffer UInt8}
    (begun : beginIp gMac gIp ipId dst proto dmac frame = some f) {i : Nat} (within : i < 2) :
    f (24 + i) = 0 := by
  obtain ⟨raw, -, rfl⟩ := Option.map_eq_some_iff.mp begun
  -- Twenty-four bytes stand before the field.
  have field : ∀ before rest : List UInt8, before.length = 24 →
      raw.write 0 (before ++ be16Bytes 0 ++ rest) (24 + i) = 0 := by
    intro before rest width
    have entry : (before ++ be16Bytes 0 ++ rest)[24 + i]? = some 0 := by
      rw [List.append_assoc, ← width, List.getElem?_append_right (Nat.le_add_right _ _),
        Nat.add_sub_cancel_left]
      rcases (by omega : i = 0 ∨ i = 1) with rfl | rfl <;> rfl
    rw [Buffer.write, if_neg (by omega), Nat.sub_zero, entry, Option.getD_some]
  rw [List.append_assoc _ (le32Bytes gIp)]
  apply field
  simp only [List.length_append, Vector.length_toList]
  rfl

theorem ipChecksum_endIp {gMac dmac : Mac} {gIp dst : Word} {ipId : Half} {proto : UInt8}
    {frame : Option (Buffer UInt8)} {f : Buffer UInt8}
    (begun : beginIp gMac gIp ipId dst proto dmac frame = some f) (data : List UInt8)
    (seglen : Word) : ipChecksum (framePacket (endIp (f.write (14 + 20) data) seglen)) 20 = 0 := by
  have width : ∀ h : Half, (be16Bytes h).length = 2 := fun _ => rfl
  unfold endIp
  rw [framePacket_write]
  apply foldSum_store 0 _ (i := 5) (by decide)
  -- Neither the segment nor the length field lies over the checksum field.
  have kept : ∀ i, i < 2 → framePacket ((f.write (14 + 20) data).write (14 + 2)
      (be16Bytes ((20 + seglen).truncate 16))) (10 + i) = 0 := by
    intro i within
    rw [framePacket, Buffer.write_after _ _ (by rw [width]; omega),
      Buffer.write_before _ _ (by omega), ← beginIp_checksum begun within]
    congr 1
    omega
  have bytes : ∀ p : Buffer UInt8, (∀ i, i < 2 → p (10 + i) = 0) → wordAt p 5 = 0 := by
    intro p zeroes
    have field : p.read (2 * 5) 2 = [p (10 + 0), p (10 + 1)] := rfl
    rw [wordAt, field, zeroes 0 (by decide), zeroes 1 (by decide)]
    rfl
  exact bytes _ kept

def storeChecksum (checksum : Buffer UInt8 → Nat → Half) (b : Buffer UInt8) (len offset : Nat) :
    Buffer UInt8 :=
  let zeroed := b.write offset (be16Bytes 0)
  zeroed.write offset (be16Bytes (checksum zeroed len))

/-- A stored checksum checks, shows changed pairs, and lets every sent header pass. -/
theorem checksum_sound (b : Buffer UInt8) (len offset : Nat) (short : len ≤ 131072)
    (even : offset % 2 = 0) (inside : offset + 2 ≤ len) :
    ipChecksum (storeChecksum ipChecksum b len offset) len = 0 ∧
    (∀ (other : Nat) (value : Half), other % 2 = 0 → other + 2 ≤ len →
      value ≠ be16 ((storeChecksum ipChecksum b len offset).read other 2) →
      swapsZeros (be16 ((storeChecksum ipChecksum b len offset).read other 2)) value = false →
      ipChecksum ((storeChecksum ipChecksum b len offset).write other (be16Bytes value)) len ≠
        0) ∧
    (∀ (src dst : Word) (proto : UInt8) (tcpLen : Half),
      ipChecksumPseudo src dst proto tcpLen
        (storeChecksum (ipChecksumPseudo src dst proto tcpLen) b len offset) len = 0) ∧
    (∀ (gMac dmac : Mac) (gIp dst : Word) (ipId : Half) (proto : UInt8)
      (frame : Option (Buffer UInt8)) (f : Buffer UInt8) (data : List UInt8)
      (seglen gIp' packetLen : Word), beginIp gMac gIp ipId dst proto dmac frame = some f →
      ipHandle gIp' (framePacket (endIp (f.write (14 + 20) data) seglen)) packetLen ≠
        .badChecksum) := by
  obtain ⟨i, rfl⟩ : ∃ i, offset = 2 * i := ⟨offset / 2, by omega⟩
  have good : ipChecksum (storeChecksum ipChecksum b len (2 * i)) len = 0 :=
    foldSum_store 0 (b.write (2 * i) (be16Bytes 0)) inside (wordAt_zeroed b i)
  refine ⟨good, ?_, ?_, ?_⟩
  · intro other value evenOther insideOther changed visible
    obtain ⟨j, rfl⟩ : ∃ j, other = 2 * j := ⟨other / 2, by omega⟩
    exact ipChecksum_change short insideOther good changed visible
  · intro src dst proto tcpLen
    exact foldSum_store (pseudoSum src dst proto tcpLen) _ inside (wordAt_zeroed b i)
  · intro gMac dmac gIp dst ipId proto frame f data seglen gIp' packetLen begun
    have passes := ipChecksum_endIp begun data seglen
    unfold ipHandle
    rw [passes]
    dsimp only
    split
    · intro same
      cases same
    · rw [if_neg (not_not.mpr rfl)]
      split
      · intro same
        cases same
      · split <;> (intro same; cases same)

/-- The checksum of a three byte buffer, where every part of the statement has an instance. -/
theorem checksum_sound_three :
    ipChecksum (storeChecksum ipChecksum (fun i => if i = 2 then 9 else 7) 3 0) 3 = 0 ∧
    ipChecksum ((storeChecksum ipChecksum (fun i => if i = 2 then 9 else 7) 3 0).write 0
      (be16Bytes 5)) 3 ≠ 0 := by
  have sound := checksum_sound (fun i => if i = 2 then 9 else 7) 3 0 (by decide) (by decide)
    (by decide)
  exact ⟨sound.1, sound.2.1 0 5 (by decide) (by decide) (by decide) (by decide)⟩

end CatOs.Net
