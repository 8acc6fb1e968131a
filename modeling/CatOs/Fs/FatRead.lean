import CatOs.Fs.FatLookup

/-! Reading files: what a read stores, and when that is what the file holds. -/

namespace CatOs.Fat16

section Contents

variable (medium : Word → Sector) (m : Fat16Mnt)

def clusterByte (c p : Nat) : UInt8 :=
  medium (m.base + BitVec.ofNat 32 ((Access.data c (p / sectorSize)).lba m)) (p % sectorSize)

def clusterLoop (c : Nat) : Buffer UInt8 := fun k => clusterByte medium m c (k % m.cbytes)

def ReadState.looped (st : ReadState) (c pin : Nat) : ReadState :=
  { out := st.out ++ (clusterLoop medium m c).read st.pin st.rem, rem := 0, pin := pin }

def fileCluster (de : Fat16Dirent) (j : Nat) : Nat :=
  (nextCluster (fun lba => some (medium lba)) m)^[j] de.cluster

def fileBytes (de : Fat16Dirent) : Buffer UInt8 := fun k =>
  clusterByte medium m (fileCluster medium m de (k / m.cbytes)) (k % m.cbytes)

def ChainCovers (de : Fat16Dirent) : Prop :=
  ∀ j, j * m.cbytes < de.size →
    2 ≤ fileCluster medium m de j ∧ fileCluster medium m de j < m.nclusters + 2

end Contents

section Cluster

variable {medium : Word → Sector} {m : Fat16Mnt}

theorem cbytes_pos (m : Fat16Mnt) : 0 < m.cbytes := Nat.mul_pos m.spc_pos (by decide)

theorem take_cluster (medium : Word → Sector) {st : ReadState} (inside : st.pin < m.cbytes)
    (rest : st.rem ≠ 0) (c : Nat) :
    0 < st.part ∧ st.part ≤ st.rem ∧
    st.take m (medium (m.base + BitVec.ofNat 32 ((Access.data c (st.pin / sectorSize)).lba m))) =
      { out := st.out ++ (clusterLoop medium m c).read st.pin st.part
        rem := st.rem - st.part
        pin := (st.pin + st.part) % m.cbytes } := by
  have bounds : 0 < st.part ∧ st.part ≤ st.rem ∧
      st.pin % sectorSize + st.part ≤ sectorSize := by
    have offset := Nat.mod_lt st.pin (by decide : 0 < sectorSize)
    unfold ReadState.part
    generalize st.pin % sectorSize = soff at offset
    split_ifs <;> omega
  obtain ⟨positive, fits, sector⟩ := bounds
  refine ⟨positive, fits, ?_⟩
  simp only [ReadState.take]
  generalize st.part = n at positive fits sector
  -- A sector lies in one cluster, so that the read stays in it up to its end.
  have within : st.pin + n ≤ m.cbytes := by
    simp only [Fat16Mnt.cbytes, sectorSize] at inside sector ⊢
    omega
  have bytes : Buffer.read (medium (m.base + BitVec.ofNat 32
      ((Access.data c (st.pin / sectorSize)).lba m))) (st.pin % sectorSize) n =
      (clusterLoop medium m c).read st.pin n := by
    refine List.map_congr_left fun i member => ?_
    have below := List.mem_range.mp member
    have place : (st.pin + i) % m.cbytes = st.pin + i := Nat.mod_eq_of_lt (by omega)
    have parts : (st.pin + i) / sectorSize = st.pin / sectorSize ∧
        (st.pin + i) % sectorSize = st.pin % sectorSize + i := by
      simp only [sectorSize] at sector ⊢
      omega
    simp only [clusterLoop, clusterByte, place, parts.1, parts.2]
  have next : (if st.pin + n ≥ m.cbytes then 0 else st.pin + n) = (st.pin + n) % m.cbytes := by
    split
    · rw [Nat.le_antisymm within ‹_›, Nat.mod_self]
    · rw [Nat.mod_eq_of_lt (by omega)]
  rw [bytes, next]

/--
Reading from a cluster never leaves it: what is stored is the cluster over and over.

At its end the position goes back to its start, so that the loop ends with the request alone.
-/
theorem readCluster_loops (c fuel : Nat) {st : ReadState} (enough : st.rem ≤ fuel)
    (inside : st.pin < m.cbytes) (fc : FatCache) :
    ∃ fc' pin, readCluster (fun lba => some (medium lba)) m c fuel st fc =
      (fc', st.looped medium m c pin, true) := by
  have finished : ∀ st : ReadState, st.rem = 0 → st = st.looped medium m c st.pin := by
    rintro ⟨out, rem, pin⟩ done
    cases done
    simp [ReadState.looped]
  induction fuel generalizing st fc with
  | zero => exact ⟨fc, st.pin, by rw [← finished st (by omega)]; rfl⟩
  | succ fuel ih =>
    simp only [readCluster]
    by_cases done : st.rem = 0
    · rw [if_neg (fun going => going.1 done)]
      exact ⟨fc, st.pin, by rw [← finished st done]⟩
    rw [if_pos ⟨done, inside⟩]
    obtain ⟨positive, fits, taken⟩ := take_cluster medium inside done c
    simp only [rdSec, Fat16Mnt.sector, taken]
    obtain ⟨fc', pin, read⟩ := @ih
      { out := st.out ++ (clusterLoop medium m c).read st.pin st.part
        rem := st.rem - st.part, pin := (st.pin + st.part) % m.cbytes }
      (by simp only; omega) (Nat.mod_lt _ (cbytes_pos m))
      (fc.note (.data c (st.pin / sectorSize)))
    refine ⟨fc', pin, ?_⟩
    rw [read]
    -- The rest is read from where the position went back to.
    have rest : (clusterLoop medium m c).read ((st.pin + st.part) % m.cbytes) (st.rem - st.part) =
        (clusterLoop medium m c).read (st.pin + st.part) (st.rem - st.part) := by
      refine List.map_congr_left fun i _ => ?_
      simp only [clusterLoop, Nat.mod_add_mod]
    have whole : st.part + (st.rem - st.part) = st.rem := by omega
    simp only [ReadState.looped, rest, List.append_assoc, ← Buffer.read_add, whole]

end Cluster

section File

variable {medium : Word → Sector} {m : Fat16Mnt} {de : Fat16Dirent} {fc : FatCache}

theorem outOfRange_eq_false {c : Nat} (least : 2 ≤ c) (most : c < m.nclusters + 2) :
    outOfRange c = false := by
  have := m.nclusters_lt
  refine decide_eq_false ?_
  simp only [fatBad, fatEofMin]
  omega

theorem ChainCovers.chainAt (covers : ChainCovers medium m de) {s : Nat}
    (long : s * m.cbytes < de.size) :
    chainAt (fun lba => some (medium lba)) m s de.cluster = some (fileCluster medium m de s) := by
  -- The steps that are left are taken from the cluster that the steps before lead to.
  have general : ∀ left done, (done + left) * m.cbytes < de.size →
      CatOs.Fat16.chainAt (fun lba => some (medium lba)) m left (fileCluster medium m de done) =
        some (fileCluster medium m de (done + left)) := by
    intro left
    induction left with
    | zero => exact fun _ _ => rfl
    | succ left ih =>
      intro done long
      have next : nextCluster (fun lba => some (medium lba)) m (fileCluster medium m de done) =
          fileCluster medium m de (done + 1) := (Function.iterate_succ_apply' _ _ _).symm
      have reach : (done + 1) * m.cbytes ≤ (done + (left + 1)) * m.cbytes :=
        Nat.mul_le_mul_right _ (by omega)
      obtain ⟨least, most⟩ := covers (done + 1) (by omega)
      have := m.nclusters_lt
      have later := ih (done + 1) (by rwa [Nat.add_right_comm])
      simp only [CatOs.Fat16.chainAt, next]
      rw [if_neg (by simp only [fatEofMin]; omega), later, Nat.add_right_comm]
      rfl
  have whole := general s 0 (by rwa [Nat.zero_add])
  rwa [Nat.zero_add] at whole

/-- What a read stores and returns: the cluster that it starts in, over and over. -/
theorem fat16ReadFile_eq (ok : CacheReal (fun lba => some (medium lba)) m fc)
    (regular : de.isDir = false) (covers : ChainCovers medium m de) (off len : Nat) :
    (fat16ReadFile (fun lba => some (medium lba)) m de off len fc).2 =
      some { out := (clusterLoop medium m (fileCluster medium m de (off / m.cbytes))).read off
               (min len (de.size - off))
             ret := asInt (min len (de.size - off)) } := by
  simp only [fat16ReadFile, regular, Bool.false_eq_true, if_false]
  by_cases nothing : off ≥ de.size ∨ len = 0
  · have none : min len (de.size - off) = 0 := by omega
    rw [if_pos nothing, none]
    rfl
  rw [if_neg nothing]
  have length : (if len > de.size - off then de.size - off else len) = min len (de.size - off) := by
    split <;> omega
  rw [length]
  have positive : min len (de.size - off) ≠ 0 := by omega
  have start : off / m.cbytes * m.cbytes < de.size :=
    Nat.lt_of_le_of_lt (Nat.div_mul_le_self off m.cbytes) (by omega)
  obtain ⟨kept, reached⟩ := ok.skipClusters (off / m.cbytes) de.cluster
  rw [covers.chainAt start] at reached
  generalize skipClusters (fun lba => some (medium lba)) m (off / m.cbytes) de.cluster fc = got
    at kept reached
  obtain ⟨fc', c⟩ := got
  cases reached
  obtain ⟨least, most⟩ := covers _ start
  generalize min len (de.size - off) = L at positive
  generalize fileCluster medium m de (off / m.cbytes) = c at least most
  obtain ⟨fc'', pin, read⟩ := @readCluster_loops medium m c L
    { out := [], rem := L, pin := off % m.cbytes } (Nat.le_refl L) (Nat.mod_lt _ (cbytes_pos m)) fc'
  obtain ⟨fuel, again⟩ := Nat.exists_eq_succ_of_ne_zero positive
  have whole : (clusterLoop medium m c).read (off % m.cbytes) L =
      (clusterLoop medium m c).read off L := by
    refine List.map_congr_left fun i _ => ?_
    simp only [clusterLoop, Nat.mod_add_mod]
  simp only [readChain, positive, if_false, outOfRange_eq_false least most, Bool.false_eq_true, read]
  rw [again]
  simp only [readChain, ReadState.looped, if_true, List.nil_append, ← again, whole]

/--
A read is right exactly if the request does not notice that it never leaves its first cluster.

The number that is returned is signed besides, so that it has to be below half its range.
-/
theorem read_file_iff {part : Word} {start : FatCache}
    (mounted : fat16Mount (fun lba => some (medium lba)) part = some (m, start))
    (run : Run (fatStep m) (fun input _ => input.1 = fun lba => some (medium lba)) start fc)
    (regular : de.isDir = false) (sized : de.size < 4294967296)
    (covers : ChainCovers medium m de) (off len : Nat) :
    (fat16ReadFile (fun lba => some (medium lba)) m de off len fc).2 =
        some { out := (fileBytes medium m de).read off (min len (de.size - off))
               ret := (min len (de.size - off) : Nat) } ↔
      min len (de.size - off) < 2147483648 ∧ ∀ k < min len (de.size - off),
        fileBytes medium m de (off + k) =
          clusterByte medium m (fileCluster medium m de (off / m.cbytes)) ((off + k) % m.cbytes) := by
  rw [fat16ReadFile_eq (cacheReal_of_run mounted run) regular covers off len]
  have short : min len (de.size - off) < 4294967296 := by omega
  generalize min len (de.size - off) = L at short
  have signed : asInt L = (L : Int) ↔ L < 2147483648 := by
    rw [asInt, BitVec.toInt_eq_toNat_cond, BitVec.toNat_ofNat, Nat.mod_eq_of_lt short]
    split <;> omega
  rw [Option.some.injEq, ReadResult.mk.injEq, signed, and_comm]
  refine and_congr_right fun _ => ⟨fun same k below => ?_, fun same => ?_⟩
  · exact (Buffer.eq_of_read_eq same below).symm
  · exact Buffer.read_congr fun k below => (same k below).symm

def twoClusters : Word → Sector :=
  tinyMedium (fun i => if i = 4 then 3 else if i = 6 ∨ i = 7 then 0xFF else 0) (fun _ => 0)
    fun k _ => if k = 0 then 1 else 2

def twoFile : Fat16Dirent := { name := [0x41], attr := 0, size := 1024, cluster := 2 }

theorem covers_twoFile : ChainCovers twoClusters tinyMnt twoFile := by
  intro j within
  have small : j < 2 := by
    simp only [Fat16Mnt.cbytes, tinyMnt, sectorSize, twoFile] at within
    omega
  have either : j = 0 ∨ j = 1 := by omega
  rcases either with rfl | rfl
  · decide
  · decide

/-- The first bytes of the file are read. -/
theorem read_file_iff_start :
    (fat16ReadFile (fun lba => some (twoClusters lba)) tinyMnt twoFile 0 2 coldCache).2 =
      some { out := [1, 1], ret := 2 } := by
  have read := (read_file_iff (mount_tiny ..) .start rfl (by decide) covers_twoFile 0 2).mpr
    (by decide)
  exact read

/-- A read across the end of a cluster finds its start again in the place of the next one. -/
theorem read_crosses_clusters :
    fat16Mount (fun lba => some (twoClusters lba)) 0 = some (tinyMnt, coldCache) ∧
    ChainCovers twoClusters tinyMnt twoFile ∧
    (fileBytes twoClusters tinyMnt twoFile).read 511 2 = [1, 2] ∧
    (fat16ReadFile (fun lba => some (twoClusters lba)) tinyMnt twoFile 511 2 coldCache).2 =
      some { out := [1, 1], ret := 2 } := by
  exact ⟨mount_tiny .., covers_twoFile, by decide, by decide⟩

end File

end CatOs.Fat16
