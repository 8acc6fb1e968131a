import CatOs.Fs.FatCache

/-! Which sectors lookups, enumerations and reads go to, and when these are those of the volume. -/

namespace CatOs.Fat16

section Access

def Access.Sound (m : Fat16Mnt) : Access → Prop
  | .fat _ => True
  | .root idx => idx < m.rootents
  | .data _ sidx => sidx < m.spc

def Access.Inside (m : Fat16Mnt) (a : Access) : Prop :=
  a.lba m < m.totsec ∧ ∀ clu, a = .fat clu → clu * 2 / sectorSize < m.fatsz

/--
An access by a cluster number that the volume has room for.

Behind the last cluster there can be sectors that are too few for one more.
-/
def Access.Stays (m : Fat16Mnt) : Access → Prop
  | .fat clu => clu < 256 * m.fatsz
  | .root _ => True
  | .data clu sidx => clu - 2 < m.nclusters ∨
      clu - 2 = m.nclusters ∧ sidx < (m.totsec - m.dataLba) % m.spc

theorem block_lt_iff {size x y : Nat} (inside : y < size) (total : Nat) :
    x * size + y < total ↔ x < total / size ∨ x = total / size ∧ y < total % size := by
  have split := Nat.div_add_mod total size
  have rest := Nat.mod_lt total (Nat.zero_lt_of_lt inside)
  rw [Nat.mul_comm] at split
  rcases Nat.lt_trichotomy x (total / size) with less | rfl | more
  · have whole := Nat.mul_le_mul_right size (Nat.succ_le_of_lt less)
    rw [Nat.succ_mul] at whole
    exact ⟨fun _ => .inl less, fun _ => by omega⟩
  · refine ⟨fun below => .inr ⟨rfl, by omega⟩, ?_⟩
    rintro (less | ⟨-, below⟩)
    · exact absurd less (Nat.lt_irrefl _)
    · omega
  · have whole := Nat.mul_le_mul_right size (Nat.succ_le_of_lt more)
    rw [Nat.succ_mul] at whole
    refine ⟨fun below => by omega, ?_⟩
    rintro (less | ⟨same, -⟩) <;> omega

theorem Access.Sound.inside_iff {m : Fat16Mnt} {a : Access} (sound : a.Sound m) :
    a.Inside m ↔ a.Stays m := by
  have fat := m.fat_le
  have root := m.root_le
  have data := m.data_lt
  cases a with
  | fat clu =>
    simp only [Access.Inside, Access.Stays, Access.lba, Access.fat.injEq, sectorSize]
    constructor
    · rintro ⟨-, first⟩
      have := first clu rfl
      omega
    · intro covered
      refine ⟨by omega, ?_⟩
      rintro _ rfl
      omega
  | root idx =>
    have within : idx < m.rootents := sound
    refine ⟨fun _ => trivial, fun _ => ⟨?_, fun clu same => by cases same⟩⟩
    simp only [Access.lba]
    omega
  | data clu sidx =>
    have within : sidx < m.spc := sound
    have blocks := block_lt_iff (x := clu - 2) within (m.totsec - m.dataLba)
    simp only [Access.Inside, Access.Stays, Access.lba, m.nclusters_eq]
    rw [← blocks]
    refine ⟨fun inside => by omega, fun inside => ⟨by omega, fun clu same => by cases same⟩⟩

end Access

section Log

variable (disk : Disk) {m : Fat16Mnt} {fc : FatCache}

def Logged (m : Fat16Mnt) (fc : FatCache) : Prop := ∀ a ∈ fc.reads, a.Sound m

section Logged

variable (ok : Logged m fc)
include ok

theorem Logged.note {a : Access} (sound : a.Sound m) : Logged m (fc.note a) := by
  intro b member
  rcases List.mem_append.mp member with before | here
  · exact ok b before
  · rw [List.mem_singleton.mp here]
    exact sound

theorem Logged.fatSector (rel : Nat) :
    Logged m (fatSector disk m rel fc).1 := by
  unfold CatOs.Fat16.fatSector
  split
  · exact ok
  · split <;> exact ok

theorem Logged.fatNext (clu : Nat) : Logged m (fatNext disk m clu fc).1 := by
  have noted : Logged m (fc.note (.fat clu)) := ok.note trivial
  have kept := noted.fatSector disk (clu * 2 / sectorSize)
  unfold CatOs.Fat16.fatNext
  split
  · exact ok
  · split <;> rename_i got <;> rw [got] at kept <;> exact kept

theorem Logged.skipClusters (s c : Nat) :
    Logged m (skipClusters disk m s c fc).1 := by
  induction s generalizing c fc with
  | zero => exact ok
  | succ s ih =>
    have kept := ok.fatNext disk c
    simp only [CatOs.Fat16.skipClusters]
    split
    · exact kept
    · exact ih kept _

theorem Logged.readEntry {a : Access} (sound : a.Sound m) (off : Nat) :
    Logged m (readEntry disk m a off fc).1 := by
  have noted : Logged m (rdSec disk m a fc).1 := ok.note sound
  unfold CatOs.Fat16.readEntry
  split <;> rename_i got <;> rw [got] at noted <;> exact noted

theorem Logged.dirRaw (dir : Dir) (idx : Nat) :
    Logged m (dirRaw disk m dir idx fc).1 := by
  cases dir with
  | root =>
    simp only [CatOs.Fat16.dirRaw]
    split
    · exact ok
    · exact ok.readEntry disk (Nat.not_le.mp ‹_›) _
  | sub dclu =>
    have kept := ok.skipClusters disk (idx / (m.spc * 16)) dclu
    have within : ∀ c, (Access.data c (idx % (m.spc * 16) * 32 / sectorSize)).Sound m := by
      intro c
      have below := Nat.mod_lt idx (Nat.mul_pos m.spc_pos (by decide : 0 < 16))
      simp only [Access.Sound, sectorSize]
      omega
    simp only [CatOs.Fat16.dirRaw]
    split
    · exact ok
    · split <;> rename_i got <;> rw [got] at kept
      · exact kept
      · exact Logged.readEntry disk kept (within _) _

theorem Logged.rootEnumFrom (want left i hit : Nat) :
    Logged m (rootEnumFrom disk m want left i hit fc).1 := by
  induction left generalizing i hit fc with
  | zero => exact ok
  | succ left ih =>
    have kept := ok.dirRaw disk .root i
    simp only [CatOs.Fat16.rootEnumFrom]
    split <;> rename_i got <;> rw [got] at kept
    · exact kept
    · exact kept
    split
    · exact kept
    split
    · exact ih kept _ _
    split
    · exact ih kept _ _
    split
    · exact kept
    · exact ih kept _ _

theorem Logged.scanDir (dir : Dir) (seg : List UInt8) (fuel : Nat) (i : Word) :
    Logged m (scanDir disk m dir seg fuel i fc).1 := by
  induction fuel generalizing i fc with
  | zero => exact ok
  | succ fuel ih =>
    have kept := ok.dirRaw disk dir i.toNat
    simp only [CatOs.Fat16.scanDir]
    split
    · exact kept
    · exact ih kept _

theorem Logged.lookupFrom (fuel n : Nat) (dir : Dir) (p : List UInt8) :
    Logged m (lookupFrom disk m fuel n dir p fc).1 := by
  induction n generalizing dir p fc with
  | zero => exact ok
  | succ n ih =>
    have kept := ok.scanDir disk dir (nextSeg p) fuel 0
    simp only [CatOs.Fat16.lookupFrom]
    split
    · exact ok
    split
    · exact ok
    split <;> rename_i got <;> rw [got] at kept
    · exact kept
    · exact kept
    · exact kept
    split
    · exact kept
    · exact ih kept _ _

theorem Logged.readCluster (c fuel : Nat) (st : ReadState) :
    Logged m (readCluster disk m c fuel st fc).1 := by
  induction fuel generalizing st fc with
  | zero => exact ok
  | succ fuel ih =>
    simp only [CatOs.Fat16.readCluster]
    split
    · rename_i going
      have within : st.pin / sectorSize < m.spc := by
        have below := going.2
        simp only [Fat16Mnt.cbytes, sectorSize] at below ⊢
        omega
      have noted : Logged m (rdSec disk m (.data c (st.pin / sectorSize)) fc).1 := ok.note within
      split <;> rename_i got <;> rw [got] at noted
      · exact noted
      · exact ih noted _
    · exact ok

theorem Logged.readChain (len fuel c : Nat) (st : ReadState) :
    Logged m (readChain disk m len fuel c st fc).1 := by
  induction fuel generalizing c st fc with
  | zero => exact ok
  | succ fuel ih =>
    have kept := ok.readCluster disk c st.rem st
    simp only [CatOs.Fat16.readChain]
    split
    · exact ok
    split
    · exact ok
    split <;> rename_i got <;> rw [got] at kept
    · exact kept
    · exact ih (Logged.fatNext disk kept c) _ _

theorem Logged.fat16ReadFile (de : Fat16Dirent) (off len : Nat) :
    Logged m (fat16ReadFile disk m de off len fc).1 := by
  have kept := ok.skipClusters disk (off / m.cbytes) de.cluster
  simp only [CatOs.Fat16.fat16ReadFile]
  split
  · exact ok
  split
  · exact ok
  split <;> rename_i got <;> rw [got] at kept
  · exact kept
  · exact Logged.readChain disk kept _ _ _ _

end Logged

end Log

section Calls

inductive FatOp where
  | lookup (fuel : Nat) (path : List UInt8)
  | rootEnum (idx : Int)
  | readFile (de : Fat16Dirent) (off len : Nat)

def FatOp.accesses (disk : Disk) (m : Fat16Mnt) (fc : FatCache) (op : FatOp) : List Access :=
  let fc := { fc with reads := [] }
  match op with
  | .lookup fuel path => (fat16Lookup disk m fuel path fc).1.reads
  | .rootEnum idx => (fat16RootEnum disk m idx fc).1.reads
  | .readFile de off len => (fat16ReadFile disk m de off len fc).1.reads

def strayDisk : Disk := fun lba =>
  let root (i : Nat) : UInt8 :=
    if i < 11 then 0x41 else if i = 26 then 0x2C else if i = 27 ∨ i = 28 then 1 else 0
  some (tinyMedium (fun _ => 0) root (fun _ _ => 0) lba)

end Calls

end CatOs.Fat16
