import CatOs.Fs.Fat16
import CatOs.Lib.Run

/-! The cache of the allocation table: what it holds, and that nobody can tell it is there. -/

namespace CatOs.Fat16

open Function

section Search

def Cached (fcache : Buffer FcEnt) (rel : Nat) : Prop :=
  ∃ i < fcSlots, (fcache i).valid = true ∧ (fcache i).sec = rel

structure CacheOk (good : Nat → Sector → Prop) (fcache : Buffer FcEnt) : Prop where
  front : ∀ i j, i < j → j < fcSlots → (fcache j).valid = true → (fcache i).valid = true
  contents : ∀ i < fcSlots, (fcache i).valid = true → good (fcache i).sec (fcache i).data
  once : ∀ i < fcSlots, ∀ j < fcSlots, (fcache i).valid = true → (fcache j).valid = true →
    (fcache i).sec = (fcache j).sec → i = j

def CacheSlot.Right (fcache : Buffer FcEnt) (rel : Nat) : CacheSlot → Prop
  | .hit k => k < fcSlots ∧ (fcache k).valid = true ∧ (fcache k).sec = rel
  | .victim k => k < fcSlots ∧ ¬Cached fcache rel ∧ ∀ j < k, (fcache j).valid = true

variable {good : Nat → Sector → Prop} {fcache : Buffer FcEnt}

/-- The search of the slots that are left ends right if those passed hold other sectors. -/
theorem CacheOk.searchCache (ok : CacheOk good fcache) (rel : Nat) :
    ∀ left i oldest victim, i + left = fcSlots →
      (∀ j < i, (fcache j).valid = true ∧ (fcache j).sec ≠ rel) → (∀ v ∈ victim, v < i) →
      (searchCache fcache rel left i oldest victim).Right fcache rel := by
  intro left
  induction left with
  | zero =>
    intro i oldest victim all passed before
    have within : victim.getD 0 < fcSlots := by
      cases victim with
      | none => decide
      | some v =>
        have := before v rfl
        simp only [Option.getD_some]
        omega
    refine ⟨within, ?_, fun j below => (passed j (by omega)).1⟩
    rintro ⟨j, below, valid, same⟩
    exact (passed j (by omega)).2 same
  | succ left ih =>
    intro i oldest victim all passed before
    unfold CatOs.Fat16.searchCache
    by_cases hit : (fcache i).valid = true ∧ (fcache i).sec = rel
    · simp only [if_pos hit]
      exact ⟨by omega, hit⟩
    simp only [if_neg hit]
    by_cases empty : (fcache i).valid = true
    · -- A slot with another sector is passed, whether or not it is the oldest so far.
      have passed' : ∀ j < i + 1, (fcache j).valid = true ∧ (fcache j).sec ≠ rel := by
        intro j below
        rcases Nat.lt_succ_iff_lt_or_eq.mp below with less | rfl
        · exact passed j less
        · exact ⟨empty, fun same => hit ⟨empty, same⟩⟩
      simp only [empty, Bool.not_true, Bool.false_eq_true, if_false]
      split
      · exact ih (i + 1) _ _ (by omega) passed' fun v here => by
          rw [← Option.mem_some_iff.mp here]
          exact Nat.lt_succ_self i
      · exact ih (i + 1) _ _ (by omega) passed' fun v here => Nat.lt_succ_of_lt (before v here)
    · simp only [empty, Bool.not_false, if_true]
      refine ⟨by omega, ?_, fun j below => (passed j below).1⟩
      -- Behind an empty slot all slots are empty.
      rintro ⟨j, within, valid, same⟩
      rcases Nat.lt_trichotomy j i with less | rfl | more
      · exact (passed j less).2 same
      · exact empty valid
      · exact empty (ok.front i j more within valid)

theorem CacheOk.used (ok : CacheOk good fcache) (i : Nat) (tick : Word) :
    CacheOk good (update fcache i { fcache i with tick := tick }) := by
  have same : ∀ j, (update fcache i { fcache i with tick := tick } j).valid =
      (fcache j).valid ∧ (update fcache i { fcache i with tick := tick } j).sec =
      (fcache j).sec ∧ (update fcache i { fcache i with tick := tick } j).data =
      (fcache j).data := by
    intro j
    rcases eq_or_ne j i with rfl | other
    · rw [update_self]
      exact ⟨rfl, rfl, rfl⟩
    · rw [update_of_ne other]
      exact ⟨rfl, rfl, rfl⟩
  constructor
  · intro a b less within valid
    rw [(same a).1]
    exact ok.front a b less within ((same b).1 ▸ valid)
  · intro a within valid
    rw [(same a).2.1, (same a).2.2]
    exact ok.contents a within ((same a).1 ▸ valid)
  · intro a first b second here there equal
    rw [(same a).2.1, (same b).2.1] at equal
    exact ok.once a first b second ((same a).1 ▸ here) ((same b).1 ▸ there) equal

theorem CacheOk.replaced (ok : CacheOk good fcache) {rel k : Nat} (absent : ¬Cached fcache rel)
    (filled : ∀ j < k, (fcache j).valid = true) (tick : Word) {sector : Sector}
    (fits : good rel sector) :
    CacheOk good (update fcache k
      { sec := rel, tick := tick, valid := true, data := sector }) := by
  have other : ∀ j < fcSlots, (fcache j).valid = true → (fcache j).sec ≠ rel :=
    fun j within valid same => absent ⟨j, within, valid, same⟩
  constructor
  · intro a b less within valid
    rcases eq_or_ne a k with rfl | apart
    · rw [update_self]
    rw [update_of_ne apart]
    rcases eq_or_ne b k with rfl | free
    · exact filled a less
    · rw [update_of_ne free] at valid
      exact ok.front a b less within valid
  · intro a within valid
    rcases eq_or_ne a k with rfl | apart
    · rw [update_self]
      exact fits
    · rw [update_of_ne apart] at valid ⊢
      exact ok.contents a within valid
  · intro a first b second here there equal
    rcases eq_or_ne a k with rfl | left <;> rcases eq_or_ne b a with rfl | right
    · rfl
    · rw [update_self, update_of_ne right] at equal
      rw [update_of_ne right] at there
      exact absurd equal.symm (other b second there)
    · rfl
    · rw [update_of_ne left] at here equal
      rcases eq_or_ne b k with rfl | free
      · rw [update_self] at equal
        exact absurd equal (other a first here)
      · rw [update_of_ne free] at there equal
        exact ok.once a first b second here there equal

end Search

section Next

variable {good : Nat → Sector → Prop} {disk : Disk} {m : Fat16Mnt} {fc : FatCache}

theorem CacheOk.fatSector (ok : CacheOk good fc.fcache) (rel : Nat)
    (reads : ∀ sector, m.sector disk (m.fatLba + rel) = some sector → good rel sector) :
    CacheOk good (fatSector disk m rel fc).1.fcache ∧
      ((fatSector disk m rel fc).2 = none ∧ ¬Cached fc.fcache rel ∧
          m.sector disk (m.fatLba + rel) = none ∨
        ∃ sector, (fatSector disk m rel fc).2 = some sector ∧ good rel sector ∧
          (Cached fc.fcache rel ∨ m.sector disk (m.fatLba + rel) ≠ none)) := by
  have right := ok.searchCache rel fcSlots 0 0xFFFFFFFF none (Nat.zero_add _)
    (fun j below => absurd below (Nat.not_lt_zero j)) fun v here => by cases here
  unfold CatOs.Fat16.fatSector
  generalize CatOs.Fat16.searchCache fc.fcache rel fcSlots 0 0xFFFFFFFF none = found at right
  cases found with
  | hit i =>
    obtain ⟨within, valid, same⟩ := right
    refine ⟨ok.used i _, .inr ⟨_, rfl, ?_, .inl ⟨i, within, valid, same⟩⟩⟩
    rw [← same]
    exact ok.contents i within valid
  | victim i =>
    obtain ⟨within, absent, filled⟩ := right
    cases read : m.sector disk (m.fatLba + rel) with
    | none => exact ⟨ok, .inl ⟨rfl, absent, rfl⟩⟩
    | some sector =>
      have fits := reads sector read
      exact ⟨ok.replaced absent filled _ fits, .inr ⟨sector, rfl, fits, .inr (by simp)⟩⟩

theorem CacheOk.fatNext (ok : CacheOk good fc.fcache) (clu : Nat)
    (reads : ∀ sector, m.sector disk (m.fatLba + clu * 2 / sectorSize) = some sector →
      good (clu * 2 / sectorSize) sector) :
    CacheOk good (fatNext disk m clu fc).1.fcache ∧
      ((fatNext disk m clu fc).2 = fatEofMin ∧ (outOfRange clu = true ∨
          ¬Cached fc.fcache (clu * 2 / sectorSize) ∧
            m.sector disk (m.fatLba + clu * 2 / sectorSize) = none) ∨
        ∃ sector, (fatNext disk m clu fc).2 = le16 sector (clu * 2 % sectorSize) ∧
          good (clu * 2 / sectorSize) sector ∧ outOfRange clu = false ∧
          (Cached fc.fcache (clu * 2 / sectorSize) ∨
            m.sector disk (m.fatLba + clu * 2 / sectorSize) ≠ none)) := by
  unfold CatOs.Fat16.fatNext
  cases range : outOfRange clu with
  | true => exact ⟨ok, .inl ⟨rfl, .inl rfl⟩⟩
  | false =>
    have noted : CacheOk good (fc.note (.fat clu)).fcache := ok
    obtain ⟨kept, came⟩ := noted.fatSector (clu * 2 / sectorSize) reads
    generalize CatOs.Fat16.fatSector disk m (clu * 2 / sectorSize) (fc.note (.fat clu)) = got
      at kept came
    obtain ⟨fc', read⟩ := got
    rcases came with ⟨nothing, absent, failed⟩ | ⟨sector, something, fits, source⟩
    · cases nothing
      exact ⟨kept, .inl ⟨rfl, .inr ⟨absent, failed⟩⟩⟩
    · cases something
      exact ⟨kept, .inr ⟨sector, rfl, fits, rfl, source⟩⟩

theorem cacheOk_cold : CacheOk good coldCache.fcache := by
  constructor
  · intro i j less within valid
    cases valid
  · intro i within valid
    cases valid
  · intro i first j second here
    cases here

theorem fat16Mount_cache {image : Disk} {part : Word} {start : FatCache}
    (mounted : fat16Mount image part = some (m, start)) : start = coldCache := by
  unfold fat16Mount at mounted
  split at mounted
  · cases mounted
  split at mounted
  · cases mounted
  split at mounted
  · cases mounted
    rfl
  · cases mounted

end Next

section Transparency

def Reads (medium : Word → Sector) (disk : Disk) : Prop :=
  ∀ lba sector, disk lba = some sector → sector = medium lba

def tableByte (medium : Word → Sector) (m : Fat16Mnt) (k : Nat) : UInt8 :=
  medium (m.base + BitVec.ofNat 32 (m.fatLba + k / sectorSize)) (k % sectorSize)

def storedEntry (medium : Word → Sector) (m : Fat16Mnt) (clu : Nat) : Nat :=
  (tableByte medium m (2 * clu)).toNat + 256 * (tableByte medium m (2 * clu + 1)).toNat

def fatStep (m : Fat16Mnt) (input : Disk × Nat) (fc : FatCache) : FatCache :=
  (fatNext input.1 m input.2 fc).1

variable {medium : Word → Sector} {m : Fat16Mnt}

theorem storedEntry_eq (clu : Nat) : storedEntry medium m clu =
    le16 (medium (m.base + BitVec.ofNat 32 (m.fatLba + clu * 2 / sectorSize)))
      (clu * 2 % sectorSize) := by
  have low : 2 * clu / sectorSize = clu * 2 / sectorSize ∧
      2 * clu % sectorSize = clu * 2 % sectorSize := by
    rw [Nat.mul_comm]
    exact ⟨rfl, rfl⟩
  have high : (2 * clu + 1) / sectorSize = clu * 2 / sectorSize ∧
      (2 * clu + 1) % sectorSize = clu * 2 % sectorSize + 1 := by
    simp only [sectorSize]
    omega
  simp only [storedEntry, tableByte, le16, low.1, low.2, high.1, high.2]

/--
The cache is transparent, whichever reads fail, and holds no sector twice.

A call returns the entry on the medium, or the end marker for a number that has no entry and
where neither the cache nor the driver has the sector.
-/
theorem fat_cache_transparent {image : Disk} {part : Word} {start fc : FatCache}
    (mounted : fat16Mount image part = some (m, start))
    (run : Run (fatStep m) (fun input _ => Reads medium input.1) start fc) :
    (∀ disk clu, Reads medium disk →
      (outOfRange clu = true → (fatNext disk m clu fc).2 = fatEofMin) ∧
      (outOfRange clu = false → ¬Cached fc.fcache (clu * 2 / sectorSize) →
        m.sector disk (m.fatLba + clu * 2 / sectorSize) = none →
        (fatNext disk m clu fc).2 = fatEofMin) ∧
      (outOfRange clu = false → (Cached fc.fcache (clu * 2 / sectorSize) ∨
          m.sector disk (m.fatLba + clu * 2 / sectorSize) ≠ none) →
        (fatNext disk m clu fc).2 = storedEntry medium m clu)) ∧
    ∀ i < fcSlots, ∀ j < fcSlots, (fc.fcache i).valid = true → (fc.fcache j).valid = true →
      (fc.fcache i).sec = (fc.fcache j).sec → i = j := by
  -- Good contents are those of the medium.
  let good (rel : Nat) (sector : Sector) : Prop :=
    sector = medium (m.base + BitVec.ofNat 32 (m.fatLba + rel))
  have ok : CacheOk good fc.fcache := by
    refine run.invariant (fun fc => CacheOk good fc.fcache) ?_ ?_
    · rw [fat16Mount_cache mounted]
      exact cacheOk_cold
    · intro input fc reads kept
      exact (kept.fatNext input.2 fun sector read => reads _ _ read).1
  refine ⟨fun disk clu reads => ?_, ok.once⟩
  obtain ⟨-, came⟩ := ok.fatNext clu fun sector (read : m.sector disk _ = _) => reads _ _ read
  rcases came with ⟨ends, reason⟩ | ⟨sector, value, fits, range, source⟩
  · refine ⟨fun _ => ends, fun _ _ _ => ends, fun range source => ?_⟩
    rcases reason with out | ⟨absent, failed⟩
    · rw [range] at out
      cases out
    · exact (source.elim absent fun read => read failed).elim
  · refine ⟨fun out => ?_, fun _ absent failed => ?_, fun _ _ => ?_⟩
    · rw [range] at out
      cases out
    · exact (source.elim absent fun read => read failed).elim
    · rw [value, fits, storedEntry_eq]

def tinyBoot (i : Nat) : UInt8 :=
  if i = 12 then 2
  else if i = 13 ∨ i = 14 ∨ i = 16 ∨ i = 22 then 1
  else if i = 17 then 16
  else if i = 19 then 10
  else if i = 510 then 0x55
  else if i = 511 then 0xAA
  else 0

def tinyMedium (fat root : Sector) (data : Nat → Sector) (lba : Word) : Sector :=
  if lba = 0 then tinyBoot else if lba = 1 then fat else if lba = 2 then root else data (lba.toNat - 3)

def tinyMnt : Fat16Mnt :=
  { base := 0, spc := 1, fatsz := 1, rootents := 16, totsec := 10, fatLba := 1, rootLba := 2
    dataLba := 3, nclusters := 7, spc_pos := by decide, fat_le := by decide, root_le := by decide
    data_lt := by decide, nclusters_eq := by decide, nclusters_lt := by decide }

theorem rootReadable_of_total (medium : Word → Sector) (m : Fat16Mnt) (left i : Nat) :
    rootReadable (fun lba => some (medium lba)) m left i = true := by
  induction left generalizing i with
  | zero => rfl
  | succ left ih =>
    simp only [rootReadable, Fat16Mnt.sector]
    split
    · rfl
    · exact ih (i + 1)

theorem mount_tiny (fat root : Sector) (data : Nat → Sector) :
    fat16Mount (fun lba => some (tinyMedium fat root data lba)) 0 = some (tinyMnt, coldCache) := by
  have boot : tinyMedium fat root data 0 = tinyBoot := if_pos rfl
  have described : bpbVolume 0 tinyBoot = some tinyMnt := by decide
  simp only [fat16Mount, boot, described, rootReadable_of_total, if_true]

/-- A chain of two clusters is read once, and once more while the driver fails. -/
theorem fat_cache_transparent_tiny :
    let medium := tinyMedium (fun i => if i = 4 then 3 else 0xFF) (fun _ => 0) fun _ _ => 0
    let read := fatStep tinyMnt (fun lba => some (medium lba), 2) coldCache
    (fatNext (fun _ => none) tinyMnt 2 read).2 = storedEntry medium tinyMnt 2 ∧
      storedEntry medium tinyMnt 2 = 0xFF03 := by
  intro medium read
  have mounted := mount_tiny (fun i => if i = 4 then 3 else 0xFF) (fun _ => 0) fun _ _ => 0
  have run : Run (fatStep tinyMnt) (fun input _ => Reads medium input.1) coldCache read :=
    Run.start.step _ fun lba sector same => (Option.some.inj same).symm
  have calls := (fat_cache_transparent mounted run).1 (fun _ => none) 2 fun lba sector none => by
    cases none
  have cached : Cached read.fcache (2 * 2 / sectorSize) :=
    ⟨0, by decide, by decide, by decide⟩
  exact ⟨calls.2.2 (by decide) (.inl cached), by decide⟩

end Transparency

end CatOs.Fat16
