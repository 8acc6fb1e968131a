import CatOs.Fs.FatCache

/-! Resolving a path: what the search of each directory finds on the disk, and when it ends. -/

namespace CatOs.Fat16

section OnDisk

variable (disk : Disk) (m : Fat16Mnt)

def nextCluster (clu : Nat) : Nat :=
  if outOfRange clu then fatEofMin
  else
    match m.sector disk (m.fatLba + clu * 2 / sectorSize) with
    | none => fatEofMin
    | some sector => le16 sector (clu * 2 % sectorSize)

def chainAt : Nat → Nat → Option Nat
  | 0, c => some c
  | s + 1, c =>
    if nextCluster disk m c < 2 ∨ nextCluster disk m c ≥ fatEofMin then none
    else chainAt s (nextCluster disk m c)

def entryAt (a : Access) (off : Nat) : DirRaw :=
  match m.sector disk (a.lba m) with
  | none => .failed
  | some sector => .entry fun i => sector (off + i)

def dirEntry (dir : Dir) (idx : Nat) : DirRaw :=
  match dir with
  | .root => if idx ≥ m.rootents then .past else entryAt disk m (.root idx) (idx % 16 * 32)
  | .sub dclu =>
    if dclu < 2 then .past
    else
      match chainAt disk m (idx / (m.spc * 16)) dclu with
      | none => .past
      | some c => entryAt disk m (.data c (idx % (m.spc * 16) * 32 / sectorSize))
          (idx % (m.spc * 16) * 32 % sectorSize)

def CacheReal (fc : FatCache) : Prop :=
  CacheOk (fun rel sector => m.sector disk (m.fatLba + rel) = some sector) fc.fcache

variable {disk m} {fc : FatCache}

theorem CacheReal.fatNext (ok : CacheReal disk m fc) (clu : Nat) :
    CacheReal disk m (fatNext disk m clu fc).1 ∧
      (fatNext disk m clu fc).2 = nextCluster disk m clu := by
  obtain ⟨kept, came⟩ := CacheOk.fatNext ok clu fun sector read => read
  refine ⟨kept, ?_⟩
  unfold nextCluster
  rcases came with ⟨ends, out | ⟨-, failed⟩⟩ | ⟨sector, value, fits, range, -⟩
  · rw [ends, if_pos out]
  · rw [ends, failed]
    split <;> rfl
  · rw [value, range, fits]
    rfl

theorem CacheReal.skipClusters (ok : CacheReal disk m fc) (s c : Nat) :
    CacheReal disk m (skipClusters disk m s c fc).1 ∧
      (skipClusters disk m s c fc).2 = chainAt disk m s c := by
  induction s generalizing c fc with
  | zero => exact ⟨ok, rfl⟩
  | succ s ih =>
    obtain ⟨kept, next⟩ := ok.fatNext c
    simp only [CatOs.Fat16.skipClusters, chainAt, next]
    split
    · exact ⟨kept, rfl⟩
    · exact ih kept _

theorem CacheReal.readEntry (ok : CacheReal disk m fc) (a : Access) (off : Nat) :
    CacheReal disk m (readEntry disk m a off fc).1 ∧
      (readEntry disk m a off fc).2 = entryAt disk m a off := by
  simp only [CatOs.Fat16.readEntry, entryAt, rdSec]
  cases m.sector disk (a.lba m) with
  | none | some sector => exact ⟨ok, rfl⟩

theorem CacheReal.dirRaw (ok : CacheReal disk m fc) (dir : Dir) (idx : Nat) :
    CacheReal disk m (dirRaw disk m dir idx fc).1 ∧
      (dirRaw disk m dir idx fc).2 = dirEntry disk m dir idx := by
  cases dir with
  | root =>
    simp only [CatOs.Fat16.dirRaw, dirEntry]
    split
    · exact ⟨ok, rfl⟩
    · exact ok.readEntry _ _
  | sub dclu =>
    simp only [CatOs.Fat16.dirRaw, dirEntry]
    split
    · exact ⟨ok, rfl⟩
    obtain ⟨kept, reached⟩ := ok.skipClusters (idx / (m.spc * 16)) dclu
    rw [← reached]
    generalize CatOs.Fat16.skipClusters disk m (idx / (m.spc * 16)) dclu fc = got at kept
    obtain ⟨fc', c⟩ := got
    cases c with
    | none => exact ⟨kept, rfl⟩
    | some c => exact CacheReal.readEntry kept _ _

theorem cacheReal_of_run {part : Word} {start : FatCache}
    (mounted : fat16Mount disk part = some (m, start))
    (run : Run (fatStep m) (fun input _ => input.1 = disk) start fc) : CacheReal disk m fc := by
  refine run.invariant (CacheReal disk m) ?_ ?_
  · rw [fat16Mount_cache mounted]
    exact cacheOk_cold
  · intro input fc same kept
    cases same
    exact (kept.fatNext input.2).1

end OnDisk

section Search

variable {disk : Disk} {m : Fat16Mnt} {fc : FatCache}

/-- A search ends with what the first position that it does not pass over says. -/
theorem CacheReal.scanDir (ok : CacheReal disk m fc) (dir : Dir) (seg : List UInt8) (fuel : Nat)
    (i : Word) :
    CacheReal disk m (scanDir disk m dir seg fuel i fc).1 ∧
      ∀ found, (scanDir disk m dir seg fuel i fc).2 = some found ↔
        ∃ k < fuel, lookAt seg (dirEntry disk m dir (i + BitVec.ofNat 32 k).toNat) = some found ∧
          ∀ j < k, lookAt seg (dirEntry disk m dir (i + BitVec.ofNat 32 j).toNat) = none := by
  induction fuel generalizing i fc with
  | zero =>
    refine ⟨ok, fun found => ⟨fun h => ?_, ?_⟩⟩
    · cases h
    · rintro ⟨k, below, -⟩
      omega
  | succ fuel ih =>
    have here : i + BitVec.ofNat 32 0 = i := BitVec.add_zero i
    have shift : ∀ k, i + 1 + BitVec.ofNat 32 k = i + BitVec.ofNat 32 (k + 1) := by
      intro k
      rw [Nat.add_comm k, BitVec.ofNat_add, ← BitVec.add_assoc]
      rfl
    obtain ⟨kept, read⟩ := ok.dirRaw dir i.toNat
    simp only [CatOs.Fat16.scanDir, read]
    cases look : lookAt seg (dirEntry disk m dir i.toNat) with
    | some found =>
      refine ⟨kept, fun other => ⟨fun same => ?_, ?_⟩⟩
      · refine ⟨0, Nat.succ_pos fuel, ?_, fun j below => absurd below (Nat.not_lt_zero j)⟩
        rw [here, look]
        exact same
      · -- A later position would need this one to be passed over.
        rintro ⟨k, -, there, before⟩
        cases k with
        | zero => rwa [here, look] at there
        | succ k =>
          have passed := before 0 (Nat.succ_pos k)
          rw [here, look] at passed
          cases passed
    | none =>
      obtain ⟨after, rest⟩ := ih kept (i + 1)
      refine ⟨after, fun found => (rest found).trans ⟨?_, ?_⟩⟩
      · rintro ⟨k, below, there, before⟩
        refine ⟨k + 1, by omega, by rwa [← shift], fun j less => ?_⟩
        cases j with
        | zero => rw [here, look]
        | succ j =>
          rw [← shift]
          exact before j (by omega)
      · rintro ⟨k, below, there, before⟩
        cases k with
        | zero =>
          rw [here, look] at there
          cases there
        | succ k =>
          refine ⟨k, by omega, by rwa [shift], fun j less => ?_⟩
          rw [shift]
          exact before (j + 1) (by omega)

def EndsAt (disk : Disk) (m : Fat16Mnt) (dir : Dir) (seg : List UInt8) (k : Nat) (found : Scan) :
    Prop :=
  k < 4294967296 ∧ lookAt seg (dirEntry disk m dir k) = some found ∧
    ∀ j < k, lookAt seg (dirEntry disk m dir j) = none

theorem CacheReal.scanDir_iff (ok : CacheReal disk m fc) (dir : Dir) (seg : List UInt8)
    (fuel : Nat) (found : Scan) :
    (CatOs.Fat16.scanDir disk m dir seg fuel 0 fc).2 = some found ↔
      ∃ k < fuel, EndsAt disk m dir seg k found := by
  have position : ∀ k, ((0 : Word) + BitVec.ofNat 32 k).toNat = k % 4294967296 := by
    intro k
    have zero : (0 : Word) + BitVec.ofNat 32 k = BitVec.ofNat 32 k := BitVec.zero_add _
    rw [zero, BitVec.toNat_ofNat]
  rw [(ok.scanDir dir seg fuel 0).2 found]
  refine exists_congr fun k => and_congr_right fun _ => ?_
  rw [position k]
  constructor
  · rintro ⟨there, before⟩
    have small : k < 4294967296 := by
      by_contra large
      have earlier := before (k % 4294967296) (by omega)
      rw [position, Nat.mod_mod, there] at earlier
      cases earlier
    refine ⟨small, by rwa [Nat.mod_eq_of_lt small] at there, fun j less => ?_⟩
    have passed := before j less
    rwa [position, Nat.mod_eq_of_lt (by omega)] at passed
  · rintro ⟨small, there, before⟩
    refine ⟨by rwa [Nat.mod_eq_of_lt small], fun j less => ?_⟩
    rw [position, Nat.mod_eq_of_lt (by omega)]
    exact before j less

end Search

section Lookup

variable (disk : Disk) (m : Fat16Mnt)

def LookupEnds : Nat → Dir → List UInt8 → Prop
  | 0, _, _ => True
  | n + 1, dir, p =>
    dropSlashes p = [] ∨ (nextSeg p).length > 12 ∨
      ∃ k found, EndsAt disk m dir (nextSeg p) k found ∧
        ∀ d dclu, found = .hit d → turnAt d (afterSeg p) = .down dclu →
          LookupEnds n (.sub dclu) (dropSlashes (afterSeg p))

variable {disk m} {fc : FatCache}

theorem CacheReal.lookupEnds (ok : CacheReal disk m fc) {fuel n : Nat} {dir : Dir}
    {p : List UInt8} (returns : (lookupFrom disk m fuel n dir p fc).2.isSome = true) :
    LookupEnds disk m n dir p := by
  induction n generalizing dir p fc with
  | zero => trivial
  | succ n ih =>
    simp only [lookupFrom] at returns
    simp only [LookupEnds]
    split at returns
    · exact .inl ‹_›
    split at returns
    · exact .inr (.inl ‹_›)
    refine .inr (.inr ?_)
    have found := ok.scanDir_iff dir (nextSeg p) fuel
    have kept := (ok.scanDir dir (nextSeg p) fuel 0).1
    generalize CatOs.Fat16.scanDir disk m dir (nextSeg p) fuel 0 fc = got at returns found kept
    obtain ⟨fc', scan⟩ := got
    cases scan with
    | none => cases returns
    | some scan =>
      obtain ⟨k, -, ends⟩ := (found scan).mp rfl
      refine ⟨k, scan, ends, fun d dclu hit down => ?_⟩
      cases hit
      simp only [down] at returns
      exact ih kept returns

/-- A lookup returns once no search on its way takes more positions than it may look at. -/
theorem LookupEnds.returns {n : Nat} {dir : Dir} {p : List UInt8}
    (ends : LookupEnds disk m n dir p) : ∃ least, ∀ fuel ≥ least, ∀ fc, CacheReal disk m fc →
      (lookupFrom disk m fuel n dir p fc).2.isSome = true := by
  induction n generalizing dir p with
  | zero => exact ⟨0, fun _ _ _ _ => rfl⟩
  | succ n ih =>
    simp only [LookupEnds] at ends
    simp only [lookupFrom]
    rcases ends with empty | long | ⟨k, scan, ends, deeper⟩
    · refine ⟨0, fun _ _ _ _ => ?_⟩
      rw [if_pos empty]
      rfl
    · refine ⟨0, fun _ _ _ _ => ?_⟩
      rw [if_pos long]
      split <;> rfl
    · -- The bound covers this directory and whatever the path leads to below it.
      have below : ∃ least, ∀ d dclu, scan = .hit d → turnAt d (afterSeg p) = .down dclu →
          ∀ fuel ≥ least, ∀ fc, CacheReal disk m fc → (lookupFrom disk m fuel n (.sub dclu)
            (dropSlashes (afterSeg p)) fc).2.isSome = true := by
        by_cases down : ∃ d dclu, scan = .hit d ∧ turnAt d (afterSeg p) = .down dclu
        · obtain ⟨d, dclu, hit, down⟩ := down
          obtain ⟨least, enough⟩ := ih (deeper d dclu hit down)
          refine ⟨least, fun d' dclu' hit' down' => ?_⟩
          cases hit.symm.trans hit'
          cases down.symm.trans down'
          exact enough
        · exact ⟨0, fun d dclu hit turns => absurd ⟨d, dclu, hit, turns⟩ down⟩
      obtain ⟨least, enough⟩ := below
      refine ⟨max (k + 1) least, fun fuel large fc ok => ?_⟩
      split
      · rfl
      split
      · rfl
      have found := (ok.scanDir_iff dir (nextSeg p) fuel scan).mpr ⟨k, by omega, ends⟩
      have kept := (ok.scanDir dir (nextSeg p) fuel 0).1
      generalize scanDir disk m dir (nextSeg p) fuel 0 fc = got at found kept
      obtain ⟨fc', scan'⟩ := got
      cases found
      cases scan with
      | failed => rfl
      | missing => rfl
      | hit d =>
        cases turn : turnAt d (afterSeg p) with
        | done result =>
          simp only [turn]
          rfl
        | down dclu =>
          simp only [turn]
          exact enough d dclu rfl turn fuel (by omega) fc' kept

/--
A lookup returns exactly if the search of every directory on its way ends.

A search ends at an entry of that name, at an end marker, at a sector that cannot be read, or
at the end of the chain of the directory.
-/
theorem lookup_returns_iff {part : Word} {start : FatCache}
    (mounted : fat16Mount disk part = some (m, start))
    (run : Run (fatStep m) (fun input _ => input.1 = disk) start fc) (path : List UInt8) :
    (∃ fuel, (fat16Lookup disk m fuel path fc).2.isSome = true) ↔
      LookupEnds disk m (cstr path).length .root (cstr path) := by
  have ok := cacheReal_of_run mounted run
  constructor
  · rintro ⟨fuel, returns⟩
    exact ok.lookupEnds returns
  · intro ends
    obtain ⟨least, enough⟩ := ends.returns
    exact ⟨least, enough least (Nat.le_refl _) fc ok⟩

def loopDisk : Disk := fun lba =>
  let root (i : Nat) : UInt8 :=
    if i = 0 then 0x44 else if i < 11 then 0x20 else if i = 11 then 0x10 else if i = 26 then 2 else 0
  some (tinyMedium (fun i => if i = 4 then 2 else 0) root (fun _ _ => 0xE5) lba)

/-- The directory itself is found at once. -/
theorem lookup_returns_iff_loop :
    (∃ fuel, (fat16Lookup loopDisk tinyMnt fuel [0x44] coldCache).2.isSome = true) ∧
      LookupEnds loopDisk tinyMnt 1 .root [0x44] := by
  have mounted : fat16Mount loopDisk 0 = some (tinyMnt, coldCache) := mount_tiny ..
  have returns : (fat16Lookup loopDisk tinyMnt 1 [0x44] coldCache).2.isSome = true := by
    decide
  exact ⟨⟨1, returns⟩, (lookup_returns_iff mounted .start [0x44]).mp ⟨1, returns⟩⟩

theorem lookAt_loop (k : Nat) :
    lookAt [0x58] (dirEntry loopDisk tinyMnt (.sub 2) k) = none := by
  have next : nextCluster loopDisk tinyMnt 2 = 2 := by decide
  have chain : ∀ s, chainAt loopDisk tinyMnt s 2 = some 2 := by
    intro s
    induction s with
    | zero => rfl
    | succ s ih => simpa [chainAt, next, fatEofMin] using ih
  have inside : k % 16 * 32 / sectorSize = 0 := by
    simp only [sectorSize]
    omega
  have deleted : entryAt loopDisk tinyMnt (.data 2 0) = fun _ => .entry fun _ => 0xE5 := rfl
  have entry : dirEntry loopDisk tinyMnt (.sub 2) k = .entry fun _ => 0xE5 := by
    simp only [dirEntry, tinyMnt, Nat.one_mul, inside] at chain deleted ⊢
    rw [chain]
    simp only [deleted]
    rfl
  rw [entry]
  decide

/-- A path that leads into such a directory is searched forever. -/
theorem cyclic_directory_never_returns :
    fat16Mount loopDisk 0 = some (tinyMnt, coldCache) ∧
      ∀ fuel, (fat16Lookup loopDisk tinyMnt fuel [0x44, 0x2F, 0x58] coldCache).2 = none := by
  have mounted : fat16Mount loopDisk 0 = some (tinyMnt, coldCache) := mount_tiny ..
  refine ⟨mounted, fun fuel => Option.not_isSome_iff_eq_none.mp fun returns => ?_⟩
  have ends : LookupEnds loopDisk tinyMnt 3 .root [0x44, 0x2F, 0x58] :=
    (cacheReal_of_run mounted .start).lookupEnds returns
  let d : Fat16Dirent := { name := [0x44], attr := 0x10, size := 0, cluster := 2 }
  have first : lookAt [0x44] (dirEntry loopDisk tinyMnt .root 0) = some (.hit d) := by
    decide
  rcases ends with empty | long | ⟨k, found, ⟨-, there, before⟩, deeper⟩
  · exact absurd empty (by decide)
  · exact absurd long (by decide)
  have hit : found = .hit d := by
    cases k with
    | zero => exact Option.some.inj (there.symm.trans first)
    | succ k => cases first.symm.trans (before 0 (Nat.succ_pos k))
  have inner : LookupEnds loopDisk tinyMnt 2 (.sub 2) [0x58] := deeper d 2 hit (by decide)
  rcases inner with empty | long | ⟨k, found, ⟨-, there, -⟩, -⟩
  · exact absurd empty (by decide)
  · exact absurd long (by decide)
  · cases (lookAt_loop k).symm.trans there

end Lookup

end CatOs.Fat16
