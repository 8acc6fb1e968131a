import CatOs.Lib.Loop
import CatOs.Lib.Word

/-! The physical page allocator: a bitmap of the frames in use, with a reference count for each. -/

namespace CatOs.Memory

def maxManagedPages : Nat := 196608

def kernelLoadPage : Nat := 256

def isaDmaPages : Nat := 4096

def pageFrameMask : Word := 0xFFFFF000

def pageOffsetMask : Word := 0xFFF

def pfn (phys : Word) : Nat :=
  (phys >>> 12).toNat

def pageAddr (frame : Nat) : Word :=
  BitVec.ofNat 32 frame <<< 12

structure Pmm where
  /-- A set bit means reserved or allocated. -/
  pmmBitmap : Nat → Bool
  /-- References to a frame, as far as they have been reported. -/
  pageRefcnt : Nat → Nat
  managedPages : Nat
  freePageCount : Word
  nextPageIdx : Nat
  nextDmaPageIdx : Nat
  /-- The bitmap has room for every managed frame. -/
  managed_le : managedPages ≤ maxManagedPages

namespace Pmm

variable (p : Pmm)

def Free (frame : Nat) : Prop :=
  frame < p.managedPages ∧ p.pmmBitmap frame = false

instance (frame : Nat) : Decidable (p.Free frame) :=
  inferInstanceAs (Decidable (_ ∧ _))

def markPageFree (idx : Nat) : Pmm :=
  if idx ≥ p.managedPages then p
  else if p.pmmBitmap idx then
    { p with
      pmmBitmap := Function.update p.pmmBitmap idx false
      freePageCount := p.freePageCount + 1
      pageRefcnt := Function.update p.pageRefcnt idx 0 }
  else p

def markPageUsed (idx : Nat) : Pmm :=
  if idx ≥ p.managedPages then p
  else if p.pmmBitmap idx then p
  else
    { p with
      pmmBitmap := Function.update p.pmmBitmap idx true
      freePageCount := p.freePageCount - 1
      pageRefcnt := Function.update p.pageRefcnt idx 1 }

def allocSlot (start stop cursor n : Nat) : Nat :=
  let begin := if cursor < start ∨ cursor ≥ stop then start else cursor
  start + (begin - start + n) % (stop - start)

def pmmAllocFrom (start stop cursor : Nat) : Option (Nat × Nat × Pmm) :=
  let stop := if stop > p.managedPages then p.managedPages else stop
  if start ≥ stop then none
  else
    match (List.range (stop - start)).find?
        fun n => !p.pmmBitmap (allocSlot start stop cursor n) with
    | none => none
    | some n =>
      let idx := allocSlot start stop cursor n
      some (idx, if idx + 1 ≥ stop then start else idx + 1, p.markPageUsed idx)

def pmmAllocPage : Pmm × Option Nat :=
  match p.pmmAllocFrom kernelLoadPage p.managedPages p.nextPageIdx with
  | none => (p, none)
  | some (idx, cursor, q) => ({ q with nextPageIdx := cursor }, some idx)

def pmmAllocDmaPage : Pmm × Option Nat :=
  match p.pmmAllocFrom kernelLoadPage isaDmaPages p.nextDmaPageIdx with
  | none => (p, none)
  | some (idx, cursor, q) => ({ q with nextDmaPageIdx := cursor }, some idx)

def pmmFreePage (phys : Word) : Pmm :=
  if phys &&& pageOffsetMask ≠ 0 ∨ phys.toNat ≥ p.managedPages * 4096 then p
  else p.markPageFree (pfn phys)

def pageRefGet (phys : Word) : Nat :=
  if phys &&& pageOffsetMask ≠ 0 ∨ pfn phys ≥ p.managedPages then 0
  else p.pageRefcnt (pfn phys)

def refcntLimit : Nat := 250

def pageRefInc (phys : Word) : Pmm :=
  if phys &&& pageOffsetMask ≠ 0 ∨ pfn phys ≥ p.managedPages then p
  else if p.pageRefcnt (pfn phys) ≥ refcntLimit then p
  else
    { p with
      pageRefcnt := Function.update p.pageRefcnt (pfn phys) (p.pageRefcnt (pfn phys) + 1) }

def pageRefDec (phys : Word) : Pmm × Nat :=
  if phys &&& pageOffsetMask ≠ 0 ∨ pfn phys ≥ p.managedPages then (p, 0)
  else if p.pageRefcnt (pfn phys) = 0 then (p, 0)
  else
    ({ p with
      pageRefcnt := Function.update p.pageRefcnt (pfn phys) (p.pageRefcnt (pfn phys) - 1) },
      p.pageRefcnt (pfn phys) - 1)

end Pmm

section Boot

def alignDown (value : Word) : Word :=
  value &&& ~~~pageOffsetMask

def alignUp (value : Word) : Word :=
  (value + pageOffsetMask) &&& ~~~pageOffsetMask

def markPages (mark : Pmm → Nat → Pmm) (start stop : Word) (p : Pmm) : Pmm :=
  if stop ≤ start then p
  else
    let limit := p.managedPages * 4096
    let last := if stop.toNat > limit then limit else stop.toNat
    forRange ((last - start.toNat + 4095) / 4096) (fun i p => mark p (pfn start + i)) p

def markRangeFree (start stop : Word) (p : Pmm) : Pmm :=
  markPages Pmm.markPageFree (alignUp start) (alignDown stop) p

def markRangeUsed (start stop : Word) (p : Pmm) : Pmm :=
  markPages Pmm.markPageUsed (alignDown start) (alignUp stop) p

structure MmapEntry where
  size : Word
  addrLow : Word
  addrHigh : Word
  lenLow : Word
  lenHigh : Word
  type : Word
  deriving DecidableEq, Repr

structure MultibootInfo where
  flags : Word
  memUpper : Word
  mmapLength : Word
  mmapAddr : Word
  entryAt : Word → MmapEntry

def multibootInfoMemory : Word := 0x1

def multibootInfoMemMap : Word := 0x40

def multibootMemoryAvailable : Word := 1

def mmapEntrySize : Word := 24

def mmapEntryEnd32 (entry : MmapEntry) : Word :=
  if entry.addrHigh ≠ 0 then 0
  else if entry.lenHigh ≠ 0 ∨ entry.addrLow + entry.lenLow < entry.addrLow then 0xFFFFFFFF
  else entry.addrLow + entry.lenLow

def mmapWalk (mbi : MultibootInfo) (goesOn : Word → Bool) : Nat → Word → Option (List MmapEntry)
  | 0, _ => none
  | fuel + 1, p =>
    if goesOn p then
      (mmapWalk mbi goesOn fuel (p + ((mbi.entryAt p).size + 4))).map (mbi.entryAt p :: ·)
    else some []

def bestEnd (entries : List MmapEntry) : Word :=
  entries.foldl (fun best entry =>
    if entry.type = multibootMemoryAvailable ∧ mmapEntryEnd32 entry > best then
      mmapEntryEnd32 entry
    else best) 0

def memTopKb (fuel : Nat) (mbi : MultibootInfo) : Option Word :=
  let mapped : Option Word :=
    if hasFlag mbi.flags multibootInfoMemMap ∧ mbi.mmapLength ≥ mmapEntrySize then
      let stop := mbi.mmapAddr + mbi.mmapLength
      (mmapWalk mbi (fun p => p + mmapEntrySize ≤ stop ∧ ¬(mbi.entryAt p).size < mmapEntrySize - 4)
        fuel mbi.mmapAddr).map bestEnd
    else some 0
  mapped.map fun (best : Word) =>
    if best ≠ 0 then (if best &&& 0x3FF ≠ 0 then (best >>> 10) + 1 else best >>> 10)
    else if hasFlag mbi.flags multibootInfoMemory ∧ mbi.memUpper ≠ 0 then mbi.memUpper + 1024
    else 131072

def maxDirectMapPhys : Word := 0x30000000

def limitOfKb (topKb : Word) : Word :=
  let topKb := if topKb > maxDirectMapPhys >>> 10 then maxDirectMapPhys >>> 10 else topKb
  let limit := topKb <<< 10
  let limit := if limit > maxDirectMapPhys then maxDirectMapPhys else limit
  let limit := if limit < 0x400000 then 0x400000 else limit
  alignDown limit

def discoverMemoryLimit (fuel : Nat) (mbi : MultibootInfo) : Option Word :=
  (memTopKb fuel mbi).map limitOfKb

theorem pfn_limitOfKb_le (topKb : Word) : pfn (limitOfKb topKb) ≤ maxManagedPages := by
  have aligned : ∀ limit : Word, limit ≤ maxDirectMapPhys →
      pfn (alignDown limit) ≤ maxManagedPages := by
    intro limit small
    have masked : (alignDown limit).toNat ≤ limit.toNat := by
      rw [alignDown, BitVec.toNat_and]
      exact Nat.and_le_left
    have bound : limit.toNat ≤ 805306368 := small
    rw [pfn, BitVec.toNat_ushiftRight, Nat.shiftRight_eq_div_pow, maxManagedPages]
    omega
  apply aligned
  generalize (if topKb > maxDirectMapPhys >>> 10 then maxDirectMapPhys >>> 10 else topKb) <<< 10
    = limit
  -- The two corrections keep the limit between four megabytes and the end of the direct map.
  by_cases large : limit > maxDirectMapPhys
  · rw [if_pos large, if_neg (by decide)]
    exact BitVec.le_refl _
  · rw [if_neg large]
    by_cases small : limit < 0x400000
    · rw [if_pos small]
      decide
    · rw [if_neg small]
      exact BitVec.not_lt.mp large

def blankPmm (topKb : Word) : Pmm where
  pmmBitmap := fun _ => true
  pageRefcnt := fun _ => 0
  managedPages := pfn (limitOfKb topKb)
  freePageCount := 0
  nextPageIdx := 0
  nextDmaPageIdx := kernelLoadPage
  managed_le := pfn_limitOfKb_le topKb

def freeEntry (p : Pmm) (entry : MmapEntry) : Pmm :=
  let start := if entry.addrHigh ≠ 0 then 0xFFFFFFFF else entry.addrLow
  let stop := mmapEntryEnd32 entry
  if entry.type = multibootMemoryAvailable ∧ stop > start then markRangeFree start stop p else p

def freeReported (fuel : Nat) (mbi : MultibootInfo) (p : Pmm) : Option Pmm :=
  if hasFlag mbi.flags multibootInfoMemMap then
    let stop := mbi.mmapAddr + mbi.mmapLength
    (mmapWalk mbi (fun p => p < stop) fuel mbi.mmapAddr).map (·.foldl freeEntry p)
  else if hasFlag mbi.flags multibootInfoMemory then
    some (markRangeFree 0x100000 (BitVec.ofNat 32 (p.managedPages * 4096)) p)
  else some p

def reserveBoot (mbi : MultibootInfo) (mbiPhys kernelStart kernelEnd : Word) (p : Pmm) : Pmm :=
  let p := markRangeUsed 0 0x100000 p
  let p := markRangeUsed kernelStart kernelEnd p
  let p := markRangeUsed mbiPhys (mbiPhys + 4096) p
  if hasFlag mbi.flags multibootInfoMemMap then
    markRangeUsed mbi.mmapAddr (mbi.mmapAddr + mbi.mmapLength) p
  else p

def pmmInit (fuel : Nat) (mbi : MultibootInfo) (mbiPhys kernelStart kernelEnd : Word) :
    Option Pmm := do
  let topKb ← memTopKb fuel mbi
  let reported ← freeReported fuel mbi (blankPmm topKb)
  return reserveBoot mbi mbiPhys kernelStart kernelEnd reported

end Boot

end CatOs.Memory
