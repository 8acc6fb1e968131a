import CatOs.Lib.Links
import CatOs.Lib.Run
import CatOs.Memory.PmmLaws

/-! Runs of the page allocator: the pages that its clients hold, and the frames that are left. -/

namespace CatOs.Memory

open Function

structure PmmUse where
  pmm : Pmm
  pages : List Word
  dmaPages : List Word

inductive PmmOp
  | allocPage
  | allocDmaPage
  | freePage (phys : Word)
  | turn (next dma : Nat)

def returned (frame : Option Nat) : Word := frame.elim 0 pageAddr

def hold (phys : Word) (pages : List Word) : List Word := if phys = 0 then pages else phys :: pages

def PmmUse.step : PmmOp → PmmUse → PmmUse
  | .allocPage, u =>
    { u with pmm := u.pmm.pmmAllocPage.1, pages := hold (returned u.pmm.pmmAllocPage.2) u.pages }
  | .allocDmaPage, u =>
    { u with
      pmm := u.pmm.pmmAllocDmaPage.1
      dmaPages := hold (returned u.pmm.pmmAllocDmaPage.2) u.dmaPages }
  | .freePage phys, u =>
    { pmm := u.pmm.pmmFreePage phys, pages := u.pages.erase phys, dmaPages := u.dmaPages.erase phys }
  | .turn next dma, u => { u with pmm := { u.pmm with nextPageIdx := next, nextDmaPageIdx := dma } }

def PmmUse.allowed : PmmOp → PmmUse → Prop
  | .freePage phys, u => phys ∈ u.pages ++ u.dmaPages
  | _, _ => True

section Counting

def Pmm.clearBits (p : Pmm) : Nat := Nat.count (fun f => p.pmmBitmap f = false) p.managedPages

def Pmm.Counted (p : Pmm) : Prop := p.freePageCount = BitVec.ofNat 32 p.clearBits

variable {p : Pmm}

theorem Pmm.Counted.markPageFree (counted : p.Counted) (idx : Nat) : (p.markPageFree idx).Counted := by
  unfold Pmm.markPageFree
  split
  · exact counted
  split
  · rename_i managed set
    -- Exactly the bit of this frame changes, from set to clear.
    have change := @count_change (fun f => p.pmmBitmap f = false)
      (fun f => update p.pmmBitmap idx false f = false) _ _ p.managedPages idx
      (Nat.lt_of_not_le managed) fun j _ other => by rw [update_of_ne other]
    simp only [set, Bool.true_eq_false, if_false, update_self, if_true,
      Nat.add_zero] at change
    simp only [Pmm.Counted, Pmm.clearBits] at counted ⊢
    rw [counted, change, BitVec.ofNat_add]
    rfl
  · exact counted

theorem Pmm.Counted.markPageUsed (counted : p.Counted) (idx : Nat) : (p.markPageUsed idx).Counted := by
  unfold Pmm.markPageUsed
  split
  · exact counted
  split
  · exact counted
  · rename_i managed clear
    have change := @count_change (fun f => p.pmmBitmap f = false)
      (fun f => update p.pmmBitmap idx true f = false) _ _ p.managedPages idx
      (Nat.lt_of_not_le managed) fun j _ other => by rw [update_of_ne other]
    simp only [Bool.not_eq_true] at clear
    simp only [clear, Bool.true_eq_false, if_false, update_self, if_true,
      Nat.add_zero] at change
    simp only [Pmm.Counted, Pmm.clearBits] at counted ⊢
    rw [counted, ← change, BitVec.ofNat_add]
    exact BitVec.add_sub_cancel _ _

theorem markPages_invariant {holds : Pmm → Prop} {mark : Pmm → Nat → Pmm}
    (keeps : ∀ p idx, holds p → holds (mark p idx)) (start stop : Word) (initially : holds p) :
    holds (markPages mark start stop p) := by
  unfold markPages
  split
  · exact initially
  · exact forRange_invariant (fun _ => holds) initially fun i p _ ih => keeps p _ ih

theorem freeReported_invariant (holds : Pmm → Prop)
    (frees : ∀ p idx, holds p → holds (p.markPageFree idx)) {fuel : Nat} {mbi : MultibootInfo}
    {r : Pmm} (reported : freeReported fuel mbi p = some r) (initially : holds p) : holds r := by
  have freed : ∀ start stop p, holds p → holds (markRangeFree start stop p) := fun _ _ _ =>
    markPages_invariant frees _ _
  unfold freeReported at reported
  split at reported
  · obtain ⟨entries, -, rfl⟩ := Option.map_eq_some_iff.mp reported
    refine foldl_invariant holds entries (fun p entry _ ih => ?_) _ initially
    simp only [freeEntry]
    generalize (if entry.addrHigh ≠ 0 then 0xFFFFFFFF else entry.addrLow) = start
    split
    · exact freed _ _ _ ih
    · exact ih
  split at reported
  · cases reported
    exact freed _ _ _ initially
  · cases reported
    exact initially

theorem reserveBoot_invariant (holds : Pmm → Prop)
    (uses : ∀ p idx, holds p → holds (p.markPageUsed idx)) {mbi : MultibootInfo}
    {mbiPhys kernelStart kernelEnd : Word} (initially : holds p) :
    holds (reserveBoot mbi mbiPhys kernelStart kernelEnd p) := by
  have used : ∀ start stop p, holds p → holds (markRangeUsed start stop p) := fun _ _ _ =>
    markPages_invariant uses _ _
  have reserved := used mbiPhys (mbiPhys + 4096) _
    (used kernelStart kernelEnd _ (used 0 0x100000 _ initially))
  unfold reserveBoot
  split
  · exact used _ _ _ reserved
  · exact reserved

end Counting

section Holding

def Pmm.Holds (p : Pmm) (phys : Word) : Prop :=
  ∃ f, phys = pageAddr f ∧ kernelLoadPage ≤ f ∧ f < p.managedPages ∧ p.pmmBitmap f = true

structure PmmUse.Sound (u : PmmUse) : Prop where
  counted : u.pmm.Counted
  distinct : (u.pages ++ u.dmaPages).Nodup
  held : ∀ phys ∈ u.pages ++ u.dmaPages, u.pmm.Holds phys
  dma : ∀ phys ∈ u.dmaPages, pfn phys < isaDmaPages

theorem Pmm.Holds.pageAddr {p : Pmm} {f : Nat} (small : f < 1048576) (held : p.Holds (pageAddr f)) :
    kernelLoadPage ≤ f ∧ f < p.managedPages ∧ p.pmmBitmap f = true := by
  obtain ⟨g, same, above, managed, set⟩ := held
  have frames := congrArg pfn same
  rw [pfn_pageAddr small, pfn_pageAddr (p.managed_lt managed)] at frames
  subst frames
  exact ⟨above, managed, set⟩

variable {u : PmmUse}

theorem PmmUse.Sound.take (sound : u.Sound) {f : Nat} (free : u.pmm.Free f)
    (above : kernelLoadPage ≤ f) (next dma : Nat) :
    pageAddr f ∉ u.pages ++ u.dmaPages ∧
      ({ u.pmm.markPageUsed f with nextPageIdx := next, nextDmaPageIdx := dma } : Pmm).Counted ∧
      ∀ phys, phys = pageAddr f ∨ u.pmm.Holds phys →
        ({ u.pmm.markPageUsed f with nextPageIdx := next, nextDmaPageIdx := dma } : Pmm).Holds phys := by
  have managed := Pmm.managedPages_markPageUsed (p := u.pmm) f
  refine ⟨fun member => ?_, sound.counted.markPageUsed f, fun phys kept => ?_⟩
  · have set := (Pmm.Holds.pageAddr (u.pmm.managed_lt free.1) (sound.held _ member)).2.2
    exact absurd (set.symm.trans free.2) (by decide)
  · rcases kept with rfl | ⟨g, rfl, low, within, set⟩
    · refine ⟨f, rfl, above, managed.symm ▸ free.1, ?_⟩
      exact (Pmm.pmmBitmap_markPageUsed f).trans (if_pos ⟨rfl, free.1⟩)
    · refine ⟨g, rfl, low, managed.symm ▸ within, ?_⟩
      refine (Pmm.pmmBitmap_markPageUsed f).trans ?_
      split
      · rfl
      · exact set

theorem returned_some {p : Pmm} {f : Nat} (free : p.Free f) (above : kernelLoadPage ≤ f)
    (pages : List Word) : hold (returned (some f)) pages = pageAddr f :: pages := by
  refine if_neg fun zero => ?_
  have frames := congrArg BitVec.toNat zero
  rw [returned, Option.elim_some, toNat_pageAddr (p.managed_lt free.1)] at frames
  simp only [kernelLoadPage, BitVec.ofNat_eq_ofNat, BitVec.toNat_ofNat, Nat.zero_mod] at above frames
  omega

theorem PmmUse.Sound.step (sound : u.Sound) (op : PmmOp) (may : u.allowed op) : (u.step op).Sound := by
  cases op with
  | turn next dma => exact ⟨sound.counted, sound.distinct, sound.held, sound.dma⟩
  | allocPage =>
    simp only [PmmUse.step, Pmm.pmmAllocPage]
    cases found : u.pmm.pmmAllocFrom kernelLoadPage u.pmm.managedPages u.pmm.nextPageIdx with
    | none => exact ⟨sound.counted, sound.distinct, sound.held, sound.dma⟩
    | some taken =>
      obtain ⟨f, cursor, q⟩ := taken
      obtain ⟨free, ⟨above, -⟩, rfl⟩ := Pmm.pmmAllocFrom_eq_some found
      obtain ⟨new, counted, held⟩ := sound.take free above cursor u.pmm.nextDmaPageIdx
      simp only [returned_some free above]
      refine ⟨counted, List.nodup_cons.mpr ⟨new, sound.distinct⟩, fun phys member => ?_, sound.dma⟩
      exact held phys ((List.mem_cons.mp member).imp_right (sound.held phys))
  | allocDmaPage =>
    simp only [PmmUse.step, Pmm.pmmAllocDmaPage]
    cases found : u.pmm.pmmAllocFrom kernelLoadPage isaDmaPages u.pmm.nextDmaPageIdx with
    | none => exact ⟨sound.counted, sound.distinct, sound.held, sound.dma⟩
    | some taken =>
      obtain ⟨f, cursor, q⟩ := taken
      obtain ⟨free, ⟨above, low⟩, rfl⟩ := Pmm.pmmAllocFrom_eq_some found
      obtain ⟨new, counted, held⟩ := sound.take free above u.pmm.nextPageIdx cursor
      simp only [returned_some free above]
      refine ⟨counted, List.nodup_middle.mpr (List.nodup_cons.mpr ⟨new, sound.distinct⟩),
        fun phys member => ?_, fun phys member => ?_⟩
      · exact held phys ((List.mem_cons.mp (List.perm_middle.mem_iff.mp member)).imp_right
          (sound.held phys))
      · rcases List.mem_cons.mp member with rfl | old
        · rwa [pfn_pageAddr (u.pmm.managed_lt free.1)]
        · exact sound.dma phys old
  | freePage phys =>
    obtain ⟨f, rfl, above, managed, set⟩ := sound.held phys may
    have freed := Pmm.pmmFreePage_pageAddr (p := u.pmm) (u.pmm.managed_lt managed)
    have kept : ∀ other ∈ u.pages.erase (pageAddr f) ++ u.dmaPages.erase (pageAddr f),
        other ∈ u.pages ++ u.dmaPages ∧ other ≠ pageAddr f := by
      intro other member
      have apart := List.nodup_append'.mp sound.distinct
      rcases List.mem_append.mp member with page | page
      · exact ⟨List.mem_append_left _ (List.mem_of_mem_erase page), (apart.1.mem_erase_iff.mp page).1⟩
      · exact ⟨List.mem_append_right _ (List.mem_of_mem_erase page),
          (apart.2.1.mem_erase_iff.mp page).1⟩
    simp only [PmmUse.step, freed]
    refine ⟨sound.counted.markPageFree f,
      sound.distinct.sublist (List.erase_sublist.append List.erase_sublist), ?_,
      fun other member => sound.dma other (List.mem_of_mem_erase member)⟩
    intro other member
    obtain ⟨old, different⟩ := kept other member
    obtain ⟨g, rfl, low, within, used⟩ := sound.held other old
    -- Another page lies in another frame, whose bit stays as it is.
    refine ⟨g, rfl, low, (Pmm.managedPages_markPageFree (p := u.pmm) f).symm ▸ within, ?_⟩
    refine (Pmm.pmmBitmap_markPageFree f).trans ((if_neg ?_).trans used)
    rintro ⟨rfl, -⟩
    exact different rfl

theorem returned_eq_zero_iff (p : Pmm) (stop cursor : Nat) :
    returned ((p.pmmAllocFrom kernelLoadPage stop cursor).map (·.1)) = 0 ↔
      ∀ f, kernelLoadPage ≤ f → f < stop → ¬p.Free f := by
  cases result : p.pmmAllocFrom kernelLoadPage stop cursor with
  | none => exact iff_of_true rfl fun f above below => Pmm.pmmAllocFrom_eq_none result above below
  | some found =>
    obtain ⟨f, next, q⟩ := found
    obtain ⟨free, ⟨above, below⟩, -⟩ := Pmm.pmmAllocFrom_eq_some result
    have held := returned_some free above []
    refine iff_of_false (fun zero => ?_) fun none => none f above below free
    have zero : returned (some f) = 0 := zero
    rw [hold, if_pos zero] at held
    cases held

end Holding

def plainMap : MultibootInfo where
  flags := 0x40
  memUpper := 0
  mmapLength := 24
  mmapAddr := 0x9000
  entryAt := fun _ =>
    { size := 20, addrLow := 0x100000, addrHigh := 0, lenLow := 0x300000, lenHigh := 0, type := 1 }

theorem pmmInit_plainMap : ∃ p, pmmInit 2 plainMap 0x9000 0x100000 0x110000 = some p := by
  apply Option.isSome_iff_exists.mp
  decide

end CatOs.Memory
