import CatOs.Memory.BootMap
import CatOs.Memory.FailedClone

/-! Whether the bitmap and the reference counts agree on the frames that are in use. -/

namespace CatOs.Memory

variable {p : Pmm} {f : Nat}

namespace Pmm

/-- A managed frame whose bit is clear exactly if nothing is counted for it. -/
def Agrees (p : Pmm) (f : Nat) : Prop :=
  f < p.managedPages ∧ (p.pmmBitmap f = false ↔ p.pageRefcnt f = 0)

theorem Agrees.uncounted (agrees : p.Agrees f) (free : p.Free f) : p.pageRefcnt f = 0 :=
  agrees.2.mp free.2

theorem Agrees.markPageFree (agrees : p.Agrees f) (idx : Nat) : (p.markPageFree idx).Agrees f := by
  rw [Agrees] at agrees ⊢
  rw [managedPages_markPageFree, pmmBitmap_markPageFree, pageRefcnt_markPageFree]
  by_cases here : f = idx ∧ idx < p.managedPages
  · obtain ⟨rfl, managed⟩ := here
    cases bit : p.pmmBitmap f <;> simp_all
  · rw [if_neg here, if_neg fun all => here ⟨all.1, all.2.1⟩]
    exact agrees

theorem Agrees.markPageUsed (agrees : p.Agrees f) (idx : Nat) : (p.markPageUsed idx).Agrees f := by
  rw [Agrees] at agrees ⊢
  rw [managedPages_markPageUsed, pmmBitmap_markPageUsed, pageRefcnt_markPageUsed]
  by_cases here : f = idx ∧ idx < p.managedPages
  · obtain ⟨rfl, managed⟩ := here
    cases bit : p.pmmBitmap f <;> simp_all [Free]
  · rw [if_neg here, if_neg fun both => here ⟨both.1, both.2.1⟩]
    exact agrees

theorem Agrees.pmmFreePage (agrees : p.Agrees f) (phys : Word) : (p.pmmFreePage phys).Agrees f := by
  unfold Pmm.pmmFreePage
  split
  · exact agrees
  · exact agrees.markPageFree _

theorem Agrees.pmmAllocPage (agrees : p.Agrees f) : p.pmmAllocPage.1.Agrees f := by
  unfold Pmm.pmmAllocPage
  split
  · exact agrees
  · rename_i found
    obtain ⟨-, -, rfl⟩ := pmmAllocFrom_eq_some found
    exact agrees.markPageUsed _

theorem Agrees.pmmAllocDmaPage (agrees : p.Agrees f) : p.pmmAllocDmaPage.1.Agrees f := by
  unfold Pmm.pmmAllocDmaPage
  split
  · exact agrees
  · rename_i found
    obtain ⟨-, -, rfl⟩ := pmmAllocFrom_eq_some found
    exact agrees.markPageUsed _

/-- A reference given up leaves another one behind, unless the frame is freed as well. -/
theorem Agrees.pageRefDec (agrees : p.Agrees f) {pte : Word}
    (shared : f = pfn pte → 1 < p.pageRefcnt f) :
    (p.pageRefDec (pte &&& pageFrameMask)).1.Agrees f := by
  rw [Agrees, managedPages_pageRefDec, pmmBitmap_pageRefDec, pageRefcnt_pageRefDec]
  refine ⟨agrees.1, agrees.2.trans ?_⟩
  split
  · rename_i here
    have counted := shared here.1
    omega
  · rfl

theorem pageRefDec_left (pte : Word) (managed : pfn pte < p.managedPages) :
    (p.pageRefDec (pte &&& pageFrameMask)).2 = p.pageRefcnt (pfn pte) - 1 := by
  simp only [Pmm.pageRefDec, and_pageFrameMask_aligned, pfn_and_pageFrameMask, ne_eq,
    not_true_eq_false, false_or, if_neg (Nat.not_le.mpr managed)]
  split
  · rename_i none
    rw [none]
  · rfl

end Pmm

namespace Mm

variable {m n : Mm}

theorem agrees_dropPte (agrees : m.pmm.Agrees f) (table pti : Nat) :
    (dropPte table pti m).pmm.Agrees f := by
  simp only [dropPte]
  split
  · exact agrees
  by_cases here : f = pfn (m.mem table pti) ∧ f < m.pmm.managedPages
  · obtain ⟨rfl, managed⟩ := here
    rw [Pmm.pageRefDec_left _ managed]
    split
    · -- The last reference is gone, and the frame with it.
      rename_i last
      simp only [freePage, Pmm.pmmFreePage_masked, Pmm.Agrees,
        Pmm.managedPages_markPageFree, Pmm.pmmBitmap_markPageFree, Pmm.pageRefcnt_markPageFree,
        Pmm.managedPages_pageRefDec, Pmm.pageRefcnt_pageRefDec, managed, last]
      simp
    · exact agrees.pageRefDec fun _ => by omega
  · -- The reference is one to another frame.
    have kept : (m.pmm.pageRefDec (m.mem table pti &&& pageFrameMask)).1.Agrees f := by
      simp only [Pmm.Agrees, Pmm.managedPages_pageRefDec, Pmm.pmmBitmap_pageRefDec,
        Pmm.pageRefcnt_pageRefDec, if_neg here]
      exact agrees
    split
    · exact kept.pmmFreePage _
    · exact kept

theorem agrees_destroy (agrees : m.pmm.Agrees f) (pdPhys : Word) :
    (m.pagingDestroyAddressSpace pdPhys).pmm.Agrees f := by
  unfold pagingDestroyAddressSpace
  split
  · exact agrees
  refine Pmm.Agrees.pmmFreePage (forRange_invariant (fun _ (n : Mm) => n.pmm.Agrees f) agrees ?_)
    pdPhys
  intro pdi n _ before
  simp only [destroyEntry]
  split
  · exact before
  · exact Pmm.Agrees.pmmFreePage (forRange_invariant (fun _ (n : Mm) => n.pmm.Agrees f) before
      fun pti n _ ih => agrees_dropPte ih _ pti) _

theorem agrees_cowFault (agrees : m.pmm.Agrees f) (cr2 errorCode : Word) :
    (m.pagingHandleCowFault cr2 errorCode).1.pmm.Agrees f := by
  unfold pagingHandleCowFault
  split
  · exact agrees
  split
  · exact agrees
  split
  · exact agrees
  rename_i table pti _
  simp only []
  split
  · exact agrees
  split
  · rename_i shared
    split
    · rename_i result
      exact (allocPage_eq_none result).1 ▸ agrees
    · rename_i n frame result
      have taken := allocPage_eq_some result
      have kept : m.allocPage.1.pmm.Agrees f := agrees.pmmAllocPage
      rw [result] at kept
      refine kept.pageRefDec fun here => ?_
      -- The page is shared, so its frame is not the one that was free.
      have counted : 1 < m.pmm.pageRefcnt f := by
        simp only [Pmm.pageRefGet, and_pageFrameMask_aligned, pfn_and_pageFrameMask, ne_eq,
          not_true_eq_false, false_or, ← here] at shared
        split at shared
        · omega
        · exact shared
      have apart : f ≠ frame := by
        rintro rfl
        have none := agrees.uncounted taken.free
        omega
      rwa [taken.refcnt f apart]
  · exact agrees

theorem Cloned.agrees {parent child count : Nat} {new : Nat → Nat}
    (cloned : Cloned m parent child new count n) (used : InUse m parent)
    (within : count ≤ userPdis) (agrees : m.pmm.Agrees f) : n.pmm.Agrees f := by
  by_cases taken : Taken m parent child new count f
  · have set := (cloned.bitmap f).mpr (.inr taken)
    rw [Pmm.Agrees, managed_eq cloned.fixed, cloned.counted f taken, set]
    exact ⟨agrees.1, by decide⟩
  · have bit : n.pmm.pmmBitmap f = m.pmm.pmmBitmap f := by
      rw [Bool.eq_iff_iff, cloned.bitmap, or_iff_left taken]
    rw [Pmm.Agrees, managed_eq cloned.fixed, bit, cloned.refcnt f taken, if_pos agrees.1]
    refine ⟨agrees.1, fun clear => ?_, fun none => agrees.2.mpr ?_⟩
    · -- A free frame is mapped nowhere.
      rw [used.refsBelow_free ⟨agrees.1, clear⟩ (Nat.mul_le_mul_right ptrsPerTable within),
        Pmm.satAdd_zero]
      exact agrees.2.mp clear
    · unfold Pmm.satAdd at none
      omega

theorem agrees_clone {parentPd : Word} (used : InUse m (pfn parentPd))
    (few : m.refsBelow (pfn parentPd) (m.cloneStop parentPd * ptrsPerTable) f < Pmm.refcntLimit)
    (agrees : m.pmm.Agrees f) : (m.pagingCloneAddressSpace parentPd).1.pmm.Agrees f := by
  rcases result : m.pagingCloneAddressSpace parentPd with ⟨n, outcome⟩
  rcases clone_cases used result with ⟨-, rfl, -⟩ | ⟨-, -, -, rolled, fixed⟩ |
    ⟨child, new, reached, -, cloned, rfl⟩
  · exact agrees
  · have managed := managed_eq fixed
    have free : n.pmm.pmmBitmap f = false ↔ m.pmm.pmmBitmap f = false := by
      have same := rolled.free f
      rwa [Pmm.Free, Pmm.Free, managed, and_iff_right agrees.1, and_iff_right agrees.1] at same
    rw [Pmm.Agrees, managed, free]
    refine ⟨agrees.1, fun clear => ?_, fun none => ?_⟩
    · have none := agrees.2.mp clear
      exact (rolled.uncounted f ⟨agrees.1, clear⟩).elim (·.trans none) id
    · -- Each reference was counted up to the limit, and then all of them were given up.
      by_contra set
      have counted : m.pmm.pageRefcnt f ≠ 0 := fun zero => set (agrees.2.mpr zero)
      rw [rolled.refcnt f fun free => set free.2, if_pos agrees.1] at none
      unfold Pmm.satAdd at none
      omega
  · have same : (cloneKernelHalf (pfn parentPd) child reached).pmm = reached.pmm := by
      unfold cloneKernelHalf
      exact forRange_frame Mm.pmm (fun _ _ _ => pmm_setEntry ..) reached
    rw [same]
    exact cloned.agrees used (Nat.le_refl _) agrees

end Mm

inductive PageOp
  | allocPage
  | allocDmaPage
  | freePage (phys : Word)
  | clone (parentPd : Word)
  | cowFault (cr2 errorCode : Word)
  | destroy (pd : Word)
  /-- Anything else that changes memory or the directory in use, and no page of the allocator. -/
  | write (mem : Nat → Nat → Word) (cr3 : Word)

def Mm.pageStep : PageOp → Mm → Mm
  | .allocPage, m => m.allocPage.1
  | .allocDmaPage, m => { m with pmm := m.pmm.pmmAllocDmaPage.1 }
  | .freePage phys, m => m.freePage phys
  | .clone parentPd, m => (m.pagingCloneAddressSpace parentPd).1
  | .cowFault cr2 errorCode, m => (m.pagingHandleCowFault cr2 errorCode).1
  | .destroy pd, m => m.pagingDestroyAddressSpace pd
  | .write mem cr3, m => { m with mem, cr3 }

/--
A directory is cloned only while the frames it uses are not free.

If the clone stops, no frame may be among the pages cloned so far as often as the limit.
-/
def Mm.pageMay : PageOp → Mm → Prop
  | .clone parentPd, m => m.InUse (pfn parentPd) ∧ ∀ f,
      m.refsBelow (pfn parentPd) (m.cloneStop parentPd * ptrsPerTable) f < Pmm.refcntLimit
  | _, _ => True

theorem Mm.agrees_pageStep {m : Mm} (op : PageOp) (may : m.pageMay op) (agrees : m.pmm.Agrees f) :
    (m.pageStep op).pmm.Agrees f := by
  cases op with
  | allocPage => exact agrees.pmmAllocPage
  | allocDmaPage => exact agrees.pmmAllocDmaPage
  | freePage phys => exact agrees.pmmFreePage phys
  | clone parentPd => exact agrees_clone may.1 (may.2 f) agrees
  | cowFault cr2 errorCode => exact agrees_cowFault agrees cr2 errorCode
  | destroy pd => exact agrees_destroy agrees pd
  | write mem cr3 => exact agrees

section Boot

variable {fuel : Nat} {mbi : MultibootInfo} {mbiPhys kernelStart kernelEnd : Word}

/-- The boot loader reports the frame as available, whether it is reserved later or not. -/
def Reported (fuel : Nat) (mbi : MultibootInfo) (f : Nat) : Prop :=
  ∃ topKb ∈ memTopKb fuel mbi, ∃ r ∈ freeReported fuel mbi (blankPmm topKb), r.Free f

theorem reported_iff (mapped : hasFlag mbi.flags multibootInfoMemMap) {entries : List MmapEntry}
    (read : mmapWalk mbi (fun p => p < mbi.mmapAddr + mbi.mmapLength) fuel mbi.mmapAddr =
      some entries) {topKb : Word} (top : memTopKb fuel mbi = some topKb) :
    Reported fuel mbi f ↔ (∃ entry ∈ entries, entry.Frees f) ∧ f < pfn (limitOfKb topKb) := by
  have blank : ¬(blankPmm topKb).Free f := fun clear => absurd clear.2 (by simp [blankPmm])
  simp only [Reported, top, freeReported, mapped, read, if_true, Option.map_some, Option.mem_some_iff,
    exists_eq_left', (free_foldl_freeEntry entries (blankPmm topKb)).2, or_iff_left blank]
  rfl

theorem pmmInit_agrees (done : pmmInit fuel mbi mbiPhys kernelStart kernelEnd = some p)
    (f : Nat) :
    Reported fuel mbi f ∧ p.Agrees f ∨ ¬Reported fuel mbi f ∧
      (f < p.managedPages → p.pmmBitmap f = true ∧ p.pageRefcnt f = 0) := by
  obtain ⟨topKb, top, rest⟩ := Option.bind_eq_some_iff.mp done
  obtain ⟨r, reported, finished⟩ := Option.bind_eq_some_iff.mp rest
  cases finished
  have same : Reported fuel mbi f ↔ r.Free f := by
    simp [Reported, top, reported]
  have uncounted : r.pageRefcnt f = 0 := by
    refine freeReported_invariant (fun p => p.pageRefcnt f = 0) (fun p idx ih => ?_) reported rfl
    rw [Pmm.pageRefcnt_markPageFree, ih, ite_self]
  rw [same]
  by_cases free : r.Free f
  · exact .inl ⟨free, reserveBoot_invariant (fun p => p.Agrees f)
      (fun p idx ih => ih.markPageUsed idx) ⟨free.1, fun _ => uncounted, fun _ => free.2⟩⟩
  · -- The bit was never cleared, so reserving the frame does not count it.
    refine .inr ⟨free, fun managed => ?_⟩
    have limit : (reserveBoot mbi mbiPhys kernelStart kernelEnd r).managedPages = r.managedPages :=
      reserveBoot_invariant (fun p => p.managedPages = r.managedPages)
        (fun p idx ih => (Pmm.managedPages_markPageUsed idx).trans ih) rfl
    have set : r.pmmBitmap f = true :=
      Bool.eq_true_of_not_eq_false fun clear => free ⟨limit ▸ managed, clear⟩
    refine reserveBoot_invariant (fun p => p.pmmBitmap f = true ∧ p.pageRefcnt f = 0)
      (fun p idx ih => ?_) ⟨set, uncounted⟩
    rw [Pmm.pmmBitmap_markPageUsed, Pmm.pageRefcnt_markPageUsed, ih.1, ite_self, if_neg]
    · exact ⟨rfl, ih.2⟩
    · rintro ⟨rfl, -, clear⟩
      rw [ih.1] at clear
      cases clear

/--
The bitmap and the counts agree on every frame that the boot loader reports, in every run.

Of the frames it does not report, start-up leaves each one set and not counted.
-/
theorem bitmap_agrees_with_counts
    (done : pmmInit fuel mbi mbiPhys kernelStart kernelEnd = some p) :
    (∀ f < p.managedPages,
      (p.pmmBitmap f = true ↔ 1 ≤ p.pageRefcnt f) ↔ Reported fuel mbi f) ∧
    ∀ first m : Mm, first.pmm = p → Run Mm.pageStep Mm.pageMay first m →
      ∀ f, Reported fuel mbi f → (m.pmm.pmmBitmap f = true ↔ 1 ≤ m.pmm.pageRefcnt f) := by
  have read : ∀ q : Pmm, ∀ f, q.Agrees f → (q.pmmBitmap f = true ↔ 1 ≤ q.pageRefcnt f) := by
    intro q f agrees
    rw [Nat.one_le_iff_ne_zero, ne_eq, ← agrees.2, Bool.not_eq_false]
  constructor
  · intro f managed
    rcases pmmInit_agrees done f with ⟨reported, agrees⟩ | ⟨unreported, left⟩
    · exact iff_of_true (read p f agrees) reported
    · obtain ⟨set, uncounted⟩ := left managed
      refine iff_of_false (fun same => ?_) unreported
      have counted := same.mp set
      omega
  · intro first m booted run f reported
    have initially : first.pmm.Agrees f := by
      rw [booted]
      rcases pmmInit_agrees done f with ⟨-, agrees⟩ | ⟨unreported, -⟩
      · exact agrees
      · exact (unreported reported).elim
    exact read m.pmm f (run.invariant (fun m => m.pmm.Agrees f) initially
      fun op m may agrees => m.agrees_pageStep op may agrees)

theorem memTopKb_plainMap : memTopKb 2 plainMap = some 0x1000 := by
  decide

theorem reported_plainMap (f : Nat) : Reported 2 plainMap f ↔ 256 ≤ f ∧ f < 1024 := by
  have first : pfn ((plainMap.entryAt plainMap.mmapAddr).addrLow + pageOffsetMask) = 256 := by decide
  have last : pfn (mmapEntryEnd32 (plainMap.entryAt plainMap.mmapAddr)) = 1024 := by decide
  have limit : pfn (limitOfKb 0x1000) = 1024 := by decide
  have usable : (plainMap.entryAt plainMap.mmapAddr).Usable := ⟨rfl, rfl, by decide⟩
  simp only [reported_iff rfl mmapWalk_plainMap memTopKb_plainMap, List.mem_singleton, exists_eq_left, MmapEntry.Frees, usable,
    Spans, first, last, limit, true_and]
  omega

/-- After start-up an empty directory is cloned, and a reported frame is as it is counted. -/
theorem bitmap_agrees_with_counts_cloned :
    ∃ p, pmmInit 2 plainMap 0x9000 0x100000 0x110000 = some p ∧ ∀ m : Mm, m.pmm = p →
      let n := (m.pageStep (.write (fun _ _ => 0) 0)).pageStep (.clone (pageAddr 5))
      n.pmm.pmmBitmap 512 = true ↔ 1 ≤ n.pmm.pageRefcnt 512 := by
  obtain ⟨p, result⟩ := pmmInit_plainMap
  refine ⟨p, result, fun m booted => ?_⟩
  have frame : pfn (pageAddr 5) = 5 := pfn_pageAddr (by decide)
  have kept : ¬p.Free 5 := by
    rcases pmmInit_agrees result 5 with ⟨reported, -⟩ | ⟨-, left⟩
    · exact absurd ((reported_plainMap 5).mp reported) (by decide)
    · exact fun free => Bool.false_ne_true (free.2.symm.trans (left free.1).1)
  have may : (m.pageStep (.write (fun _ _ => 0) 0)).pageMay (.clone (pageAddr 5)) := by
    generalize written : m.pageStep (.write (fun _ _ => 0) 0) = first
    have zero : ∀ f k, first.mem f k = 0 := fun f k => written ▸ rfl
    have unmapped : ∀ vpn, ¬Present (first.pteOf 5 vpn) := fun vpn => by
      rw [Mm.pteOf_none (Mm.tableOf_zero (zero 5 _))]
      exact not_present_zero
    rw [Mm.pageMay, frame]
    refine ⟨⟨?_, fun pdi _ table here => ?_, fun vpn _ present => (unmapped vpn present).elim⟩,
      fun f => ?_⟩
    · rw [← written]
      exact booted ▸ kept
    · cases (Mm.tableOf_zero (zero 5 pdi)).symm.trans here
    · have none : ∀ bound, first.refsBelow 5 bound f = 0 := fun bound =>
        Nat.count_iff_forall_not.mpr fun vpn _ maps => unmapped vpn maps.1
      rw [none]
      decide
  exact (bitmap_agrees_with_counts result).2 m _ booted (.step (.step .start _ trivial) _ may) 512
    ((reported_plainMap 512).mpr (by decide))

/--
The frame of the video memory is reserved, but nothing is counted for it.

A reference to it that is taken and given up was the last one, so the frame would be freed.
-/
theorem reserved_frame_uncounted :
    ∃ p, pmmInit 2 plainMap 0x9000 0x100000 0x110000 = some p ∧ 0xB8 < p.managedPages ∧
      p.pmmBitmap 0xB8 = true ∧ p.pageRefcnt 0xB8 = 0 ∧
      ((p.pageRefInc (pageAddr 0xB8)).pageRefDec (pageAddr 0xB8)).2 = 0 := by
  obtain ⟨p, result⟩ := pmmInit_plainMap
  have frame : pfn (pageAddr 0xB8) = 0xB8 := pfn_pageAddr (by decide)
  obtain ⟨⟨topKb, top, limit⟩, -⟩ := free_pmmInit rfl result mmapWalk_plainMap
  have managed : 0xB8 < p.managedPages := by
    rw [limit, Option.some.inj (top.symm.trans memTopKb_plainMap)]
    decide
  rcases pmmInit_agrees result 0xB8 with ⟨reported, -⟩ | ⟨-, left⟩
  · exact absurd ((reported_plainMap 0xB8).mp reported) (by decide)
  obtain ⟨set, uncounted⟩ := left managed
  refine ⟨p, result, managed, set, uncounted, ?_⟩
  have counted : (p.pageRefInc (pageAddr 0xB8)).pageRefcnt 0xB8 = 1 := by
    rw [← pageAddr_and_pageFrameMask, Pmm.pageRefcnt_pageRefInc, frame, if_pos ⟨rfl, managed⟩,
      uncounted]
    rfl
  rw [← pageAddr_and_pageFrameMask 0xB8, Pmm.pageRefDec_left _ (by
    rwa [Pmm.managedPages_pageRefInc, frame]), frame, pageAddr_and_pageFrameMask, counted]

end Boot

end CatOs.Memory
