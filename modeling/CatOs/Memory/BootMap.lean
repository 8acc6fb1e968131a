import CatOs.Memory.Allocator

/-! Which frames are free after start-up, from what the boot loader reports. -/

namespace CatOs.Memory

def MmapEntry.base (entry : MmapEntry) : Nat := entry.addrHigh.toNat * 0x100000000 + entry.addrLow.toNat

def MmapEntry.length (entry : MmapEntry) : Nat := entry.lenHigh.toNat * 0x100000000 + entry.lenLow.toNat

def MmapEntry.Inside (entry : MmapEntry) (f : Nat) : Prop :=
  entry.base ≤ f * 4096 ∧ (f + 1) * 4096 ≤ entry.base + entry.length

def Apart (f start stop : Nat) : Prop := (f + 1) * 4096 ≤ start ∨ stop ≤ f * 4096

def Spans (start stop : Word) (f : Nat) : Prop := pfn start ≤ f ∧ f < pfn stop

instance (start stop : Word) (f : Nat) : Decidable (Spans start stop f) :=
  inferInstanceAs (Decidable (_ ∧ _))

def MmapEntry.Usable (entry : MmapEntry) : Prop :=
  entry.type = multibootMemoryAvailable ∧ entry.addrHigh = 0 ∧ mmapEntryEnd32 entry > entry.addrLow

def MmapEntry.Wraps (entry : MmapEntry) : Prop := entry.Usable ∧ entry.addrLow > 0xFFFFF000

def MmapEntry.Frees (entry : MmapEntry) (f : Nat) : Prop :=
  entry.Usable ∧ Spans (entry.addrLow + pageOffsetMask) (mmapEntryEnd32 entry) f

def Kept (mbi : MultibootInfo) (mbiPhys kernelStart kernelEnd : Word) (f : Nat) : Prop :=
  Spans 0 (0x100000 + pageOffsetMask) f ∨ Spans kernelStart (kernelEnd + pageOffsetMask) f ∨
    Spans mbiPhys (mbiPhys + 4096 + pageOffsetMask) f ∨
    Spans mbi.mmapAddr (mbi.mmapAddr + mbi.mmapLength + pageOffsetMask) f

section Marking

variable {p : Pmm} {mark : Pmm → Nat → Pmm} {value : Bool}

theorem toNat_alignDown (phys : Word) : (alignDown phys).toNat = pfn phys * 4096 := by
  have mask : ~~~pageOffsetMask = pageFrameMask := by decide
  rw [alignDown, mask, toNat_and_pageFrameMask]

theorem toNat_pfn (phys : Word) : pfn phys = phys.toNat / 4096 := by
  rw [pfn, BitVec.toNat_ushiftRight, Nat.shiftRight_eq_div_pow]

theorem pmmBitmap_markPages
    (bit : ∀ p idx f, (mark p idx).pmmBitmap f =
      if f = idx ∧ idx < p.managedPages then value else p.pmmBitmap f)
    (limit : ∀ p idx, (mark p idx).managedPages = p.managedPages) (start stop : Word) (p : Pmm) :
    (markPages mark (alignDown start) (alignDown stop) p).managedPages = p.managedPages ∧
      ∀ f, (markPages mark (alignDown start) (alignDown stop) p).pmmBitmap f =
        if Spans start stop f ∧ f < p.managedPages then value else p.pmmBitmap f := by
  have first : pfn (alignDown start) = pfn start := by
    rw [toNat_pfn, toNat_alignDown, Nat.mul_div_cancel _ (by decide)]
  simp only [markPages, BitVec.le_def, toNat_alignDown, first]
  split
  · refine ⟨rfl, fun f => (if_neg ?_).symm⟩
    simp only [Spans]
    omega
  · -- After some turns the loop has marked as many frames from the start on.
    have turns : (((if pfn stop * 4096 > p.managedPages * 4096 then p.managedPages * 4096
        else pfn stop * 4096) - pfn start * 4096 + 4095) / 4096) =
        min (pfn stop) p.managedPages - pfn start := by
      split <;> omega
    simp only [turns]
    generalize count : min (pfn stop) p.managedPages - pfn start = n
    have marked : (forRange n (fun i p => mark p (pfn start + i)) p).managedPages = p.managedPages ∧
        ∀ f, (forRange n (fun i p => mark p (pfn start + i)) p).pmmBitmap f =
          if pfn start ≤ f ∧ f < pfn start + n ∧ f < p.managedPages then value
          else p.pmmBitmap f := by
      refine forRange_invariant (fun i (q : Pmm) => q.managedPages = p.managedPages ∧
        ∀ f, q.pmmBitmap f = if pfn start ≤ f ∧ f < pfn start + i ∧ f < p.managedPages then value
          else p.pmmBitmap f) ⟨rfl, fun f => (if_neg (by omega)).symm⟩ ?_
      rintro i q - ⟨same, bits⟩
      refine ⟨(limit q _).trans same, fun f => ?_⟩
      rw [bit, bits, same]
      grind
    refine ⟨marked.1, fun f => (marked.2 f).trans (if_congr ?_ rfl rfl)⟩
    simp only [Spans]
    omega

theorem pmmBitmap_markRangeFree (start stop : Word) (p : Pmm) :
    (markRangeFree start stop p).managedPages = p.managedPages ∧
      ∀ f, (markRangeFree start stop p).pmmBitmap f =
        if Spans (start + pageOffsetMask) stop f ∧ f < p.managedPages then false
        else p.pmmBitmap f :=
  pmmBitmap_markPages (fun _ idx _ => Pmm.pmmBitmap_markPageFree idx)
    (fun _ idx => Pmm.managedPages_markPageFree idx) _ stop p

theorem pmmBitmap_markRangeUsed (start stop : Word) (p : Pmm) :
    (markRangeUsed start stop p).managedPages = p.managedPages ∧
      ∀ f, (markRangeUsed start stop p).pmmBitmap f =
        if Spans start (stop + pageOffsetMask) f ∧ f < p.managedPages then true
        else p.pmmBitmap f :=
  pmmBitmap_markPages (fun _ idx _ => Pmm.pmmBitmap_markPageUsed idx)
    (fun _ idx => Pmm.managedPages_markPageUsed idx) start _ p

theorem free_freeEntry (p : Pmm) (entry : MmapEntry) :
    (freeEntry p entry).managedPages = p.managedPages ∧
      ∀ f, (freeEntry p entry).Free f ↔ (entry.Frees f ∧ f < p.managedPages) ∨ p.Free f := by
  unfold freeEntry
  by_cases high : entry.addrHigh = 0
  · simp only [high, ne_eq, not_true_eq_false, if_false]
    split
    · rename_i usable
      obtain ⟨same, bits⟩ := pmmBitmap_markRangeFree entry.addrLow (mmapEntryEnd32 entry) p
      refine ⟨same, fun f => ?_⟩
      simp only [Pmm.Free, same, bits, MmapEntry.Frees, MmapEntry.Usable]
      grind
    · rename_i other
      refine ⟨rfl, fun f => ⟨.inr, fun either => either.resolve_left fun frees => other ?_⟩⟩
      exact ⟨frees.1.1.1, frees.1.1.2.2⟩
  · -- Memory past the addresses ends before it starts.
    have past : mmapEntryEnd32 entry = 0 := if_pos high
    have nothing : ¬((0 : Word) > 0xFFFFFFFF) := by decide
    simp only [high, ne_eq, not_false_eq_true, if_true, past, nothing, and_false, if_false]
    refine ⟨trivial, fun f => ⟨.inr, fun either => either.resolve_left fun frees => ?_⟩⟩
    exact high frees.1.1.2.1

theorem free_foldl_freeEntry (entries : List MmapEntry) (p : Pmm) :
    (entries.foldl freeEntry p).managedPages = p.managedPages ∧
      ∀ f, (entries.foldl freeEntry p).Free f ↔
        ((∃ entry ∈ entries, entry.Frees f) ∧ f < p.managedPages) ∨ p.Free f := by
  induction entries generalizing p with
  | nil => exact ⟨rfl, fun f => ⟨.inr, fun either => either.resolve_left fun both => by simp at both⟩⟩
  | cons entry rest ih =>
    obtain ⟨same, free⟩ := free_freeEntry p entry
    obtain ⟨later, rest⟩ := ih (freeEntry p entry)
    refine ⟨later.trans same, fun f => ?_⟩
    rw [List.foldl_cons, rest, free, same, List.exists_mem_cons_iff, or_and_right, or_assoc, or_left_comm]

theorem free_markRangeUsed {start stop : Word} {f : Nat} :
    (markRangeUsed start stop p).Free f ↔ p.Free f ∧ ¬Spans start (stop + pageOffsetMask) f := by
  obtain ⟨same, bits⟩ := pmmBitmap_markRangeUsed start stop p
  simp only [Pmm.Free, same, bits]
  grind

end Marking

variable {fuel : Nat} {mbi : MultibootInfo} {mbiPhys kernelStart kernelEnd : Word} {p : Pmm}

theorem free_pmmInit (mapped : hasFlag mbi.flags multibootInfoMemMap)
    (done : pmmInit fuel mbi mbiPhys kernelStart kernelEnd = some p) {entries : List MmapEntry}
    (read : mmapWalk mbi (fun p => p < mbi.mmapAddr + mbi.mmapLength) fuel mbi.mmapAddr =
      some entries) :
    (∃ topKb, memTopKb fuel mbi = some topKb ∧ p.managedPages = pfn (limitOfKb topKb)) ∧
      ∀ f, p.Free f ↔ f < p.managedPages ∧ (∃ entry ∈ entries, entry.Frees f) ∧
        ¬Kept mbi mbiPhys kernelStart kernelEnd f := by
  obtain ⟨topKb, top, rest⟩ := Option.bind_eq_some_iff.mp done
  obtain ⟨r, reported, finished⟩ := Option.bind_eq_some_iff.mp rest
  cases finished
  simp only [freeReported, mapped, if_true, read, Option.map_some, Option.some.injEq] at reported
  subst reported
  obtain ⟨same, free⟩ := free_foldl_freeEntry entries (blankPmm topKb)
  have limit : ∀ start stop q, (markRangeUsed start stop q).managedPages = q.managedPages :=
    fun start stop q => (pmmBitmap_markRangeUsed start stop q).1
  have blank : ∀ f, ¬(blankPmm topKb).Free f := fun f clear => absurd clear.2 (by simp [blankPmm])
  unfold reserveBoot
  simp only [if_pos mapped]
  rw [limit, limit, limit, limit, same]
  refine ⟨⟨topKb, top, rfl⟩, fun f => ?_⟩
  rw [free_markRangeUsed, free_markRangeUsed, free_markRangeUsed,
    free_markRangeUsed, free, or_iff_left (blank f), Kept, not_or, not_or, not_or]
  constructor
  · rintro ⟨⟨⟨⟨⟨frees, managed⟩, low⟩, kernel⟩, info⟩, table⟩
    exact ⟨managed, frees, low, kernel, info, table⟩
  · rintro ⟨managed, frees, low, kernel, info, table⟩
    exact ⟨⟨⟨⟨⟨frees, managed⟩, low⟩, kernel⟩, info⟩, table⟩

def BootSound (mbi : MultibootInfo) (mbiPhys kernelStart kernelEnd : Word)
    (entries : List MmapEntry) (p : Pmm) : Prop :=
  ∀ f, p.Free f →
    (∃ entry ∈ entries, entry.type = multibootMemoryAvailable ∧ entry.Inside f) ∧
      f < p.managedPages ∧ Apart f 0 0x100000 ∧ Apart f kernelStart.toNat kernelEnd.toNat ∧
      Apart f (pfn mbiPhys * 4096) (pfn mbiPhys * 4096 + 4096) ∧
      Apart f mbi.mmapAddr.toNat (mbi.mmapAddr.toNat + mbi.mmapLength.toNat)

theorem MmapEntry.Frees.inside {entry : MmapEntry} {f : Nat} (frees : entry.Frees f)
    (early : ¬entry.Wraps) : entry.Inside f := by
  obtain ⟨usable, first, last⟩ := frees
  obtain ⟨available, high, later⟩ := usable
  have early : entry.addrLow.toNat ≤ 0xFFFFF000 := by
    have late : ¬entry.addrLow > 0xFFFFF000 := fun late => early ⟨⟨available, high, later⟩, late⟩
    exact BitVec.not_lt.mp late
  have zero : entry.addrHigh.toNat = 0 := by rw [high]; rfl
  have stop : (mmapEntryEnd32 entry).toNat ≤ entry.base + entry.length := by
    simp only [mmapEntryEnd32, high, ne_eq, not_true_eq_false, if_false, MmapEntry.base,
      MmapEntry.length]
    have low := entry.addrLow.isLt
    split
    · rename_i full
      rcases full with long | wraps
      · have some_ : 0 < entry.lenHigh.toNat := by
          rcases Nat.eq_zero_or_pos entry.lenHigh.toNat with none | some_
          · exact absurd (BitVec.eq_of_toNat_eq none) long
          · exact some_
        show 4294967295 ≤ _
        omega
      · rw [BitVec.lt_def, BitVec.toNat_add] at wraps
        show 4294967295 ≤ _
        omega
    · rw [BitVec.toNat_add]
      omega
  rw [toNat_pfn, BitVec.toNat_add] at first
  rw [toNat_pfn] at last
  have mask : pageOffsetMask.toNat = 4095 := rfl
  simp only [MmapEntry.Inside, MmapEntry.base, zero] at stop ⊢
  omega

theorem apart_of_not_spans {start stop : Word} {f : Nat} (early : stop.toNat ≤ 0xFFFFF000)
    (outside : ¬Spans start (stop + pageOffsetMask) f) : Apart f start.toNat stop.toNat := by
  have mask : pageOffsetMask.toNat = 4095 := rfl
  simp only [Spans, toNat_pfn, BitVec.toNat_add, mask] at outside
  simp only [Apart]
  omega

/--
Start-up frees only usable memory, exactly if late entries and a late map do no harm.

An entry whose memory starts in the last page of addresses frees every managed frame, so all of
those must be available; and a map that reaches into that page is not kept from being free.
-/
theorem boot_map_sound_iff (mapped : hasFlag mbi.flags multibootInfoMemMap)
    (image : kernelEnd.toNat ≤ 0x40000000)
    (done : pmmInit fuel mbi mbiPhys kernelStart kernelEnd = some p) {entries : List MmapEntry}
    (read : mmapWalk mbi (fun p => p < mbi.mmapAddr + mbi.mmapLength) fuel mbi.mmapAddr =
      some entries) :
    BootSound mbi mbiPhys kernelStart kernelEnd entries p ↔
      ∀ f < p.managedPages, ¬Kept mbi mbiPhys kernelStart kernelEnd f →
        ((∃ entry ∈ entries, entry.Wraps ∧ entry.Frees f) →
          ∃ entry ∈ entries, entry.type = multibootMemoryAvailable ∧ entry.Inside f) ∧
        (mbi.mmapAddr.toNat + mbi.mmapLength.toNat > 0xFFFFF000 →
          (∃ entry ∈ entries, entry.Frees f) →
          Apart f mbi.mmapAddr.toNat (mbi.mmapAddr.toNat + mbi.mmapLength.toNat)) := by
  have free := (free_pmmInit mapped done read).2
  constructor
  · intro sound f managed kept
    refine ⟨fun wrapped => ?_, fun _ frees => ?_⟩
    · obtain ⟨entry, member, -, frees⟩ := wrapped
      exact (sound f ((free f).mpr ⟨managed, ⟨entry, member, frees⟩, kept⟩)).1
    · exact (sound f ((free f).mpr ⟨managed, frees, kept⟩)).2.2.2.2.2
  · intro harmless f is_free
    obtain ⟨managed, ⟨entry, member, frees⟩, kept⟩ := (free f).mp is_free
    obtain ⟨late, map⟩ := harmless f managed kept
    simp only [Kept, not_or] at kept
    obtain ⟨low, kernel, info, table⟩ := kept
    have bound := p.managed_le
    simp only [maxManagedPages] at bound
    refine ⟨?_, managed, apart_of_not_spans (by decide) low, apart_of_not_spans (by omega) kernel, ?_, ?_⟩
    · by_cases wraps : entry.Wraps
      · exact late ⟨entry, member, wraps, frees⟩
      · exact ⟨entry, member, frees.1.1, frees.inside wraps⟩
    · -- The page of the information lies below its reserved span, or past all managed memory.
      have mask : pageOffsetMask.toNat = 4095 := rfl
      simp only [Spans, toNat_pfn, BitVec.toNat_add, mask] at info
      simp only [Apart, toNat_pfn]
      have size : (4096 : Word).toNat = 4096 := rfl
      omega
    · by_cases long : mbi.mmapAddr.toNat + mbi.mmapLength.toNat > 0xFFFFF000
      · exact map long ⟨entry, member, frees⟩
      · have whole : (mbi.mmapAddr + mbi.mmapLength).toNat =
            mbi.mmapAddr.toNat + mbi.mmapLength.toNat := by
          rw [BitVec.toNat_add]
          omega
        have apart := apart_of_not_spans (by omega) table
        rwa [whole] at apart

def lateMap : MultibootInfo :=
  { plainMap with
    entryAt := fun _ =>
      { size := 20, addrLow := 0xFFFFF001, addrHigh := 0, lenLow := 16, lenHigh := 0, type := 1 } }

/-- From that map every managed frame that is not kept becomes free, though none is available. -/
theorem late_map_frees_everything :
    ∃ p, pmmInit 2 lateMap 0x9000 0x100000 0x110000 = some p ∧ p.managedPages = maxManagedPages ∧
      p.Free 0x8000 ∧ ¬(lateMap.entryAt lateMap.mmapAddr).Inside 0x8000 ∧
      mmapWalk lateMap (fun p => p < lateMap.mmapAddr + lateMap.mmapLength) 2 lateMap.mmapAddr =
        some [lateMap.entryAt lateMap.mmapAddr] := by
  have done : (pmmInit 2 lateMap 0x9000 0x100000 0x110000).isSome := by decide
  obtain ⟨p, result⟩ := Option.isSome_iff_exists.mp done
  have read : mmapWalk lateMap (fun p => p < lateMap.mmapAddr + lateMap.mmapLength) 2
      lateMap.mmapAddr = some [lateMap.entryAt lateMap.mmapAddr] := by decide
  obtain ⟨⟨topKb, top, size⟩, free⟩ := free_pmmInit rfl result read
  have found : memTopKb 2 lateMap = some 0x3FFFFD := by decide
  have managed : p.managedPages = maxManagedPages := by
    rw [size, Option.some.inj (top.symm.trans found)]
    decide
  refine ⟨p, result, managed, (free _).mpr ⟨?_, ?_, ?_⟩, ?_, read⟩
  · rw [managed]
    decide
  · exact ⟨_, List.mem_singleton_self _, ⟨rfl, rfl, by decide⟩, by decide, by decide⟩
  · simp only [Kept]
    decide
  · intro inside
    exact absurd inside.1 (by decide)

theorem mmapWalk_plainMap :
    mmapWalk plainMap (fun p => p < plainMap.mmapAddr + plainMap.mmapLength) 2 plainMap.mmapAddr =
      some [plainMap.entryAt plainMap.mmapAddr] := by
  decide

/-- From the map that reports three megabytes only those are free. -/
theorem boot_map_sound_iff_plain : ∃ p, pmmInit 2 plainMap 0x9000 0x100000 0x110000 = some p ∧
    BootSound plainMap 0x9000 0x100000 0x110000 [plainMap.entryAt plainMap.mmapAddr] p := by
  obtain ⟨p, result⟩ := pmmInit_plainMap
  have early : ∀ entry ∈ [plainMap.entryAt plainMap.mmapAddr], ¬entry.Wraps := by
    intro entry member
    rw [List.mem_singleton.mp member]
    exact fun wraps => absurd wraps.2 (by decide)
  refine ⟨p, result, (boot_map_sound_iff rfl (by decide) result mmapWalk_plainMap).mpr ?_⟩
  intro f _ _
  refine ⟨fun wrapped => ?_, fun long => absurd long (by decide)⟩
  obtain ⟨entry, member, wraps, -⟩ := wrapped
  exact absurd wraps (early entry member)

end CatOs.Memory
