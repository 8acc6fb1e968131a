import CatOs.Lib.Count
import CatOs.Memory.Paging

/-! What the operations of the page allocator do to the bitmap and to the counts. -/

namespace CatOs.Memory

open Function

section Address

theorem and_pageFrameMask (phys : Word) : phys &&& pageFrameMask = (phys >>> 12) <<< 12 := by
  have mask : pageFrameMask = (BitVec.allOnes 32 >>> 12) <<< 12 := by decide
  rw [mask, and_highOnes]

theorem toNat_and_pageFrameMask (phys : Word) : (phys &&& pageFrameMask).toNat = pfn phys * 4096 := by
  rw [and_pageFrameMask, toNat_clearLow, pfn, BitVec.toNat_ushiftRight, Nat.shiftRight_eq_div_pow]
  rfl

@[simp] theorem pfn_and_pageFrameMask (phys : Word) : pfn (phys &&& pageFrameMask) = pfn phys := by
  rw [pfn, BitVec.toNat_ushiftRight, toNat_and_pageFrameMask, Nat.shiftRight_eq_div_pow]
  omega

@[simp] theorem and_pageFrameMask_aligned (phys : Word) :
    phys &&& pageFrameMask &&& pageOffsetMask = 0 := by
  have disjoint : pageFrameMask &&& pageOffsetMask = 0 := by decide
  rw [BitVec.and_assoc, disjoint]
  exact BitVec.and_zero

theorem toNat_pageAddr {frame : Nat} (small : frame < 1048576) :
    (pageAddr frame).toNat = frame * 4096 := by
  rw [pageAddr, BitVec.toNat_shiftLeft, BitVec.toNat_ofNat, Nat.shiftLeft_eq]
  omega

theorem pfn_pageAddr {frame : Nat} (small : frame < 1048576) : pfn (pageAddr frame) = frame := by
  rw [pfn, BitVec.toNat_ushiftRight, toNat_pageAddr small, Nat.shiftRight_eq_div_pow]
  omega

@[simp] theorem pageAddr_and_pageFrameMask (frame : Nat) :
    pageAddr frame &&& pageFrameMask = pageAddr frame := by
  apply BitVec.eq_of_getLsbD_eq
  intro i within
  have mask : pageFrameMask = (BitVec.allOnes 32) <<< 12 := by decide
  rw [mask, pageAddr]
  simp only [BitVec.getLsbD_and, BitVec.getLsbD_shiftLeft, BitVec.getLsbD_allOnes, within]
  by_cases low : i < 12
  · simp [low]
  · have inside : i - 12 < 32 := by omega
    simp [low, inside]

@[simp] theorem pageAddr_aligned (frame : Nat) : pageAddr frame &&& pageOffsetMask = 0 := by
  rw [← pageAddr_and_pageFrameMask, and_pageFrameMask_aligned]

theorem pfn_or {flags : Word} (low : flags >>> 12 = 0) (phys : Word) :
    pfn (phys ||| flags) = pfn phys := by
  rw [pfn, BitVec.ushiftRight_or_distrib, low]
  exact congrArg BitVec.toNat BitVec.or_zero

end Address

namespace Pmm

variable {p : Pmm} {f g : Nat}

theorem managed_lt (p : Pmm) {f : Nat} (managed : f < p.managedPages) : f < 1048576 :=
  Nat.lt_of_lt_of_le managed (Nat.le_trans p.managed_le (by decide))

def bump (count : Nat) : Nat :=
  if count ≥ refcntLimit then count else count + 1

def satAdd (count more : Nat) : Nat :=
  max count (min refcntLimit (count + more))

@[simp] theorem satAdd_zero (count : Nat) : satAdd count 0 = count := by
  unfold satAdd
  omega

theorem satAdd_succ (count more : Nat) : satAdd count (more + 1) = bump (satAdd count more) := by
  unfold satAdd bump refcntLimit
  split <;> omega

theorem satAdd_add (count first second : Nat) :
    satAdd count (first + second) = satAdd (satAdd count first) second := by
  unfold satAdd refcntLimit
  omega

theorem pageRefcnt_pageRefInc (pte : Word) :
    (p.pageRefInc (pte &&& pageFrameMask)).pageRefcnt f =
      if f = pfn pte ∧ f < p.managedPages then bump (p.pageRefcnt f) else p.pageRefcnt f := by
  simp only [pageRefInc, and_pageFrameMask_aligned, pfn_and_pageFrameMask, ne_eq,
    not_true_eq_false, false_or]
  by_cases reached : f = pfn pte ∧ f < p.managedPages
  · rw [if_pos reached, bump]
    obtain ⟨rfl, within⟩ := reached
    rw [if_neg (Nat.not_le.mpr within)]
    by_cases full : p.pageRefcnt (pfn pte) ≥ refcntLimit
    · rw [if_pos full, if_pos full]
    · rw [if_neg full, if_neg full]
      exact update_self ..
  · rw [if_neg reached]
    split
    · rfl
    rename_i managed
    have apart : f ≠ pfn pte := fun here => reached ⟨here, by omega⟩
    split
    · rfl
    · exact update_of_ne apart ..

@[simp] theorem pmmBitmap_pageRefInc (phys : Word) : (p.pageRefInc phys).pmmBitmap = p.pmmBitmap := by
  unfold pageRefInc
  split
  · rfl
  split <;> rfl

@[simp] theorem managedPages_pageRefInc (phys : Word) :
    (p.pageRefInc phys).managedPages = p.managedPages := by
  unfold pageRefInc
  split
  · rfl
  split <;> rfl

theorem pageRefcnt_pageRefDec (pte : Word) :
    (p.pageRefDec (pte &&& pageFrameMask)).1.pageRefcnt f =
      if f = pfn pte ∧ f < p.managedPages then p.pageRefcnt f - 1 else p.pageRefcnt f := by
  simp only [pageRefDec, and_pageFrameMask_aligned, pfn_and_pageFrameMask, ne_eq,
    not_true_eq_false, false_or]
  by_cases reached : f = pfn pte ∧ f < p.managedPages
  · rw [if_pos reached]
    obtain ⟨rfl, within⟩ := reached
    rw [if_neg (Nat.not_le.mpr within)]
    by_cases none : p.pageRefcnt (pfn pte) = 0
    · rw [if_pos none, none]
    · rw [if_neg none]
      exact update_self ..
  · rw [if_neg reached]
    split
    · rfl
    rename_i managed
    have apart : f ≠ pfn pte := fun here => reached ⟨here, by omega⟩
    split
    · rfl
    · exact update_of_ne apart ..

@[simp] theorem pmmBitmap_pageRefDec (phys : Word) :
    (p.pageRefDec phys).1.pmmBitmap = p.pmmBitmap := by
  unfold pageRefDec
  split
  · rfl
  split <;> rfl

@[simp] theorem managedPages_pageRefDec (phys : Word) :
    (p.pageRefDec phys).1.managedPages = p.managedPages := by
  unfold pageRefDec
  split
  · rfl
  split <;> rfl

@[simp] theorem managedPages_markPageFree (idx : Nat) :
    (p.markPageFree idx).managedPages = p.managedPages := by
  unfold markPageFree
  split
  · rfl
  split <;> rfl

@[simp] theorem managedPages_markPageUsed (idx : Nat) :
    (p.markPageUsed idx).managedPages = p.managedPages := by
  unfold markPageUsed
  split
  · rfl
  split <;> rfl

theorem pmmBitmap_markPageFree (idx : Nat) :
    (p.markPageFree idx).pmmBitmap f =
      if f = idx ∧ idx < p.managedPages then false else p.pmmBitmap f := by
  unfold markPageFree
  by_cases reached : f = idx ∧ idx < p.managedPages
  · rw [if_pos reached]
    obtain ⟨rfl, within⟩ := reached
    rw [if_neg (Nat.not_le.mpr within)]
    split
    · exact update_self ..
    · rename_i clear
      exact Bool.eq_false_iff.mpr clear
  · rw [if_neg reached]
    split
    · rfl
    rename_i managed
    have apart : f ≠ idx := fun here => reached ⟨here, by omega⟩
    split
    · exact update_of_ne apart ..
    · rfl

theorem pageRefcnt_markPageFree (idx : Nat) :
    (p.markPageFree idx).pageRefcnt f =
      if f = idx ∧ idx < p.managedPages ∧ p.pmmBitmap idx = true then 0 else p.pageRefcnt f := by
  unfold markPageFree
  by_cases reached : f = idx ∧ idx < p.managedPages ∧ p.pmmBitmap idx = true
  · rw [if_pos reached]
    obtain ⟨rfl, within, taken⟩ := reached
    rw [if_neg (Nat.not_le.mpr within), if_pos taken]
    exact update_self ..
  · rw [if_neg reached]
    split
    · rfl
    rename_i managed
    split
    · rename_i taken
      have apart : f ≠ idx := fun here => reached ⟨here, by omega, taken⟩
      exact update_of_ne apart ..
    · rfl

theorem pmmBitmap_markPageUsed (idx : Nat) :
    (p.markPageUsed idx).pmmBitmap f =
      if f = idx ∧ idx < p.managedPages then true else p.pmmBitmap f := by
  unfold markPageUsed
  by_cases reached : f = idx ∧ idx < p.managedPages
  · rw [if_pos reached]
    obtain ⟨rfl, within⟩ := reached
    rw [if_neg (Nat.not_le.mpr within)]
    split
    · assumption
    · exact update_self ..
  · rw [if_neg reached]
    split
    · rfl
    rename_i managed
    have apart : f ≠ idx := fun here => reached ⟨here, by omega⟩
    split
    · rfl
    · exact update_of_ne apart ..

theorem pageRefcnt_markPageUsed (idx : Nat) :
    (p.markPageUsed idx).pageRefcnt f =
      if f = idx ∧ p.Free idx then 1 else p.pageRefcnt f := by
  unfold markPageUsed
  by_cases reached : f = idx ∧ p.Free idx
  · rw [if_pos reached]
    obtain ⟨rfl, within, clear⟩ := reached
    rw [if_neg (Nat.not_le.mpr within), if_neg (Bool.eq_false_iff.mp clear)]
    exact update_self ..
  · rw [if_neg reached]
    split
    · rfl
    rename_i managed
    split
    · rfl
    · rename_i clear
      have apart : f ≠ idx := fun here =>
        reached ⟨here, by omega, Bool.eq_false_iff.mpr clear⟩
      exact update_of_ne apart ..

theorem pmmFreePage_masked (pte : Word) :
    p.pmmFreePage (pte &&& pageFrameMask) = p.markPageFree (pfn pte) := by
  unfold pmmFreePage
  rw [and_pageFrameMask_aligned, toNat_and_pageFrameMask, pfn_and_pageFrameMask]
  by_cases managed : pfn pte ≥ p.managedPages
  · -- Past the managed frames both do nothing.
    rw [if_pos (.inr (Nat.mul_le_mul_right 4096 managed)), markPageFree, if_pos managed]
  · rw [if_neg]
    rintro (offset | past)
    · exact offset rfl
    · omega

theorem pmmFreePage_pageAddr (small : f < 1048576) :
    p.pmmFreePage (pageAddr f) = p.markPageFree f := by
  rw [← pageAddr_and_pageFrameMask, pmmFreePage_masked, pfn_pageAddr small]

theorem pmmAllocFrom_eq_some {start stop cursor next : Nat} {q : Pmm}
    (found : p.pmmAllocFrom start stop cursor = some (f, next, q)) :
    p.Free f ∧ (start ≤ f ∧ f < stop) ∧ q = p.markPageUsed f := by
  simp only [pmmAllocFrom] at found
  generalize limited : (if stop > p.managedPages then p.managedPages else stop) = last at found
  split at found
  · cases found
  rename_i some_
  split at found
  · cases found
  rename_i n hit
  obtain ⟨rfl, -, rfl⟩ := found
  have clear := List.find?_some hit
  have within : allocSlot start last cursor n < last := by
    have inside := Nat.mod_lt
      ((if cursor < start ∨ cursor ≥ last then start else cursor) - start + n)
      (Nat.sub_pos_of_lt (Nat.lt_of_not_le some_))
    simp only [allocSlot]
    omega
  refine ⟨⟨?_, by simpa using clear⟩, ⟨Nat.le_add_right start _, ?_⟩, rfl⟩
  · split at limited <;> omega
  · split at limited <;> omega

theorem pmmAllocFrom_eq_none {start stop cursor : Nat}
    (failed : p.pmmAllocFrom start stop cursor = none) (above : start ≤ f) (below : f < stop) :
    ¬p.Free f := by
  rintro ⟨managed, clear⟩
  simp only [pmmAllocFrom] at failed
  generalize limited : (if stop > p.managedPages then p.managedPages else stop) = last at failed
  have within : f < last := by split at limited <;> omega
  rw [if_neg (by omega)] at failed
  split at failed
  · rename_i missed
    generalize begins : (if cursor < start ∨ cursor ≥ last then start else cursor) = begin
    have bounds : start ≤ begin ∧ begin < last := by split at begins <;> omega
    -- Going round from the cursor, the search meets the frame after this many steps.
    have reached : allocSlot start last cursor ((f + (last - start) - begin) % (last - start)) = f := by
      simp only [allocSlot, begins]
      by_cases past : begin ≤ f
      · have first : (f + (last - start) - begin) % (last - start) = f - begin := by
          rw [show f + (last - start) - begin = f - begin + (last - start) by omega,
            Nat.add_mod_right, Nat.mod_eq_of_lt (by omega)]
        rw [first, Nat.mod_eq_of_lt (by omega)]
        omega
      · have later : (f + (last - start) - begin) % (last - start) = f + (last - start) - begin :=
          Nat.mod_eq_of_lt (by omega)
        rw [later, show begin - start + (f + (last - start) - begin) = f - start + (last - start) by
          omega, Nat.add_mod_right, Nat.mod_eq_of_lt (by omega)]
        omega
    have looked := List.find?_eq_none.mp missed ((f + (last - start) - begin) % (last - start))
      (List.mem_range.mpr (Nat.mod_lt _ (by omega)))
    rw [reached, clear] at looked
    exact looked rfl
  · cases failed

theorem pmmAllocPage_eq_some {q : Pmm} (taken : p.pmmAllocPage = (q, some f)) :
    p.Free f ∧ kernelLoadPage ≤ f ∧ q.managedPages = p.managedPages ∧
      q.pmmBitmap = (p.markPageUsed f).pmmBitmap ∧
      q.pageRefcnt = (p.markPageUsed f).pageRefcnt := by
  unfold pmmAllocPage at taken
  split at taken
  · cases taken
  rename_i idx cursor r found
  obtain ⟨free, ⟨above, -⟩, used⟩ := pmmAllocFrom_eq_some found
  cases taken
  refine ⟨free, above, ?_, ?_, ?_⟩
  · rw [used]
    exact managedPages_markPageUsed f
  · rw [used]
  · rw [used]

theorem pmmAllocPage_eq_none {q : Pmm} (failed : p.pmmAllocPage = (q, none)) :
    q = p ∧ ∀ f, kernelLoadPage ≤ f → ¬p.Free f := by
  unfold pmmAllocPage at failed
  split at failed
  · rename_i missed
    cases failed
    exact ⟨rfl, fun f above free => pmmAllocFrom_eq_none missed above free.1 free⟩
  · cases failed

end Pmm

end CatOs.Memory
