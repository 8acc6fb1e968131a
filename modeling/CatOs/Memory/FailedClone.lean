import CatOs.Memory.Rollback

/-! When a clone that fails leaves the parent, the counts and the free frames as they were. -/

namespace CatOs.Memory

namespace Mm

section Outcome

variable {m : Mm} {parentPd : Word}

def cloneStop (m : Mm) (parentPd : Word) : Nat :=
  if parentPd = 0 ∨ parentPd &&& pageOffsetMask ≠ 0 then 0
  else
    match m.allocPage with
    | (_, none) => 0
    | (n, some child) =>
      (forRange userPdis (cloneEntry (pfn parentPd) child) (n.clearFrame child, none)).2.getD 0

def OutOfFrames (m : Mm) (parent failed : Nat) : Prop :=
  ∃ child new n, Cloned m parent child new failed n ∧ (m.tableOf parent failed).isSome ∧
    ∀ f, kernelLoadPage ≤ f → ¬n.pmm.Free f

theorem clone_cases (used : InUse m (pfn parentPd)) {n : Mm} {outcome : Option Word}
    (done : m.pagingCloneAddressSpace parentPd = (n, outcome)) :
    (outcome = none ∧ n = m ∧ m.cloneStop parentPd = 0 ∧
        (parentPd = 0 ∨ parentPd &&& pageOffsetMask ≠ 0 ∨ ∀ f, kernelLoadPage ≤ f → ¬m.pmm.Free f)) ∨
      (outcome = none ∧ m.cloneStop parentPd < userPdis ∧
        OutOfFrames m (pfn parentPd) (m.cloneStop parentPd) ∧
        RolledBack m (pfn parentPd) (m.cloneStop parentPd) n ∧ n.fixed = m.fixed) ∨
      ∃ child new reached, outcome = some (pageAddr child) ∧
        Cloned m (pfn parentPd) child new userPdis reached ∧
        n = cloneKernelHalf (pfn parentPd) child reached := by
  simp only [pagingCloneAddressSpace] at done
  simp only [cloneStop]
  by_cases invalid : parentPd = 0 ∨ parentPd &&& pageOffsetMask ≠ 0
  · rw [if_pos invalid] at done ⊢
    obtain ⟨rfl, rfl⟩ := Prod.mk.inj done
    exact .inl ⟨rfl, rfl, rfl, invalid.elim .inl fun offset => .inr (.inl offset)⟩
  rw [if_neg invalid] at done ⊢
  obtain ⟨allocated, frame, result⟩ : ∃ allocated frame, m.allocPage = (allocated, frame) :=
    ⟨_, _, rfl⟩
  simp only [result] at done ⊢
  cases frame with
  | none =>
    obtain ⟨rfl, taken⟩ := allocPage_eq_none result
    obtain ⟨rfl, rfl⟩ := Prod.mk.inj done
    exact .inl ⟨rfl, rfl, rfl, .inr (.inr taken)⟩
  | some child =>
    have progress := progress_userHalf used (allocPage_eq_some result)
    obtain ⟨⟨reached, failed⟩, looped⟩ : ∃ last, forRange userPdis
      (cloneEntry (pfn parentPd) child) (allocated.clearFrame child, none) = last := ⟨_, rfl⟩
    simp only [looped] at done progress ⊢
    cases failed with
    | none =>
      obtain ⟨new, cloned⟩ := progress
      obtain ⟨rfl, rfl⟩ := Prod.mk.inj done
      exact .inr (.inr ⟨child, new, reached, rfl, cloned, rfl⟩)
    | some pdi =>
      obtain ⟨below, some_, noneFree, new, cloned⟩ := progress
      obtain ⟨rfl, rfl⟩ := Prod.mk.inj done
      exact .inr (.inl ⟨rfl, below, ⟨child, new, reached, cloned, some_, noneFree⟩,
        cloned.rolledBack used (Nat.le_of_lt below)⟩)

end Outcome

section Unchanged

structure Unchanged (m : Mm) (parent : Nat) (n : Mm) : Prop where
  entry : ∀ pdi, n.mem parent pdi = m.mem parent pdi
  page : ∀ vpn < userPages, n.pteOf parent vpn = m.pteOf parent vpn
  refcnt : ∀ f, n.pmm.pageRefcnt f = m.pmm.pageRefcnt f
  free : ∀ f, n.pmm.Free f ↔ m.pmm.Free f

/--
The rollback can restore the entries before the one where the clone stopped.

Each page among them that is writable or marked has an entry without any further flag,
and no frame that is counted at all is counted past the limit.
-/
structure Restorable (m : Mm) (parent stop : Nat) : Prop where
  page : ∀ vpn < stop * ptrsPerTable, Present (m.pteOf parent vpn) →
    Writable (m.pteOf parent vpn) ∨ hasFlag (m.pteOf parent vpn) pageCow = true →
    m.pteOf parent vpn = plainPte (m.pteOf parent vpn)
  count : ∀ f < m.pmm.managedPages, m.pmm.pageRefcnt f = 0 ∨
    m.refsBelow parent (stop * ptrsPerTable) f = 0 ∨
    m.pmm.pageRefcnt f + m.refsBelow parent (stop * ptrsPerTable) f ≤ Pmm.refcntLimit

theorem rewritten_iff (pte : Word) :
    Rewritten pte ↔ Present pte ∧ (Writable pte ∨ hasFlag pte pageCow = true) := by
  refine and_congr_right fun present => ?_
  by_cases writable : Writable pte
  · rw [sharedPte, if_pos writable]
    exact ⟨fun _ => .inl writable, fun _ => cow_cowPte pte⟩
  · rw [sharedPte, if_neg writable]
    exact ⟨.inr, fun either => either.resolve_left writable⟩

theorem satAdd_sub_eq_iff (count more : Nat) :
    Pmm.satAdd count more - more = count ↔
      count = 0 ∨ more = 0 ∨ count + more ≤ Pmm.refcntLimit := by
  unfold Pmm.satAdd Pmm.refcntLimit
  omega

variable {m n : Mm} {parent stop : Nat}

theorem RolledBack.pteOf (rolled : RolledBack m parent stop n) (used : InUse m parent)
    {vpn : Nat} (user : vpn < userPages) :
    n.pteOf parent vpn = m.pteOf parent vpn ∧ ¬(∃ t, m.tableOf parent (vpn / ptrsPerTable) = some t ∧
        m.IsTable parent stop t) ∨
      (∃ t, m.tableOf parent (vpn / ptrsPerTable) = some t ∧ m.IsTable parent stop t) ∧
        n.pteOf parent vpn = restoredPte (m.pteOf parent vpn) := by
  have inside : vpn % ptrsPerTable < ptrsPerTable := Nat.mod_lt _ (by simp only [ptrsPerTable]; decide)
  have same : n.tableOf parent (vpn / ptrsPerTable) = m.tableOf parent (vpn / ptrsPerTable) :=
    tableOf_congr (rolled.parentEntry _)
  cases here : m.tableOf parent (vpn / ptrsPerTable) with
  | none =>
    left
    refine ⟨?_, ?_⟩
    · rw [pteOf_none here, pteOf_none (same.trans here)]
    · rintro ⟨t, some_, -⟩
      cases some_
  | some t =>
    have taken := (used.table _ (div_lt_userPdis user) t here).1
    simp only [Mm.pteOf, same, here]
    by_cases table : m.IsTable parent stop t
    · exact .inr ⟨⟨t, rfl, table⟩, rolled.restored t _ table inside⟩
    · refine .inl ⟨rolled.kept t _ taken fun is => (table is).elim, ?_⟩
      rintro ⟨t', some_, is⟩
      cases some_
      exact table is

/-- A rollback leaves everything as it was exactly if it can restore the entries. -/
theorem RolledBack.unchanged_iff (rolled : RolledBack m parent stop n) (used : InUse m parent)
    (uncounted : ∀ f, m.pmm.Free f → m.pmm.pageRefcnt f = 0) (within : stop ≤ userPdis) :
    Unchanged m parent n ↔ Restorable m parent stop := by
  have total : stop * ptrsPerTable ≤ userPages := Nat.mul_le_mul_right ptrsPerTable within
  constructor
  · intro unchanged
    refine { page := fun vpn below present marked => ?_, count := fun f managed => ?_ }
    · -- The page belongs to an entry that was undone, so its entry was rewritten.
      have user := Nat.lt_of_lt_of_le below total
      obtain ⟨t, here, -⟩ := exists_table present
      have undone : vpn / ptrsPerTable < stop := Nat.div_lt_of_lt_mul (Nat.mul_comm _ _ ▸ below)
      have kept := unchanged.page vpn user
      rcases rolled.pteOf used user with ⟨-, other⟩ | ⟨-, restored⟩
      · exact (other ⟨t, here, _, undone, here⟩).elim
      · rw [restored, restoredPte, if_pos ((rewritten_iff _).mpr ⟨present, marked⟩)] at kept
        exact kept.symm
    · by_cases free : m.pmm.Free f
      · exact .inr (.inl (used.refsBelow_free free total))
      · have kept := unchanged.refcnt f
        rw [rolled.refcnt f free, if_pos managed] at kept
        exact (satAdd_sub_eq_iff _ _).mp kept
  · intro restorable
    refine { entry := rolled.parentEntry, page := fun vpn user => ?_, refcnt := fun f => ?_,
             free := rolled.free }
    · rcases rolled.pteOf used user with ⟨kept, -⟩ | ⟨⟨t, here, pdi, below, also⟩, restored⟩
      · exact kept
      · rw [restored, restoredPte]
        split
        · rename_i rewritten
          obtain ⟨present, marked⟩ := (rewritten_iff _).mp rewritten
          -- The table may be undone through another entry, which maps the same pages.
          have inside : vpn % ptrsPerTable < ptrsPerTable :=
            Nat.mod_lt _ (by simp only [ptrsPerTable]; decide)
          have shared : m.pteOf parent (pdi * ptrsPerTable + vpn % ptrsPerTable) =
              m.pteOf parent vpn := by
            rw [pteOf_table also inside]
            simp only [Mm.pteOf, here]
          have before : pdi * ptrsPerTable + vpn % ptrsPerTable < stop * ptrsPerTable := by
            have next := Nat.mul_le_mul_right ptrsPerTable (Nat.succ_le_of_lt below)
            rw [Nat.succ_mul] at next
            omega
          have plain := restorable.page _ before
          rw [shared] at plain
          exact (plain present marked).symm
        · rfl
    · by_cases free : m.pmm.Free f
      · rcases rolled.uncounted f free with same | zero
        · exact same
        · rw [zero, uncounted f free]
      · rw [rolled.refcnt f free]
        split
        · rename_i managed
          exact (satAdd_sub_eq_iff _ _).mpr (restorable.count f managed)
        · rfl

/--
A clone that fails leaves everything as it was exactly if the rollback can restore the entries.

The parent is any address space whose directory, tables and pages are taken.
-/
theorem failed_clone_unchanged_iff {parentPd : Word} (used : m.InUse (pfn parentPd))
    (uncounted : ∀ f, m.pmm.Free f → m.pmm.pageRefcnt f = 0)
    (failed : (m.pagingCloneAddressSpace parentPd).2 = none) :
    Unchanged m (pfn parentPd) (m.pagingCloneAddressSpace parentPd).1 ↔
      Restorable m (pfn parentPd) (m.cloneStop parentPd) := by
  obtain ⟨n, outcome, result⟩ :
      ∃ n outcome, m.pagingCloneAddressSpace parentPd = (n, outcome) := ⟨_, _, rfl⟩
  rw [result] at failed ⊢
  rcases clone_cases used result with ⟨-, rfl, stop, -⟩ | ⟨-, within, -, rolled, -⟩ | ⟨_, _, _, done, -⟩
  · -- Nothing was cloned, so there is nothing to restore.
    rw [stop]
    refine ⟨fun _ => { page := ?_, count := ?_ }, fun _ => ⟨fun _ => rfl, fun _ _ => rfl,
      fun _ => rfl, fun _ => Iff.rfl⟩⟩
    · intro vpn below
      rw [Nat.zero_mul] at below
      exact absurd below (Nat.not_lt_zero vpn)
    · intro f _
      rw [Nat.zero_mul]
      exact .inr (.inl (Nat.count_zero _))
  · exact rolled.unchanged_iff used uncounted (Nat.le_of_lt within)
  · cases done.symm.trans failed

end Unchanged

section Sample

def twoTables (pte : Word) : Mm where
  pmm :=
    { pmmBitmap := fun f => !(f == 256 || f == 257)
      pageRefcnt := fun f => if f = 256 ∨ f = 257 then 0 else 2
      managedPages := 258
      freePageCount := 2
      nextPageIdx := 0
      nextDmaPageIdx := 256
      managed_le := by decide }
  mem := fun f k =>
    if f = 10 then
      if k = 0 then pageAddr 11 ||| 7 else if k = 1 then pageAddr 12 ||| 7 else 0
    else if f = 11 ∧ k = 0 then pte else 0
  cr3 := pageAddr 10
  kernelPdPhys := pageAddr 10
  finalPagingActive := true

variable (pte : Word)

theorem tableOf_twoTables (pdi : Nat) :
    (twoTables pte).tableOf 10 pdi =
      if pdi = 0 then some 11 else if pdi = 1 then some 12 else none := by
  by_cases first : pdi = 0
  · subst first
    have entry : (twoTables pte).mem 10 0 = pageAddr 11 ||| 7 := rfl
    rw [tableOf_eq entry]
    decide
  by_cases second : pdi = 1
  · subst second
    have entry : (twoTables pte).mem 10 1 = pageAddr 12 ||| 7 := rfl
    rw [tableOf_eq entry]
    decide
  rw [if_neg first, if_neg second]
  apply tableOf_zero
  simp only [twoTables, if_true, if_neg first, if_neg second]

theorem free_twoTables (f : Nat) : (twoTables pte).pmm.Free f ↔ f = 256 ∨ f = 257 := by
  simp only [Pmm.Free, twoTables, Bool.not_eq_false', Bool.or_eq_true, beq_iff_eq]
  omega

theorem pteOf_twoTables (vpn : Nat) :
    (twoTables pte).pteOf 10 vpn = if vpn = 0 then pte else 0 := by
  simp only [pteOf, tableOf_twoTables, ptrsPerTable]
  by_cases first : vpn / 1024 = 0
  · rw [if_pos first]
    by_cases zero : vpn = 0
    · subst zero
      rfl
    · have inside : vpn % 1024 ≠ 0 := by omega
      simp only [twoTables, if_neg zero, inside]
      rfl
  · have later : vpn ≠ 0 := fun zero => first (by rw [zero])
    rw [if_neg first, if_neg later]
    by_cases second : vpn / 1024 = 1
    · rw [if_pos second]
      rfl
    · rw [if_neg second]

variable {pte}

theorem inUse_twoTables (low : pfn pte < 256) : InUse (twoTables pte) 10 := by
  refine { root := ?_, table := ?_, page := ?_ }
  · rw [free_twoTables]
    decide
  · intro pdi _ t here
    rw [tableOf_twoTables] at here
    have either : t = 11 ∨ t = 12 := by
      by_cases first : pdi = 0
      · rw [if_pos first] at here
        exact .inl (Option.some.inj here).symm
      · rw [if_neg first] at here
        by_cases second : pdi = 1
        · rw [if_pos second] at here
          exact .inr (Option.some.inj here).symm
        · rw [if_neg second] at here
          cases here
    rw [free_twoTables]
    omega
  · intro vpn _ present
    rw [pteOf_twoTables] at present ⊢
    by_cases zero : vpn = 0
    · rw [if_pos zero, free_twoTables]
      omega
    · rw [if_neg zero] at present
      exact (not_present_zero present).elim

theorem clone_twoTables (low : pfn pte < 256) :
    ((twoTables pte).pagingCloneAddressSpace (pageAddr 10)).2 = none ∧
      (twoTables pte).cloneStop (pageAddr 10) = 1 := by
  have frame : pfn (pageAddr 10) = 10 := pfn_pageAddr (by decide)
  have used : InUse (twoTables pte) (pfn (pageAddr 10)) := frame ▸ inUse_twoTables low
  have first : ((twoTables pte).tableOf 10 0).isSome = true := by rw [tableOf_twoTables]; rfl
  have second : ((twoTables pte).tableOf 10 1).isSome = true := by rw [tableOf_twoTables]; rfl
  rcases result : (twoTables pte).pagingCloneAddressSpace (pageAddr 10) with ⟨n, outcome⟩
  rcases clone_cases used result with ⟨rfl, -, -, stopped⟩ |
    ⟨rfl, -, ⟨child, new, reached, cloned, some_, full⟩, -⟩ | ⟨child, new, reached, -, cloned, -⟩
  · -- The directory of the clone can be allocated.
    exfalso
    rcases stopped with zero | offset | full
    · revert zero
      decide
    · exact offset (pageAddr_aligned 10)
    · exact full 256 (by decide) ((free_twoTables pte 256).mpr (.inl rfl))
  · refine ⟨rfl, ?_⟩
    generalize (twoTables pte).cloneStop (pageAddr 10) = stop at cloned some_
    rw [frame] at cloned some_
    rw [tableOf_twoTables] at some_
    by_cases zero : stop = 0
    · -- Of the two free frames, one is left for the first table.
      exfalso
      subst zero
      have freeChild := (free_twoTables pte _).mp (cloned.free child (.inl rfl))
      have left : ∀ f, f = 256 ∨ f = 257 → f ≠ child → False := by
        intro f either other
        have free := (free_twoTables pte f).mpr either
        refine full f (by unfold kernelLoadPage; omega) ⟨managed_eq cloned.fixed ▸ free.1, ?_⟩
        rw [Bool.eq_false_iff]
        intro set
        rcases (cloned.bitmap f).mp set with old | root | ⟨pdi, below, -⟩
        · rw [free.2] at old
          cases old
        · exact other root
        · exact Nat.not_lt_zero pdi below
      rcases freeChild with is | is
      · exact left 257 (.inr rfl) (by omega)
      · exact left 256 (.inl rfl) (by omega)
    · by_cases one : stop = 1
      · exact one
      · rw [if_neg zero, if_neg one] at some_
        cases some_
  · -- Success would take three different frames.
    exfalso
    rw [frame] at cloned
    have inside : 1 < userPdis := by simp only [userPdis]; decide
    have freeChild := (free_twoTables pte _).mp (cloned.free child (.inl rfl))
    have freeFirst := (free_twoTables pte _).mp
      (cloned.free (new 0) (.inr ⟨0, Nat.lt_trans Nat.zero_lt_one inside, first, rfl⟩))
    have freeSecond := (free_twoTables pte _).mp
      (cloned.free (new 1) (.inr ⟨1, inside, second, rfl⟩))
    have apartFirst := cloned.apart 0 (Nat.lt_trans Nat.zero_lt_one inside) first
    have apartSecond := (cloned.apart 1 inside second).1
    have tables : new 0 ≠ new 1 := fun same => by
      have equal := apartFirst.2 1 inside second same
      omega
    have root := apartFirst.1
    omega

/-- A page that is writable and has no other flag is restored. -/
theorem failed_clone_unchanged_plain :
    Unchanged (twoTables (pageAddr 13 ||| 7)) 10
      ((twoTables (pageAddr 13 ||| 7)).pagingCloneAddressSpace (pageAddr 10)).1 := by
  have frame : pfn (pageAddr 10) = 10 := pfn_pageAddr (by decide)
  have low : pfn (pageAddr 13 ||| 7) < 256 := by decide
  obtain ⟨failed, stop⟩ := clone_twoTables low
  have result := failed_clone_unchanged_iff (frame.symm ▸ inUse_twoTables low) ?_ failed
  · rw [frame, stop] at result
    refine result.mpr { page := fun vpn _ present _ => ?_, count := fun f _ => ?_ }
    · rw [pteOf_twoTables] at present ⊢
      split
      · decide
      · rename_i other
        rw [if_neg other] at present
        exact (not_present_zero present).elim
    · -- At most one page of the parent is mapped, so no count comes near the limit.
      right
      right
      have few : (twoTables (pageAddr 13 ||| 7)).refsBelow 10 (1 * ptrsPerTable) f ≤ 1 := by
        have only : ∀ vpn, (twoTables (pageAddr 13 ||| 7)).Maps 10 vpn f → vpn = 0 := by
          rintro vpn ⟨present, -⟩
          rw [pteOf_twoTables] at present
          by_cases zero : vpn = 0
          · exact zero
          · rw [if_neg zero] at present
            exact (not_present_zero present).elim
        exact count_le_one fun j _ k _ first second => (only j first).trans (only k second).symm
      have small : (twoTables (pageAddr 13 ||| 7)).pmm.pageRefcnt f ≤ 2 := by
        simp only [twoTables]
        split <;> omega
      simp only [Pmm.refcntLimit]
      omega
  · intro f free
    rw [free_twoTables] at free
    simp only [twoTables, if_pos free]

/-- A page that is shared with another directory becomes writable when the clone fails. -/
theorem failed_clone_unshares :
    let m := twoTables (pageAddr 13 ||| pagePresent ||| pageUser ||| pageCow)
    let n := (m.pagingCloneAddressSpace (pageAddr 10)).1
    InUse m 10 ∧ (m.pagingCloneAddressSpace (pageAddr 10)).2 = none ∧
      m.pmm.pageRefcnt 13 = 2 ∧ ¬Writable (m.pteOf 10 0) ∧ Writable (n.pteOf 10 0) ∧
      ¬Unchanged m 10 n := by
  intro m n
  have frame : pfn (pageAddr 10) = 10 := pfn_pageAddr (by decide)
  have low : pfn (pageAddr 13 ||| pagePresent ||| pageUser ||| pageCow) < 256 := by decide
  have used : InUse m 10 := inUse_twoTables low
  have inside : 0 < userPages := by simp only [userPages, userPdis, ptrsPerTable]; decide
  obtain ⟨failed, stop⟩ := clone_twoTables low
  have page : m.pteOf 10 0 = pageAddr 13 ||| pagePresent ||| pageUser ||| pageCow :=
    pteOf_twoTables _ 0
  -- The rollback writes a plain entry for the marked page.
  have written : n.pteOf 10 0 = plainPte (m.pteOf 10 0) := by
    have whole : m.pagingCloneAddressSpace (pageAddr 10) = (n, none) :=
      Prod.mk.eta.symm.trans (congrArg (Prod.mk n) failed)
    rcases clone_cases (frame.symm ▸ used) whole with ⟨-, -, zero, -⟩ | ⟨-, -, -, rolled, -⟩ |
      ⟨_, _, _, done, -⟩
    · rw [stop] at zero
      cases zero
    · rw [frame, stop] at rolled
      have here : m.tableOf 10 (0 / ptrsPerTable) = some 11 := by
        rw [Nat.zero_div]
        exact tableOf_twoTables _ 0
      rcases rolled.pteOf used inside with ⟨-, other⟩ | ⟨-, restored⟩
      · exact (other ⟨11, here, 0, Nat.zero_lt_one, tableOf_twoTables _ 0⟩).elim
      · rw [restored, restoredPte, if_pos]
        rw [page]
        decide
    · cases done
  have before : ¬Writable (m.pteOf 10 0) := by
    rw [page]
    decide
  have after : Writable (n.pteOf 10 0) := by
    rw [written, page]
    decide
  refine ⟨used, failed, rfl, before, after, fun unchanged => before ?_⟩
  rw [← unchanged.page 0 inside]
  exact after

end Sample

end Mm

end CatOs.Memory
