import CatOs.Memory.Cloning

/-! What the rollback of a failed clone restores, and what it does not. -/

namespace CatOs.Memory

def plainPte (pte : Word) : Word :=
  (pte &&& pageFrameMask) ||| pagePresent ||| pageUser ||| pageRw

def Rewritten (pte : Word) : Prop :=
  -- The child got the mark with a writable page, or copied it from one marked before.
  Present pte ∧ hasFlag (sharedPte pte) pageCow = true

instance (pte : Word) : Decidable (Rewritten pte) :=
  inferInstanceAs (Decidable (_ ∧ _))

def restoredPte (pte : Word) : Word :=
  if Rewritten pte then plainPte pte else pte

theorem sharedPte_of_not_rewritten {pte : Word} (kept : ¬Rewritten pte) : sharedPte pte = pte := by
  -- A writable page would carry the mark after sharing.
  refine if_neg fun writable => kept ⟨writable.1, ?_⟩
  rw [sharedPte, if_pos writable]
  exact cow_cowPte pte

theorem plainPte_sharedPte (pte : Word) : plainPte (sharedPte pte) = plainPte pte := by
  -- Both entries have the same frame, and nothing else of them is kept.
  have frame : sharedPte pte &&& pageFrameMask = pte &&& pageFrameMask := by
    apply BitVec.eq_of_toNat_eq
    rw [toNat_and_pageFrameMask, toNat_and_pageFrameMask, pfn_sharedPte]
  unfold plainPte
  rw [frame]

namespace Mm

section Table

variable {m : Mm} {ppt cpt f k : Nat}

def Marked (cpte : Word) : Prop :=
  Present cpte ∧ hasFlag cpte pageCow = true

instance (cpte : Word) : Decidable (Marked cpte) :=
  inferInstanceAs (Decidable (_ ∧ _))

theorem mem_undoPte (pti : Nat) :
    (undoPte (some ppt) cpt pti m).mem f k =
      if f = ppt ∧ k = pti ∧ Marked (m.mem cpt pti) then plainPte (m.mem cpt pti)
      else m.mem f k := by
  unfold undoPte
  by_cases present : Present (m.mem cpt pti)
  · have set : hasFlag (m.mem cpt pti) pagePresent = true := present
    simp only [set, Bool.not_true, Bool.false_eq_true, if_false, mem_refDec]
    by_cases cow : hasFlag (m.mem cpt pti) pageCow = true
    · rw [if_pos cow, mem_setEntry]
      exact if_congr ⟨fun both => ⟨both.1, both.2, present, cow⟩,
        fun all => ⟨all.1, all.2.1⟩⟩ rfl rfl
    · rw [if_neg cow, if_neg fun all => cow all.2.2.2]
  · have clear : hasFlag (m.mem cpt pti) pagePresent = false := Bool.eq_false_iff.mpr present
    simp only [clear, Bool.not_false, if_true]
    rw [if_neg fun all => present all.2.2.1]

theorem pmm_undoPte (pti : Nat) :
    (undoPte (some ppt) cpt pti m).pmm =
      if Present (m.mem cpt pti) then (m.pmm.pageRefDec (m.mem cpt pti &&& pageFrameMask)).1
      else m.pmm := by
  simp only [undoPte]
  by_cases present : hasFlag (m.mem cpt pti) pagePresent = true
  · rw [present, if_neg (by decide), if_pos (show Present _ from present)]
    -- Rewriting the entry of the parent does not touch the counts.
    split <;> rfl
  · rw [if_neg (show ¬Present _ from present), Bool.eq_false_iff.mpr present]
    rfl

theorem refcnt_undoPte (pti : Nat) :
    (undoPte (some ppt) cpt pti m).pmm.pageRefcnt f =
      if Present (m.mem cpt pti) ∧ pfn (m.mem cpt pti) = f ∧ f < m.pmm.managedPages then
        m.pmm.pageRefcnt f - 1
      else m.pmm.pageRefcnt f := by
  rw [pmm_undoPte]
  by_cases present : Present (m.mem cpt pti)
  · rw [if_pos present, Pmm.pageRefcnt_pageRefDec]
    exact if_congr (by rw [and_iff_right present, eq_comm]) rfl rfl
  · rw [if_neg present, if_neg fun all => present all.1]

@[simp] theorem bitmap_undoPte (pti : Nat) :
    (undoPte (some ppt) cpt pti m).pmm.pmmBitmap = m.pmm.pmmBitmap := by
  rw [pmm_undoPte]
  split
  · exact Pmm.pmmBitmap_pageRefDec _
  · rfl

@[simp] theorem fixed_undoPte (pti : Nat) :
    (undoPte (some ppt) cpt pti m).fixed = m.fixed := by
  simp only [undoPte]
  split
  · rfl
  split
  · exact fixed_refDec _
  · exact fixed_refDec _

structure TableUndone (m : Mm) (ppt cpt count : Nat) (n : Mm) : Prop where
  fixed : n.fixed = m.fixed
  bitmap : n.pmm.pmmBitmap = m.pmm.pmmBitmap
  mem : ∀ f k, n.mem f k =
    if f = ppt ∧ k < count ∧ Marked (m.mem cpt k) then plainPte (m.mem cpt k) else m.mem f k
  refcnt : ∀ f, n.pmm.pageRefcnt f =
    if f < m.pmm.managedPages then m.pmm.pageRefcnt f - m.tableRefs cpt count f
    else m.pmm.pageRefcnt f

theorem tableUndone (apart : ppt ≠ cpt) (m : Mm) (count : Nat) :
    TableUndone m ppt cpt count (forRange count (undoPte (some ppt) cpt) m) := by
  -- The entries of the child are only read, so each round sees them as they were.
  refine forRange_invariant (fun i n => TableUndone m ppt cpt i n) ?_ ?_
  · refine { fixed := rfl, bitmap := rfl, mem := ?_, refcnt := ?_ }
    · intro f k
      rw [if_neg fun all => Nat.not_lt_zero k all.2.1]
    · intro f
      rw [tableRefs, Nat.count_zero, Nat.sub_zero, ite_self]
  · intro i n _ before
    have current : n.mem cpt i = m.mem cpt i := by
      rw [before.mem, if_neg fun all => apart all.1.symm]
    refine { fixed := ?_, bitmap := ?_, mem := ?_, refcnt := ?_ }
    · rw [fixed_undoPte, before.fixed]
    · rw [bitmap_undoPte, before.bitmap]
    · intro f k
      rw [mem_undoPte, current, before.mem]
      by_cases here : k = i
      · subst here
        simp only [true_and, Nat.lt_irrefl, false_and, and_false, if_false, Nat.lt_succ_self]
      · have order : k < i + 1 ↔ k < i := by omega
        simp only [here, false_and, and_false, if_false, order]
    · intro f
      rw [refcnt_undoPte, current, managed_eq before.fixed, before.refcnt, tableRefs_succ]
      by_cases managed : f < m.pmm.managedPages
      · rw [if_pos managed, if_pos managed]
        by_cases refers : Present (m.mem cpt i) ∧ pfn (m.mem cpt i) = f
        · rw [if_pos ⟨refers.1, refers.2, managed⟩, if_pos refers, Nat.sub_sub]
        · rw [if_neg fun all => refers ⟨all.1, all.2.1⟩, if_neg refers, Nat.add_zero]
      · rw [if_neg managed, if_neg managed, if_neg fun all => managed all.2.2]

end Table

section Entry

variable {m n n₀ : Mm} {parent child failed count : Nat} {new : Nat → Nat}

structure Undone (m : Mm) (parent child : Nat) (new : Nat → Nat) (failed count : Nat) (n : Mm) :
    Prop where
  fixed : n.fixed = m.fixed
  entry : ∀ pdi < userPdis, n.mem child pdi =
    if pdi < failed ∧ (m.tableOf parent pdi).isSome then childPde (new pdi) (m.mem parent pdi)
    else 0
  table : ∀ pdi < failed, ∀ t, m.tableOf parent pdi = some t → ∀ k < ptrsPerTable,
    n.mem (new pdi) k = childPte (m.mem t k)
  restored : ∀ t k, m.IsTable parent count t → k < ptrsPerTable →
    n.mem t k = restoredPte (m.mem t k)
  shared : ∀ t k, m.IsTable parent failed t → ¬m.IsTable parent count t → k < ptrsPerTable →
    n.mem t k = sharedPte (m.mem t k)
  kept : ∀ f k, ¬Taken m parent child new failed f →
    (m.IsTable parent failed f → ptrsPerTable ≤ k) → n.mem f k = m.mem f k
  bitmap : ∀ f, n.pmm.pmmBitmap f = true ↔ m.pmm.pmmBitmap f = true ∨
    Taken m parent child new failed f ∧ ¬NewTable m parent new count f
  counted : ∀ f, Taken m parent child new failed f → ¬NewTable m parent new count f →
    n.pmm.pageRefcnt f = 1
  returned : ∀ f, NewTable m parent new count f → n.pmm.pageRefcnt f = 0
  refcnt : ∀ f, ¬Taken m parent child new failed f → n.pmm.pageRefcnt f =
    if f < m.pmm.managedPages then
      Pmm.satAdd (m.pmm.pageRefcnt f) (m.refsBelow parent (failed * ptrsPerTable) f) -
        m.refsBelow parent (count * ptrsPerTable) f
    else m.pmm.pageRefcnt f

theorem Cloned.undone (cloned : Cloned m parent child new failed n) :
    Undone m parent child new failed 0 n := by
  have none : ∀ f, ¬NewTable m parent new 0 f := fun f ⟨pdi, below, _⟩ =>
    Nat.not_lt_zero pdi below
  refine { fixed := cloned.fixed, entry := cloned.entry, table := cloned.table, restored := ?_,
           shared := fun t k table _ => cloned.shared t k table, kept := cloned.kept,
           bitmap := ?_, counted := fun f taken _ => cloned.counted f taken,
           returned := fun f back => (none f back).elim, refcnt := ?_ }
  · rintro t k ⟨pdi, below, -⟩
    exact absurd below (Nat.not_lt_zero pdi)
  · intro f
    rw [cloned.bitmap, and_iff_left (none f)]
  · intro f free
    have zero : m.refsBelow parent (0 * ptrsPerTable) f = 0 := by
      rw [Nat.zero_mul]
      exact Nat.count_zero _
    rw [cloned.refcnt f free, zero, Nat.sub_zero]

theorem Undone.parentEntry (undone : Undone m parent child new failed count n)
    (cloned : ∀ f, Taken m parent child new failed f → m.pmm.Free f) (used : InUse m parent)
    (within : failed ≤ userPdis) (pdi : Nat) : n.mem parent pdi = m.mem parent pdi := by
  refine undone.kept parent pdi (fun taken => used.root (cloned parent taken)) ?_
  rintro ⟨other, below, itself⟩
  exact ((used.table other (Nat.lt_of_lt_of_le below within) parent itself).2 rfl).elim

theorem marked_childPte (pte : Word) : Marked (childPte pte) ↔ Rewritten pte := by
  by_cases present : Present pte
  · rw [Marked, present_childPte, childPte, if_pos present, Rewritten]
  · exact ⟨fun marked => (present ((present_childPte pte).mp marked.1)).elim,
      fun rewritten => (present rewritten.1).elim⟩

theorem plainPte_childPte {pte : Word} (present : Present pte) :
    plainPte (childPte pte) = plainPte pte := by
  rw [childPte, if_pos present, plainPte_sharedPte]

theorem Undone.skip (undone : Undone m parent child new failed count n)
    (none : m.tableOf parent count = none) :
    Undone m parent child new failed (count + 1) n := by
  refine { fixed := undone.fixed, entry := undone.entry, table := undone.table, restored := ?_,
           shared := ?_, kept := undone.kept, bitmap := ?_, counted := ?_, returned := ?_,
           refcnt := ?_ }
  · intro t k table
    exact undone.restored t k ((isTable_none none t).mp table)
  · intro t k table other
    exact undone.shared t k table fun before => other ((isTable_none none t).mpr before)
  · intro f
    rw [undone.bitmap, newTable_none none]
  · intro f taken out
    exact undone.counted f taken fun before => out ((newTable_none none f).mpr before)
  · intro f back
    exact undone.returned f ((newTable_none none f).mp back)
  · intro f free
    rw [undone.refcnt f free, refsBelow_none none]

theorem Undone.giveBack (undone : Undone m parent child new failed count n)
    (cloned : Cloned m parent child new failed n₀) (used : InUse m parent)
    (within : failed ≤ userPdis) (below : count < failed) {t : Nat}
    (here : m.tableOf parent count = some t) :
    Undone m parent child new failed (count + 1)
      ((forRange ptrsPerTable (undoPte (some t) (new count)) n).freePage
        (childPde (new count) (m.mem parent count) &&& pageFrameMask)) := by
  have has : (m.tableOf parent count).isSome = true := by rw [here]; rfl
  have fresh : Taken m parent child new failed (new count) := .inr ⟨count, below, has, rfl⟩
  have free := cloned.free _ fresh
  have tableUsed := (used.table count (Nat.lt_of_lt_of_le below within) t here).1
  have apart : t ≠ new count := fun same => tableUsed (same ▸ free)
  have small : new count < 1048576 := m.pmm.managed_lt free.1
  have loop := tableUndone apart n ptrsPerTable
  generalize forRange ptrsPerTable (undoPte (some t) (new count)) n = result at loop
  have copy : ∀ k < ptrsPerTable, n.mem (new count) k = childPte (m.mem t k) :=
    undone.table count below t here
  -- The references that the child gives up are those of the parent's table.
  have refs : ∀ f, n.tableRefs (new count) ptrsPerTable f = m.tableRefs t ptrsPerTable f := by
    intro f
    refine count_congr fun k inside => ?_
    rw [copy k inside, present_childPte]
    exact and_congr_right fun present => by rw [pfn_childPte present]
  have managed : result.pmm.managedPages = m.pmm.managedPages := by
    rw [managed_eq loop.fixed, managed_eq undone.fixed]
  have pmm : (result.freePage (childPde (new count) (m.mem parent count) &&& pageFrameMask)).pmm =
      result.pmm.markPageFree (new count) := by
    rw [freePage, Pmm.pmmFreePage_masked, pfn_childPde small]
  have bitmap : ∀ f, (result.pmm.markPageFree (new count)).pmmBitmap f = true ↔
      n.pmm.pmmBitmap f = true ∧ f ≠ new count := by
    intro f
    rw [Pmm.pmmBitmap_markPageFree, loop.bitmap, managed]
    by_cases same : f = new count
    · rw [if_pos ⟨same, free.1⟩]
      exact ⟨fun absurd => (Bool.false_ne_true absurd).elim, fun both => (both.2 same).elim⟩
    · rw [if_neg fun both => same both.1]
      exact ⟨fun set => ⟨set, same⟩, fun both => both.1⟩
  -- Giving back the new table leaves the counts of other frames alone.
  have counts : ∀ f, f ≠ new count →
      (result.pmm.markPageFree (new count)).pageRefcnt f = result.pmm.pageRefcnt f := by
    intro f other
    rw [Pmm.pageRefcnt_markPageFree, if_neg fun all => other all.1]
  -- No page of the parent was mapped to a frame that the clone has taken.
  have unmapped : ∀ f, Taken m parent child new failed f → m.tableRefs t ptrsPerTable f = 0 := by
    intro f taken
    have total := used.refsBelow_free (cloned.free f taken)
      (Nat.mul_le_mul_right ptrsPerTable (Nat.succ_le_of_lt (Nat.lt_of_lt_of_le below within)))
    rw [refsBelow_succ here] at total
    omega
  have notTable : ∀ f, Taken m parent child new failed f → f ≠ t := fun f taken same =>
    tableUsed (same ▸ cloned.free f taken)
  refine { fixed := ?_, entry := ?_, table := ?_, restored := ?_, shared := ?_, kept := ?_,
           bitmap := ?_, counted := ?_, returned := ?_, refcnt := ?_ }
  · rw [fixed_freePage, loop.fixed, undone.fixed]
  · intro pdi user
    rw [mem_freePage, loop.mem, if_neg fun all => notTable child (.inl rfl) all.1,
      undone.entry pdi user]
  · intro pdi earlier t' at_ k inside
    have some_ : (m.tableOf parent pdi).isSome = true := by rw [at_]; rfl
    have taken : Taken m parent child new failed (new pdi) := .inr ⟨pdi, earlier, some_, rfl⟩
    rw [mem_freePage, loop.mem, if_neg fun all => notTable _ taken all.1]
    exact undone.table pdi earlier t' at_ k inside
  · intro t' k table inside
    rw [mem_freePage, loop.mem]
    by_cases same : t' = t
    · subst same
      rw [copy k inside]
      by_cases rewritten : Rewritten (m.mem t' k)
      · rw [if_pos ⟨rfl, inside, (marked_childPte _).mpr rewritten⟩, plainPte_childPte rewritten.1,
          restoredPte, if_pos rewritten]
      · -- The entry was never changed, whether the table is undone here or was undone before.
        rw [if_neg fun all => rewritten ((marked_childPte _).mp all.2.2)]
        have unchanged : restoredPte (m.mem t' k) = m.mem t' k := if_neg rewritten
        by_cases before : m.IsTable parent count t'
        · exact undone.restored t' k before inside
        · rw [undone.shared t' k ⟨count, below, here⟩ before inside,
            sharedPte_of_not_rewritten rewritten, unchanged]
    · rw [if_neg fun all => same all.1]
      exact undone.restored t' k (((isTable_succ here t').mp table).resolve_right same) inside
  · intro t' k table later inside
    have same : t' ≠ t := fun same => later ((isTable_succ here t').mpr (.inr same))
    rw [mem_freePage, loop.mem, if_neg fun all => same all.1]
    exact undone.shared t' k table (fun before => later ((isTable_succ here t').mpr (.inl before)))
      inside
  · intro f k notTaken past
    rw [mem_freePage, loop.mem, if_neg, undone.kept f k notTaken past]
    rintro ⟨same, inside, -⟩
    exact Nat.not_le.mpr inside (past (same ▸ ⟨count, below, here⟩))
  · intro f
    rw [pmm, bitmap, undone.bitmap, newTable_succ here]
    constructor
    · rintro ⟨old | ⟨taken, out⟩, other⟩
      · exact .inl old
      · exact .inr ⟨taken, fun back => back.elim out other⟩
    · rintro (old | ⟨taken, out⟩)
      · refine ⟨.inl old, fun same => ?_⟩
        rw [same, free.2] at old
        cases old
      · exact ⟨.inr ⟨taken, fun back => out (.inl back)⟩, fun same => out (.inr same)⟩
  · intro f taken out
    have other : f ≠ new count := fun same => out ((newTable_succ here f).mpr (.inr same))
    have inside : f < n.pmm.managedPages := managed_eq undone.fixed ▸ (cloned.free f taken).1
    rw [pmm, counts f other, loop.refcnt, if_pos inside, refs, unmapped f taken, Nat.sub_zero]
    exact undone.counted f taken fun back => out ((newTable_succ here f).mpr (.inl back))
  · intro f back
    rw [pmm]
    by_cases same : f = new count
    · -- Its bit was still set, so giving it back resets the count.
      have out : ¬NewTable m parent new count (new count) := by
        rintro ⟨pdi, earlier, some_, clash⟩
        have equal := (cloned.apart count below has).2 pdi (Nat.lt_trans earlier below) some_ clash
        exact Nat.lt_irrefl pdi (equal ▸ earlier)
      have set : result.pmm.pmmBitmap (new count) = true := by
        rw [loop.bitmap]
        exact (undone.bitmap _).mpr (.inr ⟨fresh, out⟩)
      rw [Pmm.pageRefcnt_markPageFree, managed, if_pos ⟨same, free.1, set⟩]
    · have before := ((newTable_succ here f).mp back).resolve_right same
      obtain ⟨pdi, earlier, some_, is⟩ := before
      have taken : Taken m parent child new failed f :=
        .inr ⟨pdi, Nat.lt_trans earlier below, some_, is⟩
      have inside : f < n.pmm.managedPages := managed_eq undone.fixed ▸ (cloned.free f taken).1
      rw [counts f same, loop.refcnt, if_pos inside, refs, unmapped f taken, Nat.sub_zero]
      exact undone.returned f ⟨pdi, earlier, some_, is⟩
  · intro f notTaken
    have other : f ≠ new count := fun same => notTaken (same ▸ fresh)
    rw [pmm, counts f other, loop.refcnt, managed_eq undone.fixed, undone.refcnt f notTaken, refs,
      refsBelow_succ here]
    split
    · rw [Nat.sub_sub]
    · rfl

theorem Undone.undoEntry (undone : Undone m parent child new failed count n)
    (cloned : Cloned m parent child new failed n₀) (used : InUse m parent)
    (within : failed ≤ userPdis) (below : count < failed) :
    Undone m parent child new failed (count + 1) (undoEntry parent child count n) := by
  have entry := undone.entry count (Nat.lt_of_lt_of_le below within)
  have same : n.tableOf parent count = m.tableOf parent count :=
    tableOf_congr (undone.parentEntry cloned.free used within count)
  simp only [Mm.undoEntry, same]
  cases here : m.tableOf parent count with
  | none =>
    -- The child has no entry here.
    rw [here, if_neg fun both => by cases both.2] at entry
    rw [entry, if_pos (by decide)]
    exact undone.skip here
  | some t =>
    rw [here, if_pos ⟨below, rfl⟩] at entry
    rw [entry, present_childPde]
    have free := cloned.free _ (.inr ⟨count, below, by rw [here]; rfl, rfl⟩)
    have small : new count < 1048576 := m.pmm.managed_lt free.1
    rw [if_neg (by decide), pfn_and_pageFrameMask, pfn_childPde small]
    exact undone.giveBack cloned used within below here

end Entry

section Failure

variable {m n : Mm} {parent child failed : Nat} {new : Nat → Nat}

structure RolledBack (m : Mm) (parent failed : Nat) (n : Mm) : Prop where
  parentEntry : ∀ pdi, n.mem parent pdi = m.mem parent pdi
  restored : ∀ t k, m.IsTable parent failed t → k < ptrsPerTable →
    n.mem t k = restoredPte (m.mem t k)
  kept : ∀ f k, ¬m.pmm.Free f → (m.IsTable parent failed f → ptrsPerTable ≤ k) →
    n.mem f k = m.mem f k
  free : ∀ f, n.pmm.Free f ↔ m.pmm.Free f
  refcnt : ∀ f, ¬m.pmm.Free f → n.pmm.pageRefcnt f =
    if f < m.pmm.managedPages then
      Pmm.satAdd (m.pmm.pageRefcnt f) (m.refsBelow parent (failed * ptrsPerTable) f) -
        m.refsBelow parent (failed * ptrsPerTable) f
    else m.pmm.pageRefcnt f
  uncounted : ∀ f, m.pmm.Free f → n.pmm.pageRefcnt f = m.pmm.pageRefcnt f ∨
    n.pmm.pageRefcnt f = 0

/-- The rollback undoes every entry and gives back all that the clone had taken. -/
theorem Cloned.rolledBack (cloned : Cloned m parent child new failed n) (used : InUse m parent)
    (within : failed ≤ userPdis) :
    RolledBack m parent failed
        ((forRange failed (undoEntry parent child) n).freePage (pageAddr child)) ∧
      ((forRange failed (undoEntry parent child) n).freePage (pageAddr child)).fixed = m.fixed := by
  have undone : Undone m parent child new failed failed
      (forRange failed (undoEntry parent child) n) :=
    forRange_invariant (fun count n => Undone m parent child new failed count n) cloned.undone
      fun _ _ below undone => undone.undoEntry cloned used within below
  generalize forRange failed (undoEntry parent child) n = last at undone
  have root : Taken m parent child new failed child := .inl rfl
  have childFree := cloned.free child root
  have managed := managed_eq undone.fixed
  -- The directory of the clone is none of its tables, so it is still taken.
  have apart : ¬NewTable m parent new failed child := fun ⟨pdi, below, some_, same⟩ =>
    (cloned.apart pdi below some_).1 same.symm
  have small : child < 1048576 := m.pmm.managed_lt childFree.1
  have pmm : (last.freePage (pageAddr child)).pmm = last.pmm.markPageFree child := by
    rw [freePage, Pmm.pmmFreePage_pageAddr small]
  have bitmap : ∀ f, (last.pmm.markPageFree child).pmmBitmap f = m.pmm.pmmBitmap f := by
    intro f
    rw [Pmm.pmmBitmap_markPageFree, managed]
    by_cases same : f = child
    · rw [if_pos ⟨same, childFree.1⟩, same, childFree.2]
    · rw [if_neg fun both => same both.1, Bool.eq_iff_iff, undone.bitmap]
      exact ⟨fun either => either.resolve_right fun both =>
        both.2 (both.1.resolve_left same), .inl⟩
  refine ⟨{ parentEntry := undone.parentEntry cloned.free used within,
            restored := undone.restored, kept := ?_, free := ?_, refcnt := ?_, uncounted := ?_ },
    (fixed_freePage _).trans undone.fixed⟩
  · intro f k taken past
    exact undone.kept f k (cloned.not_taken taken) past
  · intro f
    rw [pmm, Pmm.Free, Pmm.Free, bitmap, Pmm.managedPages_markPageFree, managed]
  · intro f taken
    have other : f ≠ child := fun same => taken (same ▸ childFree)
    rw [pmm, Pmm.pageRefcnt_markPageFree, if_neg fun all => other all.1,
      undone.refcnt f (cloned.not_taken taken)]
  · intro f free
    rw [pmm, Pmm.pageRefcnt_markPageFree]
    by_cases taken : Taken m parent child new failed f
    · right
      rcases taken with same | back
      · have set : last.pmm.pmmBitmap child = true :=
          (undone.bitmap child).mpr (.inr ⟨root, apart⟩)
        rw [if_pos ⟨same, managed ▸ childFree.1, set⟩]
      · rw [undone.returned f back, ite_self]
    · left
      have other : f ≠ child := fun same => taken (.inl same)
      rw [if_neg fun all => other all.1, undone.refcnt f taken,
        used.refsBelow_free free (Nat.mul_le_mul_right ptrsPerTable within), Pmm.satAdd_zero,
        Nat.sub_zero, ite_self]

end Failure

end Mm

end CatOs.Memory
