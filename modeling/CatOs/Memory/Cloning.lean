import CatOs.Memory.Directories

/-! Cloning an address space, table by table: what has been shared after each step. -/

namespace CatOs.Memory

open Function

namespace Mm

section Table

variable {m : Mm} {ppt cpt f k : Nat}

theorem mem_clonePte (apart : ppt ≠ cpt) (pti : Nat) :
    (clonePte ppt cpt pti m).mem f k =
      if f = cpt ∧ k = pti then childPte (m.mem ppt pti)
      else if f = ppt ∧ k = pti then sharedPte (m.mem ppt pti) else m.mem f k := by
  unfold clonePte childPte sharedPte
  -- A parent entry that is not rewritten reads as it did.
  have reread : (if f = ppt ∧ k = pti then m.mem ppt pti else m.mem f k) = m.mem f k := by
    split
    · rename_i here
      rw [here.1, here.2]
    · rfl
  by_cases present : Present (m.mem ppt pti)
  · have set : hasFlag (m.mem ppt pti) pagePresent = true := present
    rw [if_pos present]
    by_cases writable : Writable (m.mem ppt pti)
    · simp only [set, writable.2.1, writable.2.2, if_pos writable, Bool.not_true, Bool.and_self,
        if_true, mem_refInc, mem_setEntry, Bool.false_eq_true, if_false]
      -- The two tables differ, so the order of the two writes does not matter.
      by_cases child : f = cpt ∧ k = pti
      · rw [if_pos child, if_pos child, if_neg fun both => apart (both.1.symm.trans child.1)]
      · rw [if_neg child, if_neg child]
    · have readOnly : (hasFlag (m.mem ppt pti) pageUser && hasFlag (m.mem ppt pti) pageRw) = false :=
        Bool.eq_false_iff.mpr fun both => writable ⟨set, Bool.and_eq_true_iff.mp both⟩
      simp only [set, readOnly, if_neg writable, Bool.not_true, Bool.false_eq_true, if_false,
        mem_refInc, mem_setEntry, reread]
  · have clear : hasFlag (m.mem ppt pti) pagePresent = false := Bool.eq_false_iff.mpr present
    have fixed : ¬Writable (m.mem ppt pti) := fun writable => present writable.1
    simp only [clear, if_neg present, if_neg fixed, Bool.not_false, if_true, mem_setEntry, reread]

theorem pmm_clonePte (pti : Nat) :
    (clonePte ppt cpt pti m).pmm =
      if Present (m.mem ppt pti) then m.pmm.pageRefInc (m.mem ppt pti &&& pageFrameMask)
      else m.pmm := by
  simp only [clonePte]
  by_cases present : hasFlag (m.mem ppt pti) pagePresent = true
  · rw [present, if_neg (by decide), if_pos (show Present _ from present)]
    split <;> rfl
  · rw [if_neg (show ¬Present _ from present), Bool.eq_false_iff.mpr present]
    rfl

theorem refcnt_clonePte (pti : Nat) :
    (clonePte ppt cpt pti m).pmm.pageRefcnt f =
      if Present (m.mem ppt pti) ∧ pfn (m.mem ppt pti) = f ∧ f < m.pmm.managedPages then
        Pmm.bump (m.pmm.pageRefcnt f)
      else m.pmm.pageRefcnt f := by
  rw [pmm_clonePte]
  by_cases present : Present (m.mem ppt pti)
  · rw [if_pos present, Pmm.pageRefcnt_pageRefInc]
    exact if_congr (by rw [and_iff_right present, eq_comm]) rfl rfl
  · rw [if_neg present, if_neg fun all => present all.1]

@[simp] theorem bitmap_clonePte (pti : Nat) :
    (clonePte ppt cpt pti m).pmm.pmmBitmap = m.pmm.pmmBitmap := by
  rw [pmm_clonePte]
  split
  · exact Pmm.pmmBitmap_pageRefInc _
  · rfl

@[simp] theorem fixed_clonePte (pti : Nat) : (clonePte ppt cpt pti m).fixed = m.fixed := by
  simp only [clonePte]
  split
  · rfl
  split
  · exact fixed_refInc _
  · exact fixed_refInc _

structure TableCloned (m : Mm) (ppt cpt count : Nat) (n : Mm) : Prop where
  fixed : n.fixed = m.fixed
  bitmap : n.pmm.pmmBitmap = m.pmm.pmmBitmap
  mem : ∀ f k, n.mem f k =
    if f = cpt ∧ k < count then childPte (m.mem ppt k)
    else if f = ppt ∧ k < count then sharedPte (m.mem ppt k) else m.mem f k
  refcnt : ∀ f, n.pmm.pageRefcnt f =
    if f < m.pmm.managedPages then Pmm.satAdd (m.pmm.pageRefcnt f) (m.tableRefs ppt count f)
    else m.pmm.pageRefcnt f

theorem tableCloned (apart : ppt ≠ cpt) (m : Mm) (count : Nat) :
    TableCloned m ppt cpt count (forRange count (clonePte ppt cpt) m) := by
  -- After each round one more entry is shared, and the later ones are as they were.
  refine forRange_invariant (fun i n => TableCloned m ppt cpt i n) ?_ ?_
  · refine { fixed := rfl, bitmap := rfl, mem := ?_, refcnt := ?_ }
    · intro f k
      rw [if_neg fun both => Nat.not_lt_zero k both.2, if_neg fun both => Nat.not_lt_zero k both.2]
    · intro f
      rw [tableRefs, Nat.count_zero, Pmm.satAdd_zero, ite_self]
  · intro i n _ before
    have current : n.mem ppt i = m.mem ppt i := by
      rw [before.mem, if_neg fun both => apart both.1,
        if_neg fun both => Nat.lt_irrefl i both.2]
    refine { fixed := ?_, bitmap := ?_, mem := ?_, refcnt := ?_ }
    · rw [fixed_clonePte, before.fixed]
    · rw [bitmap_clonePte, before.bitmap]
    · intro f k
      rw [mem_clonePte apart, current, before.mem]
      by_cases here : k = i
      · -- The entry of this round was not touched before.
        subst here
        simp only [and_true, Nat.lt_irrefl, and_false, if_false, Nat.lt_succ_self]
      · have order : k < i + 1 ↔ k < i := by omega
        simp only [here, and_false, if_false, order]
    · intro f
      rw [refcnt_clonePte, current, managed_eq before.fixed, before.refcnt, tableRefs_succ]
      by_cases managed : f < m.pmm.managedPages
      · rw [if_pos managed, if_pos managed]
        by_cases refers : Present (m.mem ppt i) ∧ pfn (m.mem ppt i) = f
        · rw [if_pos ⟨refers.1, refers.2, managed⟩, if_pos refers, Pmm.satAdd_succ]
        · rw [if_neg fun all => refers ⟨all.1, all.2.1⟩, if_neg refers, Nat.add_zero]
      · rw [if_neg managed, if_neg managed, if_neg fun all => managed all.2.2]

end Table

section Forward

structure InUse (m : Mm) (dir : Nat) : Prop where
  root : ¬m.pmm.Free dir
  table : ∀ pdi < userPdis, ∀ table ∈ m.tableOf dir pdi, ¬m.pmm.Free table ∧ table ≠ dir
  page : ∀ vpn < userPages, Present (m.pteOf dir vpn) → ¬m.pmm.Free (pfn (m.pteOf dir vpn))

def IsTable (m : Mm) (dir count frame : Nat) : Prop :=
  ∃ pdi < count, m.tableOf dir pdi = some frame

def NewTable (m : Mm) (parent : Nat) (new : Nat → Nat) (count frame : Nat) : Prop :=
  ∃ pdi < count, (m.tableOf parent pdi).isSome ∧ frame = new pdi

def Taken (m : Mm) (parent child : Nat) (new : Nat → Nat) (count frame : Nat) : Prop :=
  frame = child ∨ NewTable m parent new count frame

structure Cloned (m : Mm) (parent child : Nat) (new : Nat → Nat) (count : Nat) (n : Mm) :
    Prop where
  fixed : n.fixed = m.fixed
  entry : ∀ pdi < userPdis, n.mem child pdi =
    if pdi < count ∧ (m.tableOf parent pdi).isSome then childPde (new pdi) (m.mem parent pdi) else 0
  free : ∀ f, Taken m parent child new count f → m.pmm.Free f
  apart : ∀ pdi < count, (m.tableOf parent pdi).isSome → new pdi ≠ child ∧
    ∀ other < count, (m.tableOf parent other).isSome → new pdi = new other → pdi = other
  table : ∀ pdi < count, ∀ t, m.tableOf parent pdi = some t → ∀ k < ptrsPerTable,
    n.mem (new pdi) k = childPte (m.mem t k)
  shared : ∀ t k, m.IsTable parent count t → k < ptrsPerTable →
    n.mem t k = sharedPte (m.mem t k)
  kept : ∀ f k, ¬Taken m parent child new count f →
    (m.IsTable parent count f → ptrsPerTable ≤ k) → n.mem f k = m.mem f k
  bitmap : ∀ f, n.pmm.pmmBitmap f = true ↔
    m.pmm.pmmBitmap f = true ∨ Taken m parent child new count f
  counted : ∀ f, Taken m parent child new count f → n.pmm.pageRefcnt f = 1
  refcnt : ∀ f, ¬Taken m parent child new count f → n.pmm.pageRefcnt f =
    if f < m.pmm.managedPages then
      Pmm.satAdd (m.pmm.pageRefcnt f) (m.refsBelow parent (count * ptrsPerTable) f)
    else m.pmm.pageRefcnt f

variable {m n : Mm} {parent child count : Nat} {new : Nat → Nat}

theorem InUse.refsBelow_free (used : InUse m parent) {frame : Nat} (free : m.pmm.Free frame)
    {bound : Nat} (within : bound ≤ userPages) : m.refsBelow parent bound frame = 0 := by
  apply Nat.count_iff_forall_not.mpr
  rintro vpn below ⟨present, rfl⟩
  exact used.page vpn (Nat.lt_of_lt_of_le below within) present free

theorem Cloned.not_taken (cloned : Cloned m parent child new count n) {frame : Nat}
    (used : ¬m.pmm.Free frame) : ¬Taken m parent child new count frame :=
  fun taken => used (cloned.free frame taken)

theorem Cloned.parentEntry (cloned : Cloned m parent child new count n) (used : InUse m parent)
    (within : count ≤ userPdis) (pdi : Nat) : n.mem parent pdi = m.mem parent pdi := by
  refine cloned.kept parent pdi (cloned.not_taken used.root) ?_
  rintro ⟨other, below, itself⟩
  exact ((used.table other (Nat.lt_of_lt_of_le below within) parent itself).2 rfl).elim

theorem isTable_succ {ppt : Nat} (here : m.tableOf parent count = some ppt) (f : Nat) :
    m.IsTable parent (count + 1) f ↔ m.IsTable parent count f ∨ f = ppt := by
  rw [IsTable, Nat.exists_lt_succ_right, here, Option.some_inj, eq_comm]
  rfl

theorem isTable_none (none : m.tableOf parent count = none) (f : Nat) :
    m.IsTable parent (count + 1) f ↔ m.IsTable parent count f := by
  rw [IsTable, Nat.exists_lt_succ_right, none]
  exact or_iff_left (by simp)

theorem newTable_succ {ppt : Nat} (here : m.tableOf parent count = some ppt) (f : Nat) :
    NewTable m parent new (count + 1) f ↔ NewTable m parent new count f ∨ f = new count := by
  rw [NewTable, Nat.exists_lt_succ_right, here, and_iff_right (Option.isSome_some)]
  rfl

theorem newTable_none (none : m.tableOf parent count = none) (f : Nat) :
    NewTable m parent new (count + 1) f ↔ NewTable m parent new count f := by
  rw [NewTable, Nat.exists_lt_succ_right, none]
  exact or_iff_left (by simp)

theorem update_new (cpt : Nat) {pdi : Nat} (below : pdi < count) :
    update new count cpt pdi = new pdi :=
  update_of_ne (Nat.ne_of_lt below) ..

theorem taken_succ {ppt : Nat} (here : m.tableOf parent count = some ppt) (cpt f : Nat) :
    Taken m parent child (update new count cpt) (count + 1) f ↔
      Taken m parent child new count f ∨ f = cpt := by
  -- The earlier choices are the same.
  have earlier : NewTable m parent (update new count cpt) count f ↔
      NewTable m parent new count f := by
    refine exists_congr fun pdi => and_congr_right fun below => and_congr_right fun _ => ?_
    rw [update_new cpt below]
  rw [Taken, newTable_succ here, earlier, update_self, ← or_assoc, ← Taken]

section Cloned

variable (cloned : Cloned m parent child new count n)
include cloned

theorem Cloned.skip
    (none : m.tableOf parent count = none) : Cloned m parent child new (count + 1) n := by
  -- An entry that has a table is one of the earlier ones.
  have earlier : ∀ {pdi}, pdi < count + 1 → (m.tableOf parent pdi).isSome = true → pdi < count := by
    intro pdi below some_
    rcases Nat.lt_succ_iff_lt_or_eq.mp below with before | rfl
    · exact before
    · rw [none] at some_
      cases some_
  have taken : ∀ f, Taken m parent child new (count + 1) f ↔ Taken m parent child new count f :=
    fun f => or_congr_right (newTable_none none f)
  refine { fixed := cloned.fixed, entry := ?_, free := ?_, apart := ?_, table := ?_, shared := ?_,
           kept := ?_, bitmap := ?_, counted := ?_, refcnt := ?_ }
  · intro pdi user
    rw [cloned.entry pdi user]
    exact if_congr ⟨fun both => ⟨Nat.lt_succ_of_lt both.1, both.2⟩,
      fun both => ⟨earlier both.1 both.2, both.2⟩⟩ rfl rfl
  · intro f taking
    exact cloned.free f ((taken f).mp taking)
  · intro pdi below some_
    obtain ⟨root, distinct⟩ := cloned.apart pdi (earlier below some_) some_
    exact ⟨root, fun other otherBelow otherSome =>
      distinct other (earlier otherBelow otherSome) otherSome⟩
  · intro pdi below t here
    exact cloned.table pdi (earlier below (by rw [here]; rfl)) t here
  · intro t k table within
    exact cloned.shared t k ((isTable_none none t).mp table) within
  · intro f k free past
    exact cloned.kept f k (fun taking => free ((taken f).mpr taking))
      fun table => past ((isTable_none none f).mpr table)
  · intro f
    rw [cloned.bitmap, taken]
  · intro f taking
    exact cloned.counted f ((taken f).mp taking)
  · intro f free
    rw [cloned.refcnt f fun taking => free ((taken f).mpr taking), refsBelow_none none]

theorem Cloned.fresh {f : Nat}
    (free : n.pmm.Free f) : m.pmm.Free f ∧ ¬Taken m parent child new count f := by
  -- A set bit would have stayed set.
  have clear : ¬(m.pmm.pmmBitmap f = true ∨ Taken m parent child new count f) := by
    rw [← cloned.bitmap, free.2]
    exact Bool.false_ne_true
  exact ⟨⟨managed_eq cloned.fixed ▸ free.1, Bool.eq_false_iff.mpr fun set => clear (.inl set)⟩,
    fun taken => clear (.inr taken)⟩

theorem Cloned.old {ppt : Nat}
    (used : ¬m.pmm.Free ppt) {k : Nat} (inside : k < ptrsPerTable) :
    n.mem ppt k = m.mem ppt k ∨ n.mem ppt k = sharedPte (m.mem ppt k) := by
  by_cases before : m.IsTable parent count ppt
  · exact .inr (cloned.shared ppt k before inside)
  · exact .inl (cloned.kept ppt k (cloned.not_taken used) fun table => (before table).elim)

theorem Cloned.tableRefs {ppt : Nat}
    (used : ¬m.pmm.Free ppt) (f : Nat) :
    n.tableRefs ppt ptrsPerTable f = m.tableRefs ppt ptrsPerTable f := by
  refine count_congr fun k inside => ?_
  rcases cloned.old used inside with same | same
  · rw [same]
  · rw [same, present_sharedPte, pfn_sharedPte]

end Cloned

theorem refsBelow_succ {ppt : Nat} (here : m.tableOf parent count = some ppt) (f : Nat) :
    m.refsBelow parent ((count + 1) * ptrsPerTable) f =
      m.refsBelow parent (count * ptrsPerTable) f + m.tableRefs ppt ptrsPerTable f := by
  rw [Nat.succ_mul, refsBelow_table here _ _ (Nat.le_refl _)]

structure Entered (m n : Mm) (parent child count cpt : Nat) (start : Mm) : Prop where
  fixed : start.fixed = m.fixed
  mem : ∀ f k, start.mem f k =
    if f = child ∧ k = count then childPde cpt (m.mem parent count) else n.mem f k
  bitmap : ∀ f, start.pmm.pmmBitmap f = true ↔ n.pmm.pmmBitmap f = true ∨ f = cpt
  counted : start.pmm.pageRefcnt cpt = 1
  refcnt : ∀ f, f ≠ cpt → start.pmm.pageRefcnt f = n.pmm.pageRefcnt f

theorem Cloned.enter (cloned : Cloned m parent child new count n) (used : InUse m parent)
    (within : count < userPdis) {cpt : Nat} {allocated : Mm} (taking : Allocated n allocated cpt) :
    Entered m n parent child count cpt
      (allocated.setEntry child count (childPde cpt (allocated.mem parent count))) where
  fixed := by rw [fixed_setEntry, taking.fixed, cloned.fixed]
  mem := by
    intro f k
    rw [mem_setEntry, taking.mem, cloned.parentEntry used (Nat.le_of_lt within)]
  bitmap := taking.bitmap
  counted := taking.counted
  refcnt := taking.refcnt

/-- An entry with a table is cloned into a table of its own. -/
theorem Cloned.extend (cloned : Cloned m parent child new count n) (used : InUse m parent)
    (within : count < userPdis) {ppt cpt : Nat} (here : m.tableOf parent count = some ppt)
    (free : n.pmm.Free cpt) {start : Mm} (entered : Entered m n parent child count cpt start) :
    Cloned m parent child (update new count cpt) (count + 1)
      (forRange ptrsPerTable (clonePte ppt cpt) start) := by
  have has : (m.tableOf parent count).isSome = true := by rw [here]; rfl
  obtain ⟨freeBefore, fresh⟩ := cloned.fresh free
  have tableUsed : ¬m.pmm.Free ppt := (used.table count within ppt here).1
  have pptOld : ¬Taken m parent child new count ppt := cloned.not_taken tableUsed
  have apart : ppt ≠ cpt := fun same => tableUsed (same ▸ freeBefore)
  have cptChild : cpt ≠ child := fun same => fresh (.inl same)
  have pptChild : ppt ≠ child := fun same => pptOld (.inl same)
  have pptStart : start.mem ppt = n.mem ppt := funext fun k => by
    rw [entered.mem, if_neg fun both => pptChild both.1]
  have refsStart : ∀ f, start.tableRefs ppt ptrsPerTable f = m.tableRefs ppt ptrsPerTable f := by
    intro f
    rw [← cloned.tableRefs tableUsed, Mm.tableRefs, Mm.tableRefs, pptStart]
  -- No page of the parent is mapped to the new table.
  have unreferenced : m.tableRefs ppt ptrsPerTable cpt = 0 := by
    have total := used.refsBelow_free freeBefore
      (Nat.mul_le_mul_right ptrsPerTable (Nat.succ_le_of_lt within))
    rw [refsBelow_succ here] at total
    omega
  have loop := tableCloned apart start ptrsPerTable
  generalize forRange ptrsPerTable (clonePte ppt cpt) start = result at loop
  refine { fixed := ?_, entry := ?_, free := ?_, apart := ?_, table := ?_, shared := ?_,
           kept := ?_, bitmap := ?_, counted := ?_, refcnt := ?_ }
  · rw [loop.fixed, entered.fixed]
  · intro pdi user
    rw [loop.mem, if_neg fun both => cptChild both.1.symm, if_neg fun both => pptChild both.1.symm,
      entered.mem]
    by_cases last : pdi = count
    · subst last
      rw [if_pos ⟨rfl, rfl⟩, if_pos ⟨Nat.lt_succ_self pdi, has⟩, update_self]
    · rw [if_neg fun both => last both.2, cloned.entry pdi user]
      by_cases earlier : pdi < count
      · rw [update_new cpt earlier]
        exact if_congr (and_congr_left fun _ => ⟨Nat.lt_succ_of_lt, fun _ => earlier⟩) rfl rfl
      · rw [if_neg fun both => earlier both.1, if_neg fun both => by omega]
  · intro f either
    rcases (taken_succ here cpt f).mp either with before | same
    · exact cloned.free f before
    · exact same ▸ freeBefore
  · intro pdi below some_
    rcases Nat.lt_succ_iff_lt_or_eq.mp below with earlier | rfl
    · obtain ⟨root, distinct⟩ := cloned.apart pdi earlier some_
      rw [update_new cpt earlier]
      refine ⟨root, fun other otherBelow otherSome same => ?_⟩
      rcases Nat.lt_succ_iff_lt_or_eq.mp otherBelow with otherEarlier | rfl
      · rw [update_new cpt otherEarlier] at same
        exact distinct other otherEarlier otherSome same
      · rw [update_self] at same
        exact (fresh (.inr ⟨pdi, earlier, some_, same.symm⟩)).elim
    · rw [update_self]
      refine ⟨cptChild, fun other otherBelow otherSome same => ?_⟩
      rcases Nat.lt_succ_iff_lt_or_eq.mp otherBelow with otherEarlier | rfl
      · rw [update_new cpt otherEarlier] at same
        exact (fresh (.inr ⟨other, otherEarlier, otherSome, same⟩)).elim
      · rfl
  · intro pdi below t at_ k inside
    rcases Nat.lt_succ_iff_lt_or_eq.mp below with earlier | rfl
    · -- The tables of earlier entries are not touched any more.
      have some_ : (m.tableOf parent pdi).isSome = true := by rw [at_]; rfl
      have before : Taken m parent child new count (new pdi) := .inr ⟨pdi, earlier, some_, rfl⟩
      have notNew : new pdi ≠ cpt := fun same => fresh (same ▸ before)
      have notOld : new pdi ≠ ppt := fun same => pptOld (same ▸ before)
      rw [update_new cpt earlier, loop.mem, if_neg fun both => notNew both.1,
        if_neg fun both => notOld both.1, entered.mem,
        if_neg fun both => (cloned.apart pdi earlier some_).1 both.1]
      exact cloned.table pdi earlier t at_ k inside
    · cases at_.symm.trans here
      rw [update_self, loop.mem, if_pos ⟨rfl, inside⟩, pptStart]
      rcases cloned.old tableUsed inside with same | same
      · rw [same]
      · rw [same, childPte_sharedPte]
  · intro t k table inside
    by_cases same : t = ppt
    · subst same
      rw [loop.mem, if_neg fun both => apart both.1, if_pos ⟨rfl, inside⟩, pptStart]
      rcases cloned.old tableUsed inside with same | same
      · rw [same]
      · rw [same, sharedPte_idem]
    · obtain ⟨pdi, below, at_⟩ := ((isTable_succ here t).mp table).resolve_right same
      have otherUsed : ¬m.pmm.Free t := (used.table pdi (Nat.lt_trans below within) t at_).1
      have notNew : t ≠ cpt := fun is => otherUsed (is ▸ freeBefore)
      have notChild : t ≠ child := fun is => cloned.not_taken otherUsed (.inl is)
      rw [loop.mem, if_neg fun both => notNew both.1, if_neg fun both => same both.1,
        entered.mem, if_neg fun both => notChild both.1]
      exact cloned.shared t k ⟨pdi, below, at_⟩ inside
  · intro f k notTaken past
    have notBefore : ¬Taken m parent child new count f := fun before =>
      notTaken ((taken_succ here cpt f).mpr (.inl before))
    have notNew : f ≠ cpt := fun same => notTaken ((taken_succ here cpt f).mpr (.inr same))
    have notChild : f ≠ child := fun same => notBefore (.inl same)
    have outside : ¬(f = ppt ∧ k < ptrsPerTable) := fun ⟨same, inside⟩ =>
      Nat.not_le.mpr inside (past ((isTable_succ here f).mpr (.inr same)))
    rw [loop.mem, if_neg fun both => notNew both.1, if_neg outside, entered.mem,
      if_neg fun both => notChild both.1]
    exact cloned.kept f k notBefore fun table => past ((isTable_succ here f).mpr (.inl table))
  · intro f
    rw [loop.bitmap, entered.bitmap, cloned.bitmap, taken_succ here, or_assoc]
  · intro f either
    have managed : f < start.pmm.managedPages := by
      rw [managed_eq entered.fixed]
      rcases (taken_succ here cpt f).mp either with before | same
      · exact (cloned.free f before).1
      · exact same ▸ freeBefore.1
    rw [loop.refcnt, if_pos managed, refsStart]
    rcases (taken_succ here cpt f).mp either with before | same
    · have notNew : f ≠ cpt := fun same => fresh (same ▸ before)
      have total := used.refsBelow_free (cloned.free f before)
        (Nat.mul_le_mul_right ptrsPerTable (Nat.succ_le_of_lt within))
      rw [refsBelow_succ here] at total
      have none : m.tableRefs ppt ptrsPerTable f = 0 := by omega
      rw [entered.refcnt f notNew, cloned.counted f before, none, Pmm.satAdd_zero]
    · rw [same, entered.counted, unreferenced, Pmm.satAdd_zero]
  · intro f notTaken
    have notBefore : ¬Taken m parent child new count f := fun before =>
      notTaken ((taken_succ here cpt f).mpr (.inl before))
    have notNew : f ≠ cpt := fun same => notTaken ((taken_succ here cpt f).mpr (.inr same))
    rw [loop.refcnt, managed_eq entered.fixed, entered.refcnt f notNew, cloned.refcnt f notBefore,
      refsStart, refsBelow_succ here]
    split
    · rw [Pmm.satAdd_add]
    · rfl

theorem Allocated.cloned (taking : Allocated m n child) (parent : Nat) :
    Cloned m parent child new 0 (n.clearFrame child) := by
  have taken : ∀ f, Taken m parent child new 0 f ↔ f = child := by
    intro f
    refine ⟨fun either => ?_, .inl⟩
    rcases either with root | ⟨pdi, below, -⟩
    · exact root
    · exact absurd below (Nat.not_lt_zero pdi)
  have noTable : ∀ f, ¬m.IsTable parent 0 f := fun f ⟨pdi, below, _⟩ => Nat.not_lt_zero pdi below
  refine { fixed := taking.fixed, entry := ?_, free := ?_, apart := ?_, table := ?_, shared := ?_,
           kept := ?_, bitmap := ?_, counted := ?_, refcnt := ?_ }
  · intro pdi _
    rw [if_neg fun both => Nat.not_lt_zero pdi both.1]
    exact congrFun (update_self child (fun _ => 0) n.mem) pdi
  · intro f taking_
    exact (taken f).mp taking_ ▸ taking.free
  · intro pdi below
    exact absurd below (Nat.not_lt_zero pdi)
  · intro pdi below
    exact absurd below (Nat.not_lt_zero pdi)
  · intro t k table
    exact (noTable t table).elim
  · intro f k free _
    have apart : f ≠ child := fun same => free ((taken f).mpr same)
    rw [← taking.mem]
    exact congrFun (update_of_ne apart ..) k
  · intro f
    rw [taken]
    exact taking.bitmap f
  · intro f same
    exact (taken f).mp same ▸ taking.counted
  · intro f free
    have none : m.refsBelow parent (0 * ptrsPerTable) f = 0 := by
      rw [Nat.zero_mul]
      exact Nat.count_zero _
    rw [none, Pmm.satAdd_zero, ite_self]
    exact taking.refcnt f fun same => free ((taken f).mpr same)

def Progress (m : Mm) (parent child count : Nat) (state : Mm × Option Nat) : Prop :=
  match state.2 with
  | none => ∃ new, Cloned m parent child new count state.1
  | some failed => failed < userPdis ∧ (m.tableOf parent failed).isSome ∧
      (∀ f, kernelLoadPage ≤ f → ¬state.1.pmm.Free f) ∧
      ∃ new, Cloned m parent child new failed state.1

theorem Progress.cloneEntry (used : InUse m parent) (within : count < userPdis)
    {state : Mm × Option Nat} (progress : Progress m parent child count state) :
    Progress m parent child (count + 1) (cloneEntry parent child count state) := by
  obtain ⟨n, failed⟩ := state
  cases failed with
  | some failed => exact progress
  | none =>
    obtain ⟨new, cloned⟩ := progress
    have same : n.tableOf parent count = m.tableOf parent count :=
      tableOf_congr (cloned.parentEntry used (Nat.le_of_lt within) count)
    simp only [Mm.cloneEntry, Option.isSome_none, Bool.false_eq_true, if_false, same]
    cases here : m.tableOf parent count with
    | none => exact ⟨new, cloned.skip here⟩
    | some ppt =>
      obtain ⟨allocated, frame, result⟩ : ∃ allocated frame, n.allocPage = (allocated, frame) :=
        ⟨_, _, rfl⟩
      simp only [result]
      cases frame with
      | none =>
        obtain ⟨rfl, noneFree⟩ := allocPage_eq_none result
        exact ⟨within, by rw [here]; rfl, noneFree, new, cloned⟩
      | some cpt =>
        have taking := allocPage_eq_some result
        exact ⟨_, cloned.extend used within here taking.free (cloned.enter used within taking)⟩

theorem progress_userHalf (used : InUse m parent) (taking : Allocated m n child) :
    Progress m parent child userPdis
      (forRange userPdis (cloneEntry parent child) (n.clearFrame child, none)) :=
  forRange_invariant (fun count state => Progress m parent child count state)
    ⟨id, taking.cloned parent⟩ fun _ _ within progress => progress.cloneEntry used within

end Forward

end Mm

end CatOs.Memory
