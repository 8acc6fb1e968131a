import CatOs.Memory.Entries

/-! The pages that a directory maps, and how often it references each frame. -/

namespace CatOs.Memory

def userPages : Nat := userPdis * ptrsPerTable

namespace Mm

variable (m : Mm)

def pteOf (dir vpn : Nat) : Word :=
  match m.tableOf dir (vpn / ptrsPerTable) with
  | none => 0
  | some table => m.mem table (vpn % ptrsPerTable)

def Maps (dir vpn frame : Nat) : Prop :=
  Present (m.pteOf dir vpn) ∧ pfn (m.pteOf dir vpn) = frame

instance (dir vpn frame : Nat) : Decidable (m.Maps dir vpn frame) :=
  inferInstanceAs (Decidable (_ ∧ _))

def tableRefs (table count frame : Nat) : Nat :=
  Nat.count (fun pti => Present (m.mem table pti) ∧ pfn (m.mem table pti) = frame) count

theorem tableRefs_succ (table count frame : Nat) :
    m.tableRefs table (count + 1) frame = m.tableRefs table count frame +
      if Present (m.mem table count) ∧ pfn (m.mem table count) = frame then 1 else 0 :=
  Nat.count_succ _ _

def refsBelow (dir count frame : Nat) : Nat :=
  Nat.count (fun vpn => m.Maps dir vpn frame) count

def fixed : Word × Word × Bool × Nat :=
  (m.cr3, m.kernelPdPhys, m.finalPagingActive, m.pmm.managedPages)

section Primitives

variable {m} {f k : Nat}

theorem mem_setEntry (frame i : Nat) (word : Word) :
    (m.setEntry frame i word).mem f k = if f = frame ∧ k = i then word else m.mem f k := by
  unfold setEntry
  by_cases here : f = frame
  · subst here
    dsimp only
    rw [Function.update_self]
    by_cases at_ : k = i
    · rw [if_pos ⟨rfl, at_⟩, at_, Function.update_self]
    · rw [if_neg fun both => at_ both.2, Function.update_of_ne at_]
  · dsimp only
    rw [if_neg fun both => here both.1, Function.update_of_ne here]

@[simp] theorem pmm_setEntry (frame i : Nat) (word : Word) : (m.setEntry frame i word).pmm = m.pmm :=
  rfl

@[simp] theorem fixed_setEntry (frame i : Nat) (word : Word) :
    (m.setEntry frame i word).fixed = m.fixed :=
  rfl

@[simp] theorem mem_refInc (phys : Word) : (m.refInc phys).mem = m.mem :=
  rfl

@[simp] theorem mem_refDec (phys : Word) : (m.refDec phys).mem = m.mem :=
  rfl

@[simp] theorem mem_freePage (phys : Word) : (m.freePage phys).mem = m.mem :=
  rfl

@[simp] theorem fixed_refInc (phys : Word) : (m.refInc phys).fixed = m.fixed := by
  simp only [fixed, refInc, Pmm.managedPages_pageRefInc]

@[simp] theorem fixed_refDec (phys : Word) : (m.refDec phys).fixed = m.fixed := by
  simp only [fixed, refDec, Pmm.managedPages_pageRefDec]

@[simp] theorem fixed_freePage (phys : Word) : (m.freePage phys).fixed = m.fixed := by
  unfold freePage fixed Pmm.pmmFreePage
  split
  · rfl
  · simp only [Pmm.managedPages_markPageFree]

structure Allocated (m n : Mm) (frame : Nat) : Prop where
  free : m.pmm.Free frame
  above : kernelLoadPage ≤ frame
  fixed : n.fixed = m.fixed
  mem : n.mem = m.mem
  bitmap : ∀ g, n.pmm.pmmBitmap g = true ↔ m.pmm.pmmBitmap g = true ∨ g = frame
  counted : n.pmm.pageRefcnt frame = 1
  refcnt : ∀ g, g ≠ frame → n.pmm.pageRefcnt g = m.pmm.pageRefcnt g

theorem allocPage_eq_some {n : Mm} {frame : Nat} (taken : m.allocPage = (n, some frame)) :
    Allocated m n frame := by
  obtain ⟨q, found, result⟩ : ∃ q found, m.pmm.pmmAllocPage = (q, found) := ⟨_, _, rfl⟩
  simp only [allocPage, result, Prod.mk.injEq] at taken
  obtain ⟨rfl, rfl⟩ := taken
  obtain ⟨free, above, managed, bitmap, refcnt⟩ := Pmm.pmmAllocPage_eq_some result
  have fixed : ({ m with pmm := q } : Mm).fixed = m.fixed := by
    simp only [Mm.fixed, managed]
  refine { free, above, fixed, mem := rfl, bitmap := fun g => ?_, counted := ?_, refcnt := ?_ }
  · rw [bitmap, Pmm.pmmBitmap_markPageUsed]
    split
    · rename_i here
      exact ⟨fun _ => .inr here.1, fun _ => rfl⟩
    · rename_i apart
      exact ⟨.inl, fun either => either.resolve_right fun here => apart ⟨here, free.1⟩⟩
  · rw [refcnt, Pmm.pageRefcnt_markPageUsed, if_pos ⟨rfl, free⟩]
  · intro g apart
    rw [refcnt, Pmm.pageRefcnt_markPageUsed, if_neg fun both => apart both.1]

theorem allocPage_eq_none {n : Mm} (failed : m.allocPage = (n, none)) :
    n = m ∧ ∀ f, kernelLoadPage ≤ f → ¬m.pmm.Free f := by
  obtain ⟨q, found, result⟩ : ∃ q found, m.pmm.pmmAllocPage = (q, found) := ⟨_, _, rfl⟩
  simp only [allocPage, result, Prod.mk.injEq] at failed
  obtain ⟨rfl, rfl⟩ := failed
  obtain ⟨rfl, taken⟩ := Pmm.pmmAllocPage_eq_none result
  exact ⟨rfl, taken⟩

theorem managed_eq {n : Mm} (same : n.fixed = m.fixed) :
    n.pmm.managedPages = m.pmm.managedPages :=
  congrArg (fun all => all.2.2.2) same

end Primitives

section Table

variable {m} {dir pdi : Nat}

theorem tableOf_eq {entry : Word} (here : m.mem dir pdi = entry) :
    m.tableOf dir pdi =
      if hasFlag entry pagePresent = true ∧ hasFlag entry pagePse = false then some (pfn entry)
      else none := by
  simp only [tableOf, here, pfn_and_pageFrameMask]
  cases hasFlag entry pagePresent <;> cases hasFlag entry pagePse <;> rfl

theorem tableOf_congr {n : Mm} {other : Nat} (same : n.mem other pdi = m.mem dir pdi) :
    n.tableOf other pdi = m.tableOf dir pdi := by
  rw [tableOf_eq same, tableOf_eq rfl]

theorem tableOf_zero (empty : m.mem dir pdi = 0) : m.tableOf dir pdi = none := by
  rw [tableOf_eq empty]
  rfl

theorem pteOf_table {table pti : Nat} (here : m.tableOf dir pdi = some table)
    (within : pti < ptrsPerTable) :
    m.pteOf dir (pdi * ptrsPerTable + pti) = m.mem table pti := by
  have quotient : (pdi * ptrsPerTable + pti) / ptrsPerTable = pdi := by
    simp only [ptrsPerTable] at *
    omega
  have remainder : (pdi * ptrsPerTable + pti) % ptrsPerTable = pti := by
    simp only [ptrsPerTable] at *
    omega
  simp only [pteOf, quotient, remainder, here]

theorem pteOf_none {vpn : Nat} (none : m.tableOf dir (vpn / ptrsPerTable) = none) :
    m.pteOf dir vpn = 0 := by
  simp only [pteOf, none]

theorem exists_table {vpn : Nat} (present : Present (m.pteOf dir vpn)) :
    ∃ table, m.tableOf dir (vpn / ptrsPerTable) = some table ∧
      m.pteOf dir vpn = m.mem table (vpn % ptrsPerTable) := by
  cases here : m.tableOf dir (vpn / ptrsPerTable) with
  | none =>
    rw [pteOf_none here] at present
    exact (not_present_zero present).elim
  | some table => exact ⟨table, rfl, by simp only [pteOf, here]⟩

theorem div_lt_userPdis {vpn : Nat} (user : vpn < userPages) : vpn / ptrsPerTable < userPdis := by
  simp only [userPages, userPdis, ptrsPerTable] at *
  omega

theorem refsBelow_table {table : Nat} (here : m.tableOf dir pdi = some table) (count frame : Nat)
    (within : count ≤ ptrsPerTable) :
    m.refsBelow dir (pdi * ptrsPerTable + count) frame =
      m.refsBelow dir (pdi * ptrsPerTable) frame + m.tableRefs table count frame := by
  rw [refsBelow, Nat.count_add]
  refine congrArg _ (count_congr fun pti below => ?_)
  rw [Maps, pteOf_table here (Nat.lt_of_lt_of_le below within)]

theorem refsBelow_none (none : m.tableOf dir pdi = none) (frame : Nat) :
    m.refsBelow dir ((pdi + 1) * ptrsPerTable) frame =
      m.refsBelow dir (pdi * ptrsPerTable) frame := by
  rw [Nat.succ_mul]
  refine count_stretch_eq fun pti below mapped => ?_
  have quotient : (pdi * ptrsPerTable + pti) / ptrsPerTable = pdi := by
    simp only [ptrsPerTable] at *
    omega
  have empty := mapped.1
  rw [pteOf_none (by rw [quotient, none])] at empty
  exact not_present_zero empty

end Table

end Mm

end CatOs.Memory
