import CatOs.Memory.Paging

/-! The check of user pointers: which ranges it admits, and where it admits too much. -/

namespace CatOs.Memory

def userLimit : Word := 0xBFC00000

def nextPage (p : Word) : Word := (p &&& pageFrameMask) + 4096

namespace Mm

variable (m : Mm)

def currentPde (p : Word) : Word := m.mem (pfn m.cr3) (pdeIndex p)

def currentPte (p : Word) : Word := m.mem (pfn (m.currentPde p &&& pageFrameMask)) (pteIndex p)

def pageAccessOk (w p : Word) : Bool :=
  let d := m.currentPde p
  if !hasFlag d pagePresent || !hasFlag d pageUser then false
  -- Of a large page nothing more is asked.
  else if hasFlag d pagePse then true
  else
    let x := m.currentPte p
    !(!hasFlag x pagePresent || !hasFlag x pageUser ||
      (w != 0 && !hasFlag x pageRw && !hasFlag x pageCow))

def accessLoop (w e : Word) : Nat → Word → Option Bool
  | 0, _ => none
  | fuel + 1, p =>
    if p < e then
      if m.pageAccessOk w p then accessLoop w e fuel (nextPage p) else some false
    else some true

def userAccessOk (fuel : Nat) (v n w : Word) : Option Bool :=
  if n = 0 then some true
  else if v < 0x1000 ∨ n > userLimit - v then some false
  else m.accessLoop w (v + n) fuel v

def Admits (v n w : Word) : Prop := ∃ fuel, m.userAccessOk fuel v n w = some true

def UserPage (a : Word) : Prop :=
  hasFlag (m.currentPde a) pagePresent = true ∧ hasFlag (m.currentPde a) pageUser = true ∧
    (hasFlag (m.currentPde a) pagePse = false →
      hasFlag (m.currentPte a) pagePresent = true ∧ hasFlag (m.currentPte a) pageUser = true)

/--
The page of an address is writable, or is to be copied before it is written.

A large page is writable if its entry says so, and a small one if both of its entries do.
-/
def MayWrite (a : Word) : Prop :=
  if hasFlag (m.currentPde a) pagePse then
    hasFlag (m.currentPde a) pageRw = true ∨ hasFlag (m.currentPde a) pageCow = true
  else
    (hasFlag (m.currentPde a) pageRw = true ∧ hasFlag (m.currentPte a) pageRw = true) ∨
      hasFlag (m.currentPte a) pageCow = true

def Unchecked (a : Word) : Prop :=
  if hasFlag (m.currentPde a) pagePse then
    hasFlag (m.currentPde a) pageRw = true ∨ hasFlag (m.currentPde a) pageCow = true
  else hasFlag (m.currentPde a) pageRw = true ∨ hasFlag (m.currentPte a) pageCow = true

section Loop

variable {m} {w e : Word}

theorem pageAccessOk_congr {a p : Word} (same : a >>> 12 = p >>> 12) :
    m.pageAccessOk w a = m.pageAccessOk w p := by
  have split : ∀ x : Word, x >>> 22 = x >>> 12 >>> 10 := fun x =>
    BitVec.shiftRight_add x 12 10
  have table : pdeIndex a = pdeIndex p := by
    rw [pdeIndex, pdeIndex, split a, split p, same]
  have entry : pteIndex a = pteIndex p := by
    rw [pteIndex, pteIndex, same]
  unfold pageAccessOk currentPte currentPde
  rw [table, entry]

theorem toNat_nextPage {p : Word} (low : p.toNat < 4294963200) :
    (nextPage p).toNat = p.toNat / 4096 * 4096 + 4096 := by
  have mask : pageFrameMask = (BitVec.allOnes 32 >>> 12) <<< 12 := by decide
  have rounded : (p &&& pageFrameMask).toNat = p.toNat / 4096 * 4096 := by
    rw [mask, and_highOnes]
    exact toNat_clearLow p 12
  rw [nextPage, BitVec.toNat_add, rounded]
  show (p.toNat / 4096 * 4096 + 4096) % 4294967296 = _
  omega

theorem pageAccessOk_of_accessLoop (low : e.toNat ≤ 4294963200) {fuel : Nat} {p : Word}
    (passed : m.accessLoop w e fuel p = some true) {a : Word} (from_ : p ≤ a) (below : a < e) :
    m.pageAccessOk w a = true := by
  induction fuel generalizing p with
  | zero => cases passed
  | succ fuel ih =>
    have inside : p < e := Nat.lt_of_le_of_lt from_ below
    simp only [accessLoop, if_pos inside] at passed
    split at passed
    swap
    · cases passed
    rename_i checked
    -- The address is on the page that was just checked, or on one that comes later.
    by_cases same : a.toNat / 4096 = p.toNat / 4096
    · rw [pageAccessOk_congr, checked]
      apply BitVec.eq_of_toNat_eq
      rw [BitVec.toNat_ushiftRight, BitVec.toNat_ushiftRight, Nat.shiftRight_eq_div_pow,
        Nat.shiftRight_eq_div_pow]
      exact same
    · refine ih passed ?_
      have insideNat : p.toNat < e.toNat := inside
      have fromNat : p.toNat ≤ a.toNat := from_
      show (nextPage p).toNat ≤ a.toNat
      rw [toNat_nextPage (by omega)]
      omega

theorem pageAccessOk_iff {a : Word} : m.pageAccessOk w a = true ↔ m.UserPage a ∧
    (w ≠ 0 → hasFlag (m.currentPde a) pagePse = false →
      hasFlag (m.currentPte a) pageRw = true ∨ hasFlag (m.currentPte a) pageCow = true) := by
  simp only [pageAccessOk, UserPage]
  generalize hasFlag (m.currentPde a) pagePresent = present
  generalize hasFlag (m.currentPde a) pageUser = user
  cases present <;> cases user <;> simp
  cases hasFlag (m.currentPde a) pagePse <;> simp
  tauto

theorem mayWrite_iff {a : Word} (passed : m.pageAccessOk w a = true) (writes : w ≠ 0) :
    m.MayWrite a ↔ m.Unchecked a := by
  have marked := (pageAccessOk_iff.mp passed).2 writes
  unfold MayWrite Unchecked
  split
  · exact Iff.rfl
  · rename_i small
    have marked := marked (by simpa using small)
    tauto

end Loop

def OnRange (v n : Word) (holds : Word → Prop) : Prop :=
  ∀ a, v ≤ a → a.toNat < v.toNat + n.toNat → holds a

theorem Admits.passed {m : Mm} {v n w : Word} (admits : m.Admits v n w) (positive : n ≠ 0)
    (low : v < userLimit) :
    0x1000 ≤ v ∧ v.toNat + n.toNat ≤ userLimit.toNat ∧
      OnRange v n fun a => m.pageAccessOk w a = true := by
  obtain ⟨fuel, ends⟩ := admits
  rw [userAccessOk, if_neg positive] at ends
  split at ends
  · cases ends
  rename_i inside
  rw [not_or] at inside
  have lowNat : v.toNat < 3217031168 := low
  -- Below the limit the subtraction of the guard does not wrap around.
  have room : n.toNat ≤ 3217031168 - v.toNat := by
    have fits : n ≤ userLimit - v := BitVec.not_lt.mp inside.2
    have fitsNat : n.toNat ≤ (userLimit - v).toNat := fits
    rw [BitVec.toNat_sub_of_le (Nat.le_of_lt low)] at fitsNat
    exact fitsNat
  have end_ : (v + n).toNat = v.toNat + n.toNat := by
    rw [BitVec.toNat_add]
    omega
  refine ⟨BitVec.not_lt.mp inside.1, ?_, fun a from_ below => ?_⟩
  · show v.toNat + n.toNat ≤ 3217031168
    omega
  · refine pageAccessOk_of_accessLoop ?_ ends from_ ?_
    · rw [end_]
      omega
    · show a.toNat < (v + n).toNat
      rw [end_]
      exact below

/--
The check is sound exactly where it does not wrap around and asks for all that a write needs.

A range that it admits must start below the limit, and on the pages of a range that is to be
written a large page must be writable or marked for copying, and a small one must be marked for
copying or have a directory entry that allows writing.
-/
theorem userAccessOk_sound_iff (m : Mm) {v n : Word} (w : Word) (positive : n ≠ 0) :
    (m.Admits v n w →
      v.toNat + n.toNat < 4294967296 ∧ 0x1000 ≤ v ∧ v.toNat + n.toNat ≤ userLimit.toNat ∧
        OnRange v n fun a => m.UserPage a ∧ (w ≠ 0 → m.MayWrite a)) ↔
    (m.Admits v n w → v < userLimit ∧ (w ≠ 0 → OnRange v n m.Unchecked)) := by
  have nonzero : 0 < n.toNat := by
    rw [Nat.pos_iff_ne_zero]
    intro zero
    exact positive (BitVec.eq_of_toNat_eq zero)
  constructor
  · intro sound admits
    obtain ⟨-, -, fits, pages⟩ := sound admits
    have low : v < userLimit := by
      show v.toNat < userLimit.toNat
      omega
    obtain ⟨-, -, passed⟩ := admits.passed positive low
    refine ⟨low, fun writes a from_ below => ?_⟩
    exact (mayWrite_iff (passed a from_ below) writes).mp ((pages a from_ below).2 writes)
  · intro checked admits
    obtain ⟨low, asked⟩ := checked admits
    obtain ⟨start, fits, passed⟩ := admits.passed positive low
    have limit : userLimit.toNat = 3217031168 := by decide
    refine ⟨by omega, start, fits, fun a from_ below => ?_⟩
    have page := passed a from_ below
    refine ⟨(pageAccessOk_iff.mp page).1, fun writes => ?_⟩
    exact (mayWrite_iff page writes).mpr (asked writes a from_ below)

def oneFrame (entries : Nat → Word) : Mm :=
  { pmm := blankPmm 0, mem := fun frame => if frame = 1 then entries else fun _ => 0
    cr3 := 0x1000, kernelPdPhys := 0x1000, finalPagingActive := true }

/-- A large page that user code may write is admitted, and all that is asked of it holds. -/
theorem userAccessOk_sound_large :
    let m := oneFrame fun _ => pagePresent ||| pageUser ||| pageRw ||| pagePse
    m.Admits 0x400000 0x10 1 ∧
      (m.Admits 0x400000 0x10 1 →
        (0x400000 : Word).toNat + (0x10 : Word).toNat < 4294967296 ∧
        (0x1000 : Word) ≤ 0x400000 ∧
        (0x400000 : Word).toNat + (0x10 : Word).toNat ≤ userLimit.toNat ∧
        OnRange 0x400000 0x10 fun a => m.UserPage a ∧ ((1 : Word) ≠ 0 → m.MayWrite a)) := by
  intro m
  refine ⟨⟨2, by decide⟩, (userAccessOk_sound_iff m 1 (by decide)).mpr fun _ => ?_⟩
  refine ⟨by decide, fun _ a _ _ => ?_⟩
  have frame : pfn m.cr3 = 1 := by decide
  have entry : m.currentPde a = pagePresent ||| pageUser ||| pageRw ||| pagePse := by
    rw [currentPde, frame]
    rfl
  rw [Unchecked, entry, if_pos (by decide)]
  exact .inl (by decide)

/--
A range that wraps around the address space is admitted without a look at any page.

So is a range on a large page that nobody may write to, when it is to be written.
-/
theorem userAccessOk_admits_wrapped :
    ((oneFrame fun _ => 0).Admits 0xFFFFFF00 0x200 1 ∧
      4294967296 ≤ (0xFFFFFF00 : Word).toNat + (0x200 : Word).toNat ∧
      ¬(oneFrame fun _ => 0).UserPage 0xFFFFFF00) ∧
    let m := oneFrame fun _ => pagePresent ||| pageUser ||| pagePse
    m.Admits 0x400000 0x10 1 ∧ ¬m.MayWrite 0x400000 := by
  refine ⟨⟨⟨1, by decide⟩, by decide, ?_⟩, ⟨2, by decide⟩, ?_⟩
  · intro mapped
    exact absurd mapped.1 (by decide)
  · intro writable
    have asked : hasFlag (pagePresent ||| pageUser ||| pagePse) pageRw = true ∨
        hasFlag (pagePresent ||| pageUser ||| pagePse) pageCow = true := writable
    exact absurd asked (by decide)

end Mm

end CatOs.Memory
