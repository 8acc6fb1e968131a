import CatOs.Memory.Pmm

/-! Page directories in physical memory: mapping, cloning with copy on write, and destruction. -/

namespace CatOs.Memory

section Flags

def pagePresent : Word := 0x001

def pageRw : Word := 0x002

def pageUser : Word := 0x004

def pagePwt : Word := 0x008

def pagePcd : Word := 0x010

def pageAccessed : Word := 0x020

def pageDirty : Word := 0x040

def pagePse : Word := 0x080

def pageCow : Word := 0x800

end Flags

def kernelVirtBase : Word := 0xC0000000

@[irreducible] def ptrsPerTable : Nat := 1024

@[irreducible] def userPdis : Nat := 768

def pdeIndex (va : Word) : Nat :=
  ((va >>> 22) &&& 0x3FF).toNat

def pteIndex (va : Word) : Nat :=
  ((va >>> 12) &&& 0x3FF).toNat

structure Mm where
  pmm : Pmm
  mem : Nat → Nat → Word
  cr3 : Word
  kernelPdPhys : Word
  finalPagingActive : Bool

namespace Mm

variable (m : Mm)

def setEntry (frame i : Nat) (word : Word) : Mm :=
  { m with mem := Function.update m.mem frame (Function.update (m.mem frame) i word) }

def clearFrame (frame : Nat) : Mm :=
  { m with mem := Function.update m.mem frame fun _ => 0 }

def allocPage : Mm × Option Nat :=
  let (pmm, frame) := m.pmm.pmmAllocPage
  ({ m with pmm := pmm }, frame)

def freePage (phys : Word) : Mm :=
  { m with pmm := m.pmm.pmmFreePage phys }

def refInc (phys : Word) : Mm :=
  { m with pmm := m.pmm.pageRefInc phys }

def refDec (phys : Word) : Mm :=
  { m with pmm := (m.pmm.pageRefDec phys).1 }

def tableOf (dir pdi : Nat) : Option Nat :=
  let pde := m.mem dir pdi
  if !hasFlag pde pagePresent || hasFlag pde pagePse then none
  else some (pfn (pde &&& pageFrameMask))

def walkPte (pdPhys va : Word) : Option (Nat × Nat) :=
  (m.tableOf (pfn pdPhys) (pdeIndex va)).map fun table => (table, pteIndex va)

section Destroy

def dropPte (table pti : Nat) (m : Mm) : Mm :=
  let pte := m.mem table pti
  if !hasFlag pte pagePresent then m
  else
    let (pmm, left) := m.pmm.pageRefDec (pte &&& pageFrameMask)
    let m := { m with pmm := pmm }
    if left = 0 then m.freePage (pte &&& pageFrameMask) else m

def destroyEntry (dir pdi : Nat) (m : Mm) : Mm :=
  let ptPhys := m.mem dir pdi &&& pageFrameMask
  match m.tableOf dir pdi with
  | none => m
  | some table =>
    let m := forRange ptrsPerTable (dropPte table) m
    (m.freePage ptPhys).setEntry dir pdi 0

def refusesDestroy (pdPhys : Word) : Bool :=
  pdPhys = 0 ∨ pdPhys &&& pageOffsetMask ≠ 0 ∨ pdPhys = m.kernelPdPhys ∨ pdPhys = m.cr3

def pagingDestroyAddressSpace (pdPhys : Word) : Mm :=
  if m.refusesDestroy pdPhys then m
  else (forRange userPdis (destroyEntry (pfn pdPhys)) m).freePage pdPhys

end Destroy

section Clone

def cowPte (pte : Word) : Word :=
  (pte &&& pageFrameMask) ||| pagePresent ||| pageUser ||| pageCow

def childPde (table : Nat) (pde : Word) : Word :=
  pageAddr table ||| pagePresent ||| pageRw ||| (pde &&& (pageUser ||| pagePwt ||| pagePcd))

def clonePte (ppt cpt pti : Nat) (m : Mm) : Mm :=
  let pte := m.mem ppt pti
  if !hasFlag pte pagePresent then m.setEntry cpt pti 0
  else
    let m :=
      if hasFlag pte pageUser && hasFlag pte pageRw then
        (m.setEntry cpt pti (cowPte pte)).setEntry ppt pti (cowPte pte)
      else m.setEntry cpt pti pte
    m.refInc (pte &&& pageFrameMask)

def cloneEntry (parent child pdi : Nat) (state : Mm × Option Nat) : Mm × Option Nat :=
  let (m, failed) := state
  if failed.isSome then state
  else
    match m.tableOf parent pdi with
    | none => state
    | some ppt =>
      match m.allocPage with
      | (m, none) => (m, some pdi)
      | (m, some cpt) =>
        let m := m.setEntry child pdi (childPde cpt (m.mem parent pdi))
        (forRange ptrsPerTable (clonePte ppt cpt) m, none)

def undoPte (ppt : Option Nat) (cpt pti : Nat) (m : Mm) : Mm :=
  let cpte := m.mem cpt pti
  if !hasFlag cpte pagePresent then m
  else
    let phys := cpte &&& pageFrameMask
    let m :=
      match ppt with
      | some ppt =>
        if hasFlag cpte pageCow then
          m.setEntry ppt pti (phys ||| pagePresent ||| pageUser ||| pageRw)
        else m
      | none => m
    m.refDec phys

def undoEntry (parent child undo : Nat) (m : Mm) : Mm :=
  let pde := m.mem child undo
  if !hasFlag pde pagePresent then m
  else
    let cpt := pfn (pde &&& pageFrameMask)
    let m := forRange ptrsPerTable (undoPte (m.tableOf parent undo) cpt) m
    m.freePage (pde &&& pageFrameMask)

def cloneKernelHalf (parent child : Nat) (m : Mm) : Mm :=
  forRange (ptrsPerTable - userPdis)
    (fun i m => m.setEntry child (userPdis + i) (m.mem parent (userPdis + i))) m

def pagingCloneAddressSpace (parentPdPhys : Word) : Mm × Option Word :=
  if parentPdPhys = 0 ∨ parentPdPhys &&& pageOffsetMask ≠ 0 then (m, none)
  else
    match m.allocPage with
    | (m, none) => (m, none)
    | (m, some child) =>
      let parent := pfn parentPdPhys
      match forRange userPdis (cloneEntry parent child) (m.clearFrame child, none) with
      | (m, none) => (cloneKernelHalf parent child m, some (pageAddr child))
      | (m, some pdi) =>
        ((forRange pdi (undoEntry parent child) m).freePage (pageAddr child), none)

end Clone

section Fault

def faultWrite : Word := 0x2

def copiedPte (frame : Nat) : Word :=
  pageAddr frame ||| pagePresent ||| pageUser ||| pageRw ||| pageAccessed ||| pageDirty

def pagingHandleCowFault (cr2 errorCode : Word) : Mm × Int :=
  if !hasFlag errorCode faultWrite then (m, -1)
  else if cr2 ≥ kernelVirtBase then (m, -1)
  else
    match m.walkPte m.cr3 cr2 with
    | none => (m, -1)
    | some (table, pti) =>
      let pte := m.mem table pti
      if !hasFlag pte pagePresent || !hasFlag pte pageUser || hasFlag pte pageRw ||
          !hasFlag pte pageCow then (m, -1)
      else
        let oldPhys := pte &&& pageFrameMask
        if m.pmm.pageRefGet oldPhys > 1 then
          match m.allocPage with
          | (m, none) => (m, -12)
          | (m, some frame) =>
            let m := { m with mem := Function.update m.mem frame (m.mem (pfn oldPhys)) }
            ((m.refDec oldPhys).setEntry table pti (copiedPte frame), 0)
        else (m.setEntry table pti ((pte ||| pageRw) &&& ~~~pageCow), 0)

end Fault

end Mm

end CatOs.Memory
