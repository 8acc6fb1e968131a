import CatOs.Lib.Buffer
import CatOs.Lib.Word

/-! The allocator of the user library: a static pool of blocks with headers in front of them. -/

namespace CatOs.Libc

def heapPoolBytes : Nat := 524288

def heapAlign : Nat := 16

def hdrBytes : Nat := 16

def magicUsed : Word := 0xC7A051B0

def magicFree : Word := 0xC7A051B1

structure Pool where
  start : Nat
  start_aligned : start % 16 = 0
  start_pos : 0 < start
  stop_lt : start + 524288 < 4294967296

def Pool.stop (pool : Pool) : Nat := pool.start + heapPoolBytes

structure Heap where
  mem : Buffer Word
  freeHead : Word
  ready : Bool

def zeroHeap : Heap := { mem := fun _ => 0, freeHead := 0, ready := false }

namespace Heap

variable (h : Heap) (b : Nat)

def size : Nat := (h.mem b).toNat

def nextFree : Nat := (h.mem (b + 4)).toNat

def magic : Word := h.mem (b + 8)

def write (address : Nat) (value : Word) : Heap :=
  { h with mem := Function.update h.mem address value }

def setSize (n : Nat) : Heap := h.write b (BitVec.ofNat 32 n)

def setNextFree (n : Nat) : Heap := h.write (b + 4) (BitVec.ofNat 32 n)

def setMagic (mark : Word) : Heap := h.write (b + 8) mark

end Heap

inductive Link where
  /-- The variable that holds the first free block. -/
  | head
  /-- The pointer in the header of a block. -/
  | next (b : Nat)
  deriving DecidableEq, Repr

def Heap.store (h : Heap) (link : Link) (n : Nat) : Heap :=
  match link with
  | .head => { h with freeHead := BitVec.ofNat 32 n }
  | .next b => h.setNextFree b n

def nextBlock (h : Heap) (b : Nat) : Nat := b + hdrBytes + h.size b

structure Sweep where
  heap : Heap
  cur : Nat
  link : Link
  run : Nat

def sweepBlock (s : Sweep) : Sweep :=
  let h := s.heap
  let s :=
    if h.magic s.cur = magicFree then
      if s.run ≠ 0 then
        { s with heap := h.setSize s.run (h.size s.run + (hdrBytes + h.size s.cur)) }
      else { s with run := s.cur, heap := h.store s.link s.cur, link := .next s.cur }
    else { s with run := 0 }
  { s with cur := nextBlock s.heap s.cur }

def sweep : Nat → Nat → Sweep → Sweep
  | 0, _, s => s
  | fuel + 1, tail, s => if s.cur < tail then sweep fuel tail (sweepBlock s) else s

/--
Rebuild the list of free blocks and merge the ones that are adjacent.

Every block has a header, which bounds their number.
-/
def heapCoalesce (pool : Pool) (h : Heap) : Heap :=
  let s := sweep (heapPoolBytes / hdrBytes + 1) pool.stop
    { heap := h, cur := pool.start, link := .head, run := 0 }
  s.heap.store s.link 0

def heapInit (pool : Pool) (h : Heap) : Heap :=
  let b := pool.start
  let h := ((h.setSize b (heapPoolBytes - hdrBytes)).setMagic b magicFree).setNextFree b 0
  { h with freeHead := BitVec.ofNat 32 b, ready := true }

def takeBlock (h : Heap) (req : Nat) (prev : Link) (b : Nat) : Heap :=
  let h :=
    if h.size b ≥ req + hdrBytes + heapAlign then
      -- What is left over becomes a free block in the place of the one taken.
      let rem := b + hdrBytes + req
      let h := h.setSize rem (h.size b - req - hdrBytes)
      let h := h.setMagic rem magicFree
      let h := h.setNextFree rem (h.nextFree b)
      (h.store prev rem).setSize b req
    else h.store prev (h.nextFree b)
  (h.setMagic b magicUsed).setNextFree b 0

def mallocFrom : Nat → Nat → Link → Nat → Heap → Heap × Nat
  | 0, _, _, _, h => (h, 0)
  | fuel + 1, req, prev, b, h =>
    if b = 0 then (h, 0)
    else if h.size b < req then mallocFrom fuel req (.next b) (h.nextFree b) h
    else (takeBlock h req prev b, b + hdrBytes)

def Heap.begun (pool : Pool) (h : Heap) : Heap := if h.ready then h else heapInit pool h

def roundUp (size : Word) : Word := (size + 15) &&& ~~~15

def malloc (pool : Pool) (size : Word) (h : Heap) : Heap × Nat :=
  let h := h.begun pool
  let size := if size = 0 then 1 else size
  if size.toNat > heapPoolBytes then (h, 0)
  else mallocFrom (heapPoolBytes / hdrBytes + 1) (roundUp size).toNat .head h.freeHead.toNat h

def free (pool : Pool) (p : Nat) (h : Heap) : Heap :=
  if p = 0 then h
  else if p % heapAlign ≠ 0 then h
  else
    let b := p - hdrBytes
    if b < pool.start ∨ p > pool.stop ∨ (p + h.size b) % 4294967296 > pool.stop then h
    else if h.magic b ≠ magicUsed then h
    else heapCoalesce pool (h.setMagic b magicFree)

end CatOs.Libc
