import CatOs.Lib.Run
import CatOs.Libc.HeapAlloc

/-! A process that allocates, frees and uses what it allocated, and what holds all along. -/

namespace CatOs.Libc

structure HeapSys where
  heap : Heap
  live : List (Nat × Nat)

inductive HeapOp where
  | malloc (size : Word)
  | free (p : Nat)
  | write (address : Nat) (value : Word)

def heapStep (pool : Pool) (op : HeapOp) (s : HeapSys) : HeapSys :=
  match op with
  | .malloc size =>
    { heap := (malloc pool size s.heap).1
      live := if (malloc pool size s.heap).2 = 0 then s.live
        else ((malloc pool size s.heap).2, size.toNat) :: s.live }
  | .free p => { heap := free pool p s.heap, live := s.live.filter fun a => a.1 ≠ p }
  | .write address value => { s with heap := s.heap.write address value }

def Disciplined (op : HeapOp) (s : HeapSys) : Prop :=
  match op with
  | .malloc _ => True
  | .free p => ∃ a ∈ s.live, a.1 = p
  | .write address _ => address % 4 = 0 ∧
      ∃ a ∈ s.live, a.1 ≤ address ∧ address < a.1 + s.heap.size (a.1 - hdrBytes)

instance (op : HeapOp) (s : HeapSys) : Decidable (Disciplined op s) :=
  match op with
  | .malloc _ => inferInstanceAs (Decidable True)
  | .free p => inferInstanceAs (Decidable (∃ a ∈ s.live, a.1 = p))
  | .write address _ => inferInstanceAs (Decidable (address % 4 = 0 ∧
      ∃ a ∈ s.live, a.1 ≤ address ∧ address < a.1 + s.heap.size (a.1 - hdrBytes)))

def zeroSys : HeapSys := { heap := zeroHeap, live := [] }

section Ownership

variable {live : List (Nat × Nat)} {front back blocks : List Block} {c : Block}

structure Owned (live : List (Nat × Nat)) (blocks : List Block) : Prop where
  pointers : (live.map Prod.fst).Perm ((usedBlocks blocks).map fun b => b.start + 16)
  large : ∀ a ∈ live, ∀ b ∈ usedBlocks blocks, a.1 = b.start + 16 → a.2 ≤ b.size

theorem Owned.block (owned : Owned live blocks) {a : Nat × Nat} (member : a ∈ live) :
    ∃ b ∈ blocks, b.free = false ∧ a.1 = b.start + 16 ∧ a.2 ≤ b.size := by
  have listed := owned.pointers.mem_iff.mp (List.mem_map_of_mem member)
  obtain ⟨b, used, start⟩ := List.mem_map.mp listed
  obtain ⟨within, mark⟩ := List.mem_filter.mp used
  exact ⟨b, within, Bool.not_eq_true' _ ▸ mark, start.symm, owned.large a member b used start.symm⟩

theorem Owned.congr {others : List Block} (owned : Owned live blocks)
    (same : usedBlocks others = usedBlocks blocks) : Owned live others :=
  ⟨same ▸ owned.pointers, same ▸ owned.large⟩

theorem usedBlocks_middle : usedBlocks (front ++ c :: back) =
    usedBlocks front ++ (usedBlocks [c] ++ usedBlocks back) := by
  rw [usedBlocks, List.filter_append]
  exact congrArg _ (List.filter_append [c] back)

theorem usedBlocks_carve {req : Nat} (large : req ≤ c.size) :
    ∃ u, usedBlocks (c.carve hdrBytes heapAlign req) = [u] ∧ u.start = c.start ∧ req ≤ u.size := by
  simp only [Block.carve]
  split
  · exact ⟨_, rfl, rfl, Nat.le_refl _⟩
  · exact ⟨_, rfl, rfl, large⟩

theorem Owned.malloc {first last : Nat} {size : Word} (owned : Owned live (front ++ c :: back))
    (filled : Fills hdrBytes first last (front ++ c :: back)) (free : c.free = true)
    (large : need size ≤ c.size) :
    Owned ((c.start + 16, size.toNat) :: live)
      (front ++ (c.carve hdrBytes heapAlign (need size) ++ back)) := by
  obtain ⟨u, made, start, room⟩ := usedBlocks_carve large
  have before : usedBlocks (front ++ c :: back) = usedBlocks front ++ usedBlocks back := by
    rw [usedBlocks_middle]
    simp [usedBlocks, free]
  have after : usedBlocks (front ++ (c.carve hdrBytes heapAlign (need size) ++ back)) =
      usedBlocks front ++ u :: usedBlocks back := by
    rw [usedBlocks, List.filter_append, List.filter_append]
    exact congrArg _ (congrArg (· ++ usedBlocks back) made)
  have elsewhere : ∀ b ∈ usedBlocks front ++ usedBlocks back, b.start ≠ c.start := by
    intro b member
    refine filled.start_ne (by decide) ?_
    rw [List.mem_append] at member ⊢
    exact member.imp List.mem_of_mem_filter List.mem_of_mem_filter
  obtain ⟨pointers, sizes⟩ := owned
  rw [before] at pointers sizes
  constructor
  · rw [after, List.map_append, List.map_cons, List.map_cons, start]
    refine List.Perm.trans (.cons _ ?_) List.perm_middle.symm
    rwa [List.map_append] at pointers
  · rw [after]
    intro a member b used same
    have around : b = u ∨ b ∈ usedBlocks front ++ usedBlocks back := by
      simp only [List.mem_append, List.mem_cons] at used ⊢
      exact or_left_comm.mp used
    rcases List.mem_cons.mp member with rfl | old
    · rcases around with rfl | other
      · exact (le_need size).trans room
      · exact absurd (Nat.add_right_cancel same).symm (elsewhere b other)
    · rcases around with rfl | other
      · -- What was live before lies in other blocks.
        have listed := pointers.mem_iff.mp (List.mem_map_of_mem old)
        obtain ⟨d, inside, begins⟩ := List.mem_map.mp listed
        exact absurd (by omega) (elsewhere d inside)
      · exact sizes a old b other same

theorem Owned.free {first last : Nat} (owned : Owned live (front ++ c :: back))
    (filled : Fills hdrBytes first last (front ++ c :: back)) (used : c.free = false) :
    Owned (live.filter fun a => a.1 ≠ c.start + 16)
      (front ++ { c with free := true } :: back) := by
  have before : usedBlocks (front ++ c :: back) =
      usedBlocks front ++ c :: usedBlocks back := by
    rw [usedBlocks_middle]
    simp [usedBlocks, used]
  have after : usedBlocks (front ++ { c with free := true } :: back) =
      usedBlocks front ++ usedBlocks back := by
    rw [usedBlocks_middle]
    simp [usedBlocks]
  have elsewhere : ∀ b ∈ usedBlocks front ++ usedBlocks back, b.start ≠ c.start := by
    intro b member
    refine filled.start_ne (by decide) ?_
    rw [List.mem_append] at member ⊢
    exact member.imp List.mem_of_mem_filter List.mem_of_mem_filter
  obtain ⟨pointers, sizes⟩ := owned
  rw [before] at pointers sizes
  have within : ∀ b ∈ usedBlocks front ++ usedBlocks back,
      b ∈ usedBlocks front ++ c :: usedBlocks back := by
    intro b member
    simp only [List.mem_append, List.mem_cons] at member ⊢
    exact member.imp_right .inr
  constructor
  · rw [after]
    have kept := pointers.filter fun p => p ≠ c.start + 16
    have trimmed : (usedBlocks front ++ c :: usedBlocks back).filter
        ((fun p => decide (p ≠ c.start + 16)) ∘ fun b => b.start + 16) =
        usedBlocks front ++ usedBlocks back := by
      rw [List.filter_append, List.filter_cons_of_neg (by simp), ← List.filter_append,
        List.filter_eq_self]
      intro b member
      have apart := elsewhere b member
      simpa using apart
    rw [List.filter_map, List.filter_map, trimmed] at kept
    exact kept
  · rw [after]
    intro a member b used same
    exact sizes a (List.mem_of_mem_filter member) b (within b used) same

end Ownership

section Invariant

variable {pool : Pool} {h : Heap} {s : HeapSys}

theorem ready_begun (pool : Pool) (h : Heap) : (h.begun pool).ready = true := by
  rw [Heap.begun]
  split
  · assumption
  · rfl

theorem begun_of_ready (ready : h.ready = true) : h.begun pool = h := if_pos ready

theorem malloc_begun (size : Word) : malloc pool size (h.begun pool) = malloc pool size h := by
  rw [malloc, begun_of_ready (ready_begun pool h), malloc]

structure SysOk (pool : Pool) (s : HeapSys) : Prop where
  idle : s.heap.ready = false → s.live = []
  ok : ∃ blocks, HeapOk pool (s.heap.begun pool) blocks ∧ Owned s.live blocks

theorem sysOk_zero (pool : Pool) : SysOk pool zeroSys :=
  ⟨fun _ => rfl, _, heapOk_init pool zeroHeap, ⟨.nil, nofun⟩⟩

theorem SysOk.malloc (inv : SysOk pool s) (size : Word) :
    SysOk pool (heapStep pool (.malloc size) s) := by
  obtain ⟨blocks, ok, owned⟩ := inv.ok
  have result := ok.malloc (ready_begun pool s.heap) size
  rw [malloc_begun] at result
  rw [heapStep]
  generalize CatOs.Libc.malloc pool size s.heap = outcome at result ⊢
  cases result with
  | none small =>
    refine ⟨fun unready => ?_, blocks, ?_, owned⟩
    · exact absurd ((ready_begun pool s.heap).symm.trans unready) (by decide)
    · rwa [begun_of_ready (ready_begun pool s.heap)]
  | some front back c here free large after ready ok' =>
    subst here
    have started : after.ready = true := ready.trans (ready_begun pool s.heap)
    have handed : ¬c.start + hdrBytes = 0 := by
      rw [hdrBytes]
      omega
    refine ⟨fun unready => absurd (started.symm.trans unready) (by decide),
      front ++ (c.carve hdrBytes heapAlign (need size) ++ back), ?_, ?_⟩
    · rwa [begun_of_ready started]
    · simp only [if_neg handed]
      exact owned.malloc ok.fills free large

theorem SysOk.ready (inv : SysOk pool s) {a : Nat × Nat} (member : a ∈ s.live) :
    s.heap.ready = true := by
  by_contra unready
  rw [inv.idle (Bool.not_eq_true _ ▸ unready)] at member
  cases member

theorem ready_heapCoalesce : (heapCoalesce pool h).ready = h.ready := by
  have scanned : ∀ s : Sweep, (sweepBlock s).heap.ready = s.heap.ready := by
    intro s
    simp only [sweepBlock]
    split
    · split
      · rfl
      · exact ready_store _ _
    · rfl
  have swept : ∀ fuel tail (s : Sweep), (sweep fuel tail s).heap.ready = s.heap.ready := by
    intro fuel tail
    induction fuel with
    | zero => exact fun _ => rfl
    | succ fuel ih =>
      intro s
      rw [sweep]
      split
      · rw [ih, scanned]
      · rfl
  rw [heapCoalesce, ready_store, swept]

theorem ready_free (p : Nat) : (free pool p h).ready = h.ready := by
  simp only [free]
  split
  · rfl
  split
  · rfl
  split
  · rfl
  split
  · rfl
  · exact ready_heapCoalesce

theorem SysOk.free (inv : SysOk pool s) {a : Nat × Nat} (member : a ∈ s.live) :
    SysOk pool (heapStep pool (.free a.1) s) := by
  have ready := inv.ready member
  obtain ⟨blocks, ok, owned⟩ := inv.ok
  rw [begun_of_ready ready] at ok
  obtain ⟨c, within, used, start, -⟩ := owned.block member
  obtain ⟨front, back, rfl⟩ := List.append_of_mem within
  have still : (CatOs.Libc.free pool a.1 s.heap).ready = true := (ready_free a.1).trans ready
  refine ⟨fun unready => absurd (still.symm.trans unready) (by decide),
    mergeFree hdrBytes (front ++ { c with free := true } :: back), ?_, ?_⟩
  · rw [heapStep]
    simp only
    rw [begun_of_ready still, start]
    exact ok.free used
  · rw [heapStep]
    simp only
    rw [start]
    exact (owned.free ok.fills used).congr usedBlocks_mergeFree

theorem SysOk.write (inv : SysOk pool s) {a : Nat × Nat} (member : a ∈ s.live) {address : Nat}
    (after : a.1 ≤ address) (before : address < a.1 + s.heap.size (a.1 - hdrBytes))
    (value : Word) : SysOk pool (heapStep pool (.write address value) s) := by
  have ready := inv.ready member
  obtain ⟨blocks, ok, owned⟩ := inv.ok
  rw [begun_of_ready ready] at ok
  obtain ⟨c, within, used, start, -⟩ := owned.block member
  have size : s.heap.size (a.1 - hdrBytes) = c.size := by
    rw [start, hdrBytes, Nat.add_sub_cancel, (ok.held c within).1]
  have still : (s.heap.write address value).ready = true := ready
  refine ⟨fun unready => absurd (still.symm.trans unready) (by decide), blocks, ?_, owned⟩
  rw [heapStep]
  simp only
  rw [begun_of_ready still]
  exact ok.write within (by omega) (by omega) value

theorem SysOk.step (inv : SysOk pool s) (op : HeapOp) (may : Disciplined op s) :
    SysOk pool (heapStep pool op s) := by
  cases op with
  | malloc size => exact inv.malloc size
  | free p =>
    obtain ⟨a, member, rfl⟩ := may
    exact inv.free member
  | write address value =>
    obtain ⟨-, a, member, after, before⟩ := may
    exact inv.write member after before value

end Invariant

section Soundness

variable {pool : Pool} {h : Heap} {s : HeapSys} {blocks : List Block}

theorem Laid.visits (laid : Laid pool h blocks) :
    Visits (nextBlock h) pool.start pool.stop (blocks.map Block.start) := by
  have visited : ∀ (blocks : List Block) (first last : Nat), Fills hdrBytes first last blocks →
      (∀ b ∈ blocks, h.Holds b) → Visits (nextBlock h) first last (blocks.map Block.start) := by
    intro blocks
    induction blocks with
    | nil => exact fun first last filled _ => filled
    | cons b rest ih =>
      intro first last filled held
      obtain ⟨here, later⟩ := List.forall_mem_cons.mp held
      refine ⟨filled.1, ?_⟩
      rw [nextBlock, here.1]
      exact ih _ _ filled.2 later
  exact visited blocks _ _ laid.fills laid.held

theorem Laid.magic_iff (laid : Laid pool h blocks) {b : Block} (member : b ∈ blocks) :
    h.magic b.start = magicFree ↔ b.free = true := by
  rw [(laid.held b member).2]
  cases b.free <;> decide

theorem Laid.frees_eq (laid : Laid pool h blocks) :
    (blocks.map Block.start).filter (fun b => h.magic b = magicFree) = frees blocks := by
  rw [List.filter_map, frees]
  refine congrArg _ (List.filter_congr fun b member => ?_)
  rw [Function.comp_apply, Bool.eq_iff_iff, decide_eq_true_iff]
  exact laid.magic_iff member

/--
What a process may rely on, in terms of the blocks reached from the start of the pool.

The first allocation is what initialises the pool, which until then counts as one free block.
-/
structure HeapSound (pool : Pool) (s : HeapSys) (blocks : List Nat) : Prop where
  /-- The blocks tile the pool. -/
  tiles : Visits (nextBlock (s.heap.begun pool)) pool.start pool.stop blocks
  aligned : ∀ b ∈ blocks, (b + hdrBytes) % heapAlign = 0
  ascending : blocks.Pairwise (· < ·)
  /-- The list of free blocks holds exactly the free blocks, in the order of addresses. -/
  linked : Linked (s.heap.begun pool).next (s.heap.begun pool).first
    (blocks.filter fun b => (s.heap.begun pool).magic b = magicFree)
  apart : blocks.IsChain fun a b =>
    ¬((s.heap.begun pool).magic a = magicFree ∧ (s.heap.begun pool).magic b = magicFree)
  /-- What is live is a block in use that is as large as was asked for. -/
  live : ∀ a ∈ s.live, ∃ b ∈ blocks, a.1 = b + hdrBytes ∧
    (s.heap.begun pool).magic b = magicUsed ∧ a.2 ≤ (s.heap.begun pool).size b
  distinct : (s.live.map Prod.fst).Nodup
  disjoint : s.live.Pairwise fun a b =>
    a.1 + (s.heap.begun pool).size (a.1 - hdrBytes) ≤ b.1 ∨
      b.1 + (s.heap.begun pool).size (b.1 - hdrBytes) ≤ a.1
  /-- An allocation fails exactly if no free block is large enough. -/
  fails : ∀ size, (malloc pool size s.heap).2 = 0 ↔
    ∀ b ∈ blocks, (s.heap.begun pool).magic b = magicFree → (s.heap.begun pool).size b < need size
  /-- When everything has been freed, the pool is one free block. -/
  whole : s.live = [] →
    blocks = [pool.start] ∧ (s.heap.begun pool).magic pool.start = magicFree

theorem HeapOk.fails (ok : HeapOk pool h blocks) (ready : h.ready = true) (size : Word) :
    (CatOs.Libc.malloc pool size h).2 = 0 ↔ ∀ b ∈ blocks, b.free = true → b.size < need size := by
  have result := ok.malloc ready size
  generalize CatOs.Libc.malloc pool size h = outcome at result ⊢
  cases result with
  | none small => exact iff_of_true rfl small
  | some front back c here free large after _ _ =>
    refine iff_of_false (Nat.succ_ne_zero _) fun small => ?_
    have member : c ∈ blocks := by
      rw [here]
      simp
    exact absurd (small c member free) (Nat.not_lt.mpr large)

theorem HeapOk.whole (ok : HeapOk pool h blocks) (owned : Owned [] blocks) :
    ∃ b, blocks = [b] ∧ b.start = pool.start ∧ b.free = true := by
  have free : ∀ b ∈ blocks, b.free = true := by
    intro b member
    by_contra used
    have listed : b ∈ usedBlocks blocks := List.mem_filter.mpr ⟨member, by simpa using used⟩
    have none := owned.pointers.symm.eq_nil
    rw [List.map_eq_nil_iff] at none
    rw [none] at listed
    cases listed
  cases blocks with
  | nil =>
    have empty : pool.start = pool.stop := ok.fills
    simp only [Pool.stop, heapPoolBytes] at empty
    omega
  | cons b rest =>
    obtain rfl := eq_singleton_of_free ok.apart free
    exact ⟨b, rfl, ok.fills.1, free b List.mem_cons_self⟩

theorem Owned.nodup {live : List (Nat × Nat)} {first last : Nat} (owned : Owned live blocks)
    (filled : Fills hdrBytes first last blocks) : (live.map Prod.fst).Nodup := by
  rw [owned.pointers.nodup_iff, List.Nodup, List.pairwise_map]
  refine (filled.pairwise.sublist List.filter_sublist).imp fun {a b} behind => ?_
  simp only [Block.stop, hdrBytes] at behind
  omega

theorem HeapOk.disjoint {live : List (Nat × Nat)} (ok : HeapOk pool h blocks)
    (owned : Owned live blocks) : live.Pairwise fun a b =>
      a.1 + h.size (a.1 - hdrBytes) ≤ b.1 ∨ b.1 + h.size (b.1 - hdrBytes) ≤ a.1 := by
  refine (List.pairwise_map.mp (owned.nodup ok.fills)).imp_of_mem fun {a b} left right apart => ?_
  obtain ⟨c, first, -, start, -⟩ := owned.block left
  obtain ⟨d, second, -, begins, -⟩ := owned.block right
  have different : c ≠ d := fun same => apart (by rw [start, begins, same])
  have separate := ok.fills.separate first second different
  rw [start, begins, hdrBytes, Nat.add_sub_cancel, Nat.add_sub_cancel, (ok.held c first).1,
    (ok.held d second).1]
  simp only [Block.stop, hdrBytes] at separate
  omega

/-- Whatever a disciplined process does, it may rely on its pool. -/
theorem heap_invariant (pool : Pool) (run : Run (heapStep pool) Disciplined zeroSys s) :
    ∃ blocks, HeapSound pool s blocks := by
  have inv : SysOk pool s :=
    run.invariant (SysOk pool) (sysOk_zero pool) fun op s may inv => inv.step op may
  obtain ⟨blocks, ok, owned⟩ := inv.ok
  refine ⟨blocks.map Block.start,
    { tiles := ok.visits, aligned := ?_, ascending := ?_, linked := ?_, apart := ?_, live := ?_
      distinct := owned.nodup ok.fills, disjoint := ok.disjoint owned, fails := ?_, whole := ?_ }⟩
  · intro b member
    obtain ⟨c, within, rfl⟩ := List.mem_map.mp member
    have aligned := ok.aligned within
    simp only [hdrBytes, heapAlign]
    omega
  · rw [List.pairwise_map]
    refine ok.fills.pairwise.imp fun {a b} behind => ?_
    simp only [Block.stop, hdrBytes] at behind
    omega
  · rw [ok.frees_eq]
    exact ok.linked
  · rw [List.isChain_map]
    refine ok.apart.imp_of_mem_imp fun a b left right apart both => apart ?_
    exact ⟨(ok.magic_iff left).mp both.1, (ok.magic_iff right).mp both.2⟩
  · intro a member
    obtain ⟨b, within, used, start, large⟩ := owned.block member
    obtain ⟨size, mark⟩ := ok.held b within
    refine ⟨b.start, List.mem_map_of_mem within, start, ?_, size.symm ▸ large⟩
    rw [mark, used]
    rfl
  · intro size
    have fails := ok.fails (ready_begun pool s.heap) size
    rw [malloc_begun] at fails
    rw [fails, List.forall_mem_map]
    refine forall₂_congr fun b within => ?_
    rw [ok.magic_iff within, (ok.held b within).1]
  · intro none
    obtain ⟨b, rfl, start, free⟩ := ok.whole (none ▸ owned)
    rw [← start]
    exact ⟨rfl, (ok.magic_iff List.mem_cons_self).mpr free⟩

/-- A process that leaves a hole behind and fills what follows it with words that look like headers. -/
theorem heap_invariant_hole :
    let pool : Pool := ⟨0x600000, by decide, by decide, by decide⟩
    let s := runInputs (heapStep pool) [.malloc 100, .malloc 0, .write 0x600090 magicFree,
      .write 0x600098 magicFree, .free 0x600010, .malloc 200] zeroSys
    s.live = [(0x6000B0, 200), (0x600090, 0)] ∧ ∃ blocks, HeapSound pool s blocks := by
  intro pool s
  have run : Run (heapStep pool) Disciplined zeroSys s := Run.start.inputs _ (by decide)
  exact ⟨by decide, heap_invariant pool run⟩

end Soundness

end CatOs.Libc
