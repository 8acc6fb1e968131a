import CatOs.Libc.HeapLaws

/-! Allocating and freeing keep the pool in order. -/

namespace CatOs.Libc

section Request

def need (size : Word) : Nat := (max size.toNat 1 + 15) / 16 * 16

theorem need_aligned (size : Word) : need size % 16 = 0 := Nat.mul_mod_left _ _

theorem le_need (size : Word) : size.toNat ≤ need size := by
  simp only [need]
  omega

theorem toNat_roundUp {size : Word} (small : size.toNat ≤ 524288) :
    (roundUp size).toNat = (size.toNat + 15) / 16 * 16 := by
  have mask : ~~~(15 : Word) = (BitVec.allOnes 32 >>> 4) <<< 4 := by decide
  have slack : (15 : Word).toNat = 15 := rfl
  rw [roundUp, mask, and_highOnes, toNat_clearLow, BitVec.toNat_add, slack]
  omega

end Request

section Payload

variable {pool : Pool} {h : Heap} {blocks : List Block} {b : Block}

theorem Laid.outside (laid : Laid pool h blocks) {c : Block} (member : b ∈ blocks) (other : c ∈ blocks)
    {address : Nat} (after : b.start + 16 ≤ address) (before : address < b.start + 16 + b.size) :
    address ≠ c.start ∧ address ≠ c.start + 4 ∧ address ≠ c.start + 8 := by
  by_cases same : c = b
  · subst same
    omega
  · have separate := laid.fills.separate member other (Ne.symm same)
    simp only [Block.stop, hdrBytes] at separate
    omega

theorem HeapOk.write (ok : HeapOk pool h blocks) (member : b ∈ blocks) {address : Nat}
    (after : b.start + 16 ≤ address) (before : address < b.start + 16 + b.size) (value : Word) :
    HeapOk pool (h.write address value) blocks := by
  have same : ∀ c ∈ blocks, (h.write address value).header c.start = h.header c.start :=
    fun c within => header_write value (ok.outside member within after before)
  refine
    { fills := ok.fills, sizes := ok.sizes, held := fun c within => ?_, linked := ?_
      apart := ok.apart }
  · exact holds_congr (same c within) (ok.held c within)
  · refine Linked.congr (fun node within => ?_) ok.linked
    obtain ⟨c, member, rfl⟩ := List.mem_map.mp within
    exact (next_congr (same c (List.mem_of_mem_filter member))).symm

end Payload

section Taking

variable {pool : Pool} {g h : Heap} {front back : List Block} {c : Block} {n : Nat}

theorem frees_middle (free : c.free = true) :
    frees (front ++ c :: back) = frees front ++ c.start :: frees back := by
  rw [frees_append]
  simp [frees, free]

structure Detached (h g : Heap) (front back : List Block) (c : Block) (n : Nat) : Prop where
  leads : Leads g.next g.first (frees front)
  behind : behind g.next g.first (frees front) = pointer n
  rest : Linked g.next (h.next c.start) (frees back)
  held : ∀ b ∈ front ++ back, g.Holds b

/-- Redirecting the pointer to a free block takes it out, whatever its own header becomes. -/
theorem HeapOk.detach (ok : HeapOk pool h (front ++ c :: back)) (free : c.free = true)
    (fits : n < 4294967296)
    (same : ∀ a, a % 16 = 0 → a ≠ c.start →
      g.header a = (h.store (linkOf (frees front)) n).header a)
    (begins : g.first = (h.store (linkOf (frees front)) n).first) : Detached h g front back c n := by
  have linked := ok.linked
  rw [frees_middle free, linked_append] at linked
  obtain ⟨leads, -, rest⟩ := linked
  have within : ∀ b ∈ front ++ back, b ∈ front ++ c :: back := by
    intro b member
    simp only [List.mem_append, List.mem_cons] at member ⊢
    exact member.imp_right .inr
  have aligned : ∀ b ∈ front ++ back, b.start % 16 = 0 := fun b member =>
    ok.aligned (within b member)
  have others : ∀ b ∈ front ++ back, b.start ≠ c.start := fun b member =>
    ok.fills.start_ne (by decide) member
  obtain ⟨middle, before, -⟩ := fills_append.mp ok.fills
  have distinct := nodup_frees ok.fills
  rw [frees_middle free, List.nodup_append] at distinct
  have frontAligned : ∀ a ∈ frees front, a % 16 = 0 :=
    aligned_of_frees fun b member => aligned b (List.mem_append_left _ member)
  have frontOther : ∀ a ∈ frees front, a ≠ c.start := by
    intro a member
    obtain ⟨b, inside, rfl⟩ := List.mem_map.mp member
    exact others b (List.mem_append_left _ (List.mem_of_mem_filter inside))
  -- Behind the earlier free blocks comes what was written there.
  have redirected := leads_store (n := n) frontAligned (nodup_frees before) leads
  have agree : ∀ a ∈ frees front,
      (h.store (linkOf (frees front)) n).next a = g.next a := fun a member =>
    (next_congr (same a (frontAligned a member) (frontOther a member))).symm
  refine { leads := ?_, behind := ?_, rest := ?_, held := fun b member => ?_ }
  · rw [begins]
    exact Leads.congr (nodup_frees before) (fun a member _ => agree a member) redirected
  · rw [begins, ← behind_congr agree, behind_eq_load, load_store fits]
  · refine Linked.congr (fun a member => ?_) rest
    obtain ⟨b, inside, rfl⟩ := List.mem_map.mp member
    have inside := List.mem_append_right front (List.mem_of_mem_filter inside)
    have later : b.start ∉ frees front := fun early =>
      distinct.2.2 b.start early b.start (List.mem_cons_of_mem _ member) rfl
    rw [next_congr (same _ (aligned b inside) (others b inside))]
    exact (next_congr (header_store_of_notMem (aligned b inside) frontAligned later)).symm
  · refine holds_congr (same _ (aligned b member) (others b member)) ?_
    exact holds_store (aligned b member) frontAligned fits (ok.held b (within b member))

def Heap.seal (h : Heap) (b : Nat) : Heap := (h.setMagic b magicUsed).setNextFree b 0

theorem header_seal_ne {a b : Nat} (left : a % 16 = 0) (right : b % 16 = 0) (apart : a ≠ b) :
    (h.seal b).header a = h.header a := by
  rw [Heap.seal, header_setNextFree_ne left right apart, header_setMagic_ne left right apart]

theorem holds_seal {b size : Nat} (held : h.size b = size) :
    (h.seal b).Holds { start := b, size := size, free := false } := by
  have outer := header_setNextFree_self (h := h.setMagic b magicUsed) (b := b)
    (show 0 < 4294967296 by decide)
  have inner := header_setMagic_self (h := h) (b := b) magicUsed
  simp only [Heap.header, Prod.mk.injEq] at outer inner
  exact ⟨outer.1.trans (inner.1.trans held), outer.2.2.trans inner.2.2⟩

theorem HeapOk.takeWhole (ok : HeapOk pool h (front ++ c :: back)) (free : c.free = true) :
    Linked ((h.store (linkOf (frees front)) (h.nextFree c.start)).seal c.start).next
        ((h.store (linkOf (frees front)) (h.nextFree c.start)).seal c.start).first
        (frees front ++ frees back) ∧
      ∀ b ∈ front ++ { c with free := false } :: back,
        ((h.store (linkOf (frees front)) (h.nextFree c.start)).seal c.start).Holds b := by
  have member : c ∈ front ++ c :: back := by simp
  have aligned := ok.aligned member
  have fits : h.nextFree c.start < 4294967296 := (h.mem (c.start + 4)).isLt
  have detached := ok.detach (g := (h.store (linkOf (frees front)) (h.nextFree c.start)).seal c.start)
    free fits (fun a here other => header_seal_ne here aligned other) rfl
  refine ⟨linked_append.mpr ⟨detached.leads, detached.behind ▸ detached.rest⟩, ?_⟩
  intro b within
  simp only [List.mem_append, List.mem_cons] at within
  rcases within with early | rfl | late
  · exact detached.held b (List.mem_append_left _ early)
  · have frontAligned : ∀ a ∈ frees front, a % 16 = 0 :=
      aligned_of_frees fun b within => ok.aligned (List.mem_append_left _ within)
    exact holds_seal (holds_store aligned frontAligned fits (ok.held c member)).1
  · exact detached.held b (List.mem_append_right _ late)

def Heap.remnant (h : Heap) (rem size next : Nat) : Heap :=
  ((h.setSize rem size).setMagic rem magicFree).setNextFree rem next

theorem header_remnant {rem size next : Nat} (small : size < 4294967296)
    (fits : next < 4294967296) :
    (h.remnant rem size next).header rem = (size, next, magicFree) := by
  have first := header_setSize_self (h := h) (b := rem) small
  have second := header_setMagic_self (h := h.setSize rem size) (b := rem) magicFree
  have third := header_setNextFree_self (h := (h.setSize rem size).setMagic rem magicFree)
    (b := rem) fits
  simp only [Heap.header, Prod.mk.injEq] at first second
  rw [Heap.remnant, third, second.1, second.2.2, first.1]

theorem header_remnant_ne {a rem size next : Nat} (left : a % 16 = 0) (right : rem % 16 = 0)
    (apart : a ≠ rem) : (h.remnant rem size next).header a = h.header a := by
  rw [Heap.remnant, header_setNextFree_ne left right apart, header_setMagic_ne left right apart,
    header_setSize_ne left right apart]

/-- Taking the front of a free block and leaving the rest keeps the pool in order. -/
theorem HeapOk.takeFront {req : Nat} (ok : HeapOk pool h (front ++ c :: back)) (free : c.free = true)
    (request : req % 16 = 0) (large : req + 32 ≤ c.size) :
    let rem := c.start + 16 + req
    let left := h.remnant rem (c.size - req - 16) (h.nextFree c.start)
    let g := ((left.store (linkOf (frees front)) rem).setSize c.start req).seal c.start
    Linked g.next g.first (frees front ++ rem :: frees back) ∧
      ∀ b ∈ front ++ { start := c.start, size := req, free := false } ::
        { start := rem, size := c.size - req - 16, free := true } :: back, g.Holds b := by
  intro rem left g
  have member : c ∈ front ++ c :: back := by simp
  have aligned := ok.aligned member
  have inside := ok.bounds member
  have low := pool.stop_lt
  have remAligned : rem % 16 = 0 := by omega
  have remApart : rem ≠ c.start := by omega
  have fits : rem < 4294967296 := by omega
  -- The header of the rest is written inside the free block.
  have carved : HeapOk pool left (front ++ c :: back) := by
    have first := ok.write member (show c.start + 16 ≤ rem by omega) (by omega)
      (BitVec.ofNat 32 (c.size - req - 16))
    have second := first.write member (show c.start + 16 ≤ rem + 8 by omega) (by omega) magicFree
    exact second.write member (show c.start + 16 ≤ rem + 4 by omega) (by omega) _
  have header : left.header rem = (c.size - req - 16, h.nextFree c.start, magicFree) :=
    header_remnant (by omega) (h.mem (c.start + 4)).isLt
  have detached := carved.detach (g := g) free fits (fun a here other => by
    rw [header_seal_ne here aligned other, header_setSize_ne here aligned other]) rfl
  have frontAligned : ∀ a ∈ frees front, a % 16 = 0 :=
    aligned_of_frees fun b within => ok.aligned (List.mem_append_left _ within)
  have remNew : rem ∉ frees front := by
    intro early
    obtain ⟨b, early, start⟩ := List.mem_map.mp early
    have within : b ∈ front ++ c :: back :=
      List.mem_append_left _ (List.mem_of_mem_filter early)
    exact (ok.outside member within (show c.start + 16 ≤ rem by omega) (by omega)).1 start.symm
  have kept : g.header rem = (c.size - req - 16, h.nextFree c.start, magicFree) := by
    rw [header_seal_ne remAligned aligned remApart,
      header_setSize_ne remAligned aligned remApart,
      header_store_of_notMem remAligned frontAligned remNew, header]
  simp only [Heap.header, Prod.mk.injEq] at kept
  refine ⟨linked_append.mpr ⟨detached.leads, ?_⟩, ?_⟩
  · have points : pointer rem = some rem := if_neg (by omega)
    have same : g.next rem = left.next c.start := by
      rw [Heap.next, kept.2.1, next_congr (header_remnant_ne aligned remAligned (Ne.symm remApart)),
        Heap.next]
    rw [detached.behind, points]
    exact ⟨rfl, same ▸ detached.rest⟩
  · intro b within
    simp only [List.mem_append, List.mem_cons] at within
    rcases within with early | rfl | rfl | late
    · exact detached.held b (List.mem_append_left _ early)
    · refine holds_seal ?_
      exact congrArg Prod.fst (header_setSize_self (show req < 4294967296 by omega))
    · exact ⟨kept.1, kept.2.2⟩
    · exact detached.held b (List.mem_append_right _ late)

theorem HeapOk.takeBlock {req : Nat} (ok : HeapOk pool h (front ++ c :: back))
    (free : c.free = true) (request : req % 16 = 0) :
    HeapOk pool (takeBlock h req (linkOf (frees front)) c.start)
      (front ++ (c.carve hdrBytes heapAlign req ++ back)) := by
  have member : c ∈ front ++ c :: back := by simp
  have size := (ok.held c member).1
  have sizes : ∀ b ∈ front ++ (c.carve hdrBytes heapAlign req ++ back), b.size % 16 = 0 := by
    intro b within
    simp only [List.mem_append] at within
    rcases within with early | here | late
    · exact ok.sizes b (List.mem_append_left _ early)
    · exact sizes_carve rfl request (ok.sizes c member) b here
    · exact ok.sizes b (List.mem_append_right _ (List.mem_cons_of_mem _ late))
  have parts : ∀ middle, c.carve hdrBytes heapAlign req = middle →
      Linked (CatOs.Libc.takeBlock h req (linkOf (frees front)) c.start).next
        (CatOs.Libc.takeBlock h req (linkOf (frees front)) c.start).first
        (frees (front ++ (middle ++ back))) →
      (∀ b ∈ front ++ (middle ++ back),
        (CatOs.Libc.takeBlock h req (linkOf (frees front)) c.start).Holds b) →
      HeapOk pool (CatOs.Libc.takeBlock h req (linkOf (frees front)) c.start)
        (front ++ (c.carve hdrBytes heapAlign req ++ back)) := by
    rintro middle rfl linked held
    exact { fills := ok.fills.carve, sizes := sizes, held := held, linked := linked
            apart := apart_carve ok.apart free }
  by_cases splits : c.size ≥ req + hdrBytes + heapAlign
  · have room : req + 32 ≤ c.size := splits
    -- The pointer of the block is read after the header of the rest was written.
    have aligned := ok.aligned member
    have remAligned : (c.start + 16 + req) % 16 = 0 := by omega
    have apart : c.start ≠ c.start + 16 + req := by omega
    have read : ((h.setSize (c.start + 16 + req) (c.size - req - 16)).setMagic
        (c.start + 16 + req) magicFree).nextFree c.start = h.nextFree c.start := by
      have same := header_setMagic_ne (h := h.setSize (c.start + 16 + req) (c.size - req - 16))
        aligned remAligned apart magicFree
      rw [header_setSize_ne aligned remAligned apart] at same
      exact congrArg (fun words => words.2.1) same
    have taken : CatOs.Libc.takeBlock h req (linkOf (frees front)) c.start =
        (((h.remnant (c.start + 16 + req) (c.size - req - 16) (h.nextFree c.start)).store
          (linkOf (frees front)) (c.start + 16 + req)).setSize c.start req).seal c.start := by
      rw [← read, CatOs.Libc.takeBlock, size, if_pos splits]
      rfl
    obtain ⟨linked, held⟩ := ok.takeFront free request room
    refine parts _ (if_pos splits) ?_ ?_
    · rw [taken]
      rwa [frees_append, List.cons_append, List.singleton_append]
    · rw [taken]
      exact held
  · have taken : CatOs.Libc.takeBlock h req (linkOf (frees front)) c.start =
        (h.store (linkOf (frees front)) (h.nextFree c.start)).seal c.start := by
      rw [CatOs.Libc.takeBlock, size, if_neg splits]
      rfl
    obtain ⟨linked, held⟩ := ok.takeWhole free
    refine parts _ (if_neg splits) ?_ ?_
    · rw [taken]
      rwa [frees_append]
    · rw [taken]
      exact held

end Taking

section Searching

variable {h : Heap} {req fuel b : Nat} {prev : Link}

theorem pointer_eq_some {n a : Nat} (points : pointer n = some a) : n = a ∧ n ≠ 0 := by
  rw [pointer] at points
  split at points
  · cases points
  · rename_i nonzero
    exact ⟨Option.some.inj points, nonzero⟩

theorem pointer_eq_none {n : Nat} (points : pointer n = none) : n = 0 := by
  rw [pointer] at points
  split at points
  · assumption
  · cases points

theorem mallocFrom_none {rest : List Block}
    (linked : Linked h.next (pointer b) (rest.map Block.start)) (held : ∀ c ∈ rest, h.Holds c)
    (small : ∀ c ∈ rest, c.size < req) : mallocFrom fuel req prev b h = (h, 0) := by
  induction rest generalizing fuel prev b with
  | nil =>
    cases fuel with
    | zero => rfl
    | succ fuel => rw [mallocFrom, if_pos (pointer_eq_none linked)]
  | cons c rest ih =>
    cases fuel with
    | zero => rfl
    | succ fuel =>
      obtain ⟨rfl, nonzero⟩ := pointer_eq_some linked.1
      have here : h.size c.start < req := by
        rw [(held c List.mem_cons_self).1]
        exact small c List.mem_cons_self
      rw [mallocFrom, if_neg nonzero, if_pos here]
      exact ih linked.2 (fun d within => held d (List.mem_cons_of_mem _ within))
        fun d within => small d (List.mem_cons_of_mem _ within)

theorem mallocFrom_some (passed : List Nat) {skipped later : List Block} {c : Block}
    (linked : Linked h.next (pointer b) ((skipped ++ c :: later).map Block.start))
    (held : ∀ d ∈ skipped ++ c :: later, h.Holds d) (small : ∀ d ∈ skipped, d.size < req)
    (large : req ≤ c.size) (enough : skipped.length < fuel) :
    mallocFrom fuel req (linkOf passed) b h =
      (takeBlock h req (linkOf (passed ++ skipped.map Block.start)) c.start, c.start + hdrBytes) := by
  -- Every block that is too small is passed, and the place behind it is where to look next.
  induction skipped generalizing fuel passed b with
  | nil =>
    obtain ⟨fuel, rfl⟩ := Nat.exists_eq_succ_of_ne_zero (Nat.ne_zero_of_lt enough)
    obtain ⟨rfl, nonzero⟩ := pointer_eq_some linked.1
    have here : ¬h.size c.start < req := by
      rw [(held c List.mem_cons_self).1]
      exact Nat.not_lt.mpr large
    rw [mallocFrom, if_neg nonzero, if_neg here, List.map_nil, List.append_nil]
  | cons d skipped ih =>
    obtain ⟨fuel, rfl⟩ := Nat.exists_eq_succ_of_ne_zero (Nat.ne_zero_of_lt enough)
    obtain ⟨rfl, nonzero⟩ := pointer_eq_some linked.1
    have here : h.size d.start < req := by
      rw [(held d List.mem_cons_self).1]
      exact small d List.mem_cons_self
    have place : linkOf (passed ++ [d.start]) = .next d.start := by
      rw [linkOf, List.getLast?_append]
      rfl
    have onwards := ih (passed ++ [d.start]) linked.2
      (fun e within => held e (List.mem_cons_of_mem _ within))
      (fun e within => small e (List.mem_cons_of_mem _ within)) (Nat.lt_of_succ_lt_succ enough)
    rw [mallocFrom, if_neg nonzero, if_pos here, ← place, onwards, List.append_assoc]
    rfl

end Searching

section Calls

variable {pool : Pool} {h : Heap} {blocks : List Block}

theorem heapOk_init (pool : Pool) (h : Heap) :
    HeapOk pool (heapInit pool h) [{ start := pool.start, size := 524272, free := true }] := by
  have low := pool.stop_lt
  have positive := pool.start_pos
  have whole : heapPoolBytes - hdrBytes = 524272 := by decide
  have header : (heapInit pool h).header pool.start = (524272, 0, magicFree) := by
    rw [← whole]
    exact header_remnant (h := h) (by decide) (by decide)
  simp only [Heap.header, Prod.mk.injEq] at header
  have points : (heapInit pool h).first = some pool.start := by
    have fits : (BitVec.ofNat 32 pool.start).toNat = pool.start := by
      rw [BitVec.toNat_ofNat]
      exact Nat.mod_eq_of_lt (by omega)
    show pointer (BitVec.ofNat 32 pool.start).toNat = _
    rw [fits, pointer, if_neg (by omega)]
  refine
    { fills := ⟨rfl, ?_⟩, sizes := ?_, held := ?_, linked := ⟨points, ?_⟩, apart := .singleton _ }
  · show pool.start + 16 + 524272 = pool.start + 524288
    omega
  · intro b member
    obtain rfl := List.mem_singleton.mp member
    show 524272 % 16 = 0
    decide
  · intro b member
    obtain rfl := List.mem_singleton.mp member
    exact ⟨header.1, header.2.2⟩
  · show pointer ((heapInit pool h).nextFree pool.start) = none
    rw [header.2.1]
    rfl

@[simp] theorem ready_store (link : Link) (n : Nat) : (h.store link n).ready = h.ready := by
  cases link <;> rfl

@[simp] theorem ready_takeBlock (req : Nat) (prev : Link) (b : Nat) :
    (takeBlock h req prev b).ready = h.ready := by
  have kept : ∀ g : Heap, ((g.setMagic b magicUsed).setNextFree b 0).ready = g.ready :=
    fun _ => rfl
  rw [takeBlock, kept]
  split
  · exact ready_store (h := h.remnant (b + hdrBytes + req) _ _) prev _
  · exact ready_store prev _

inductive MallocResult (pool : Pool) (h : Heap) (blocks : List Block) (size : Word) :
    Heap × Nat → Prop
  | none (small : ∀ b ∈ blocks, b.free = true → b.size < need size) :
      MallocResult pool h blocks size (h, 0)
  | some (front back : List Block) (c : Block) (here : blocks = front ++ c :: back)
      (free : c.free = true) (large : need size ≤ c.size) (after : Heap)
      (ready : after.ready = h.ready)
      (ok : HeapOk pool after (front ++ (c.carve hdrBytes heapAlign (need size) ++ back))) :
      MallocResult pool h blocks size (after, c.start + hdrBytes)

theorem HeapOk.mallocFrom (ok : HeapOk pool h blocks) (size : Word) :
    MallocResult pool h blocks size
      (mallocFrom (heapPoolBytes / hdrBytes + 1) (need size) .head h.freeHead.toNat h) := by
  have held : ∀ d ∈ blocks.filter Block.free, h.Holds d := fun d within =>
    ok.held d (List.mem_of_mem_filter within)
  cases found : blocks.find? fun b => b.free && decide (need size ≤ b.size) with
  | none =>
    rw [List.find?_eq_none] at found
    have small : ∀ b ∈ blocks, b.free = true → b.size < need size := by
      intro b member free
      have misfit := found b member
      simp only [free, Bool.true_and, decide_eq_true_eq, Nat.not_le] at misfit
      exact misfit
    have linked : Linked h.next h.first ((blocks.filter Block.free).map Block.start) := ok.linked
    rw [mallocFrom_none linked held fun d within =>
      small d (List.mem_of_mem_filter within) (List.mem_filter.mp within).2]
    exact .none small
  | some c =>
    obtain ⟨fits, front, back, rfl, misfits⟩ := List.find?_eq_some_iff_append.mp found
    simp only [Bool.and_eq_true, decide_eq_true_eq] at fits
    have split : (front ++ c :: back).filter Block.free =
        front.filter Block.free ++ c :: back.filter Block.free := by
      rw [List.filter_append, List.filter_cons_of_pos fits.1]
    have small : ∀ d ∈ front.filter Block.free, d.size < need size := by
      intro d within
      obtain ⟨member, free⟩ := List.mem_filter.mp within
      have misfit := misfits d member
      simp only [free, Bool.true_and, Bool.not_eq_true', decide_eq_false_iff_not,
        Nat.not_le] at misfit
      exact misfit
    have few : (front.filter Block.free).length < heapPoolBytes / hdrBytes + 1 := by
      have headers := ok.fills.length_le
      have shorter := List.length_filter_le Block.free front
      rw [List.length_append] at headers
      simp only [Pool.stop, heapPoolBytes, hdrBytes] at headers ⊢
      omega
    have linked := ok.linked
    rw [frees, split] at linked
    rw [split] at held
    have taken := mallocFrom_some [] linked held small fits.2 few
    rw [show Link.head = linkOf [] from rfl, taken]
    exact .some front back c rfl fits.1 fits.2 _ (ready_takeBlock _ _ _)
      (ok.takeBlock fits.1 (need_aligned size))

theorem HeapOk.malloc (ok : HeapOk pool h blocks) (ready : h.ready = true) (size : Word) :
    MallocResult pool h blocks size (malloc pool size h) := by
  have begun : h.begun pool = h := if_pos ready
  have counted : (if size = 0 then (1 : Word) else size).toNat = max size.toNat 1 := by
    by_cases zero : size = 0
    · subst zero
      rfl
    · have positive : size.toNat ≠ 0 := fun none => zero (BitVec.eq_of_toNat_eq none)
      rw [if_neg zero]
      omega
  rw [CatOs.Libc.malloc, begun]
  generalize (if size = 0 then (1 : Word) else size) = asked at counted ⊢
  split
  · -- A request beyond the size of the pool fits in no block.
    rename_i excessive
    rw [counted] at excessive
    refine .none fun b member _ => ?_
    have inside := ok.bounds member
    simp only [need, heapPoolBytes] at excessive ⊢
    omega
  · rename_i modest
    rw [counted] at modest
    have small : asked.toNat ≤ 524288 := counted.trans_le (Nat.not_lt.mp modest)
    rw [toNat_roundUp small, counted]
    exact ok.mallocFrom size

theorem HeapOk.free {front back : List Block} {c : Block}
    (ok : HeapOk pool h (front ++ c :: back)) (used : c.free = false) :
    HeapOk pool (CatOs.Libc.free pool (c.start + 16) h)
      (mergeFree hdrBytes (front ++ { c with free := true } :: back)) := by
  have member : c ∈ front ++ c :: back := by simp
  have aligned := ok.aligned member
  have inside := ok.bounds member
  have low := pool.stop_lt
  obtain ⟨size, mark⟩ := ok.held c member
  rw [used] at mark
  have high : ¬(c.start + 16 - 16 < pool.start ∨ c.start + 16 > pool.start + 524288 ∨
      (c.start + 16 + c.size) % 4294967296 > pool.start + 524288) := by omega
  have checks : CatOs.Libc.free pool (c.start + 16) h =
      heapCoalesce pool (h.setMagic c.start magicFree) := by
    have multiple : ¬(c.start + 16) % heapAlign ≠ 0 := by
      rw [heapAlign]
      omega
    have nonzero : ¬c.start + 16 = 0 := by omega
    have marked : ¬h.magic c.start ≠ magicUsed := not_not_intro mark
    rw [CatOs.Libc.free, if_neg nonzero, if_neg multiple]
    simp only [hdrBytes, Nat.add_sub_cancel, size, Pool.stop, heapPoolBytes] at high ⊢
    rw [if_neg high, if_neg marked]
  rw [checks]
  refine Laid.heapCoalesce { fills := ?_, sizes := ?_, held := ?_ }
  · show Fills hdrBytes pool.start pool.stop (front ++ ([{ c with free := true }] ++ back))
    exact ok.fills.replace ⟨rfl, rfl⟩
  · intro b within
    simp only [List.mem_append, List.mem_cons] at within
    rcases within with early | rfl | late
    · exact ok.sizes b (List.mem_append_left _ early)
    · exact ok.sizes c member
    · exact ok.sizes b (List.mem_append_right _ (List.mem_cons_of_mem _ late))
  · intro b within
    have other : ∀ b ∈ front ++ back, (h.setMagic c.start magicFree).Holds b := by
      intro b around
      have old : b ∈ front ++ c :: back := by
        simp only [List.mem_append, List.mem_cons] at around ⊢
        exact around.imp_right .inr
      refine holds_congr ?_ (ok.held b old)
      exact header_setMagic_ne (ok.aligned old) aligned (ok.fills.start_ne (by decide) around) _
    simp only [List.mem_append, List.mem_cons] at within
    rcases within with early | rfl | late
    · exact other b (List.mem_append_left _ early)
    · have here := header_setMagic_self (h := h) (b := c.start) magicFree
      simp only [Heap.header, Prod.mk.injEq] at here
      exact ⟨here.1.trans size, here.2.2⟩
    · exact other b (List.mem_append_right _ late)

end Calls

end CatOs.Libc
