import CatOs.Lib.Blocks
import CatOs.Lib.Links
import CatOs.Libc.Malloc

/-! The pool as a list of blocks, and what the operations on headers do to that list. -/

namespace CatOs.Libc

def pointer (n : Nat) : Option Nat := if n = 0 then none else some n

def markOf (free : Bool) : Word := if free then magicFree else magicUsed

def linkOf (passed : List Nat) : Link :=
  match passed.getLast? with
  | none => .head
  | some last => .next last

namespace Heap

def next (h : Heap) (b : Nat) : Option Nat := pointer (h.nextFree b)

def first (h : Heap) : Option Nat := pointer h.freeHead.toNat

def load (h : Heap) : Link → Nat
  | .head => h.freeHead.toNat
  | .next b => h.nextFree b

def Holds (h : Heap) (b : Block) : Prop := h.size b.start = b.size ∧ h.magic b.start = markOf b.free

end Heap

section Headers

variable {h : Heap} {a b n : Nat}

def Heap.header (h : Heap) (b : Nat) : Nat × Nat × Word := (h.size b, h.nextFree b, h.magic b)

theorem header_write {address : Nat} (value : Word)
    (outside : address ≠ b ∧ address ≠ b + 4 ∧ address ≠ b + 8) :
    (h.write address value).header b = h.header b := by
  obtain ⟨first, second, third⟩ := outside
  simp only [Heap.header, Heap.size, Heap.nextFree, Heap.magic, Heap.write,
    Function.update_of_ne (Ne.symm first), Function.update_of_ne (Ne.symm second),
    Function.update_of_ne (Ne.symm third)]

theorem mem_write_ne {address other : Nat} (value : Word) (apart : other ≠ address) :
    (h.write address value).mem other = h.mem other := by
  simp only [Heap.write, Function.update_of_ne apart]

theorem mem_write_self {address : Nat} (value : Word) :
    (h.write address value).mem address = value := by
  simp only [Heap.write, Function.update_self]

theorem toNat_write_self {address : Nat} (fits : n < 4294967296) :
    ((h.write address (BitVec.ofNat 32 n)).mem address).toNat = n := by
  rw [mem_write_self, BitVec.toNat_ofNat]
  exact Nat.mod_eq_of_lt fits

theorem header_setSize_self (fits : n < 4294967296) :
    (h.setSize b n).header b = (n, h.nextFree b, h.magic b) := by
  simp only [Heap.header, Heap.size, Heap.nextFree, Heap.magic, Heap.setSize, toNat_write_self fits,
    mem_write_ne _ (show b + 4 ≠ b by omega), mem_write_ne _ (show b + 8 ≠ b by omega)]

theorem header_setNextFree_self (fits : n < 4294967296) :
    (h.setNextFree b n).header b = (h.size b, n, h.magic b) := by
  simp only [Heap.header, Heap.size, Heap.nextFree, Heap.magic, Heap.setNextFree,
    toNat_write_self fits, mem_write_ne _ (show b ≠ b + 4 by omega),
    mem_write_ne _ (show b + 8 ≠ b + 4 by omega)]

theorem header_setMagic_self (mark : Word) :
    (h.setMagic b mark).header b = (h.size b, h.nextFree b, mark) := by
  simp only [Heap.header, Heap.size, Heap.nextFree, Heap.magic, Heap.setMagic, mem_write_self,
    mem_write_ne _ (show b ≠ b + 8 by omega), mem_write_ne _ (show b + 4 ≠ b + 8 by omega)]

variable (left : a % 16 = 0) (right : b % 16 = 0) (apart : a ≠ b)

include left right apart

theorem header_setSize_ne : (h.setSize b n).header a = h.header a :=
  header_write _ ⟨by omega, by omega, by omega⟩

theorem header_setNextFree_ne : (h.setNextFree b n).header a = h.header a :=
  header_write _ ⟨by omega, by omega, by omega⟩

theorem header_setMagic_ne (mark : Word) : (h.setMagic b mark).header a = h.header a :=
  header_write _ ⟨by omega, by omega, by omega⟩

end Headers

section Pointers

variable {h : Heap} {a n : Nat} {passed : List Nat}

theorem holds_congr {g : Heap} {b : Block} (same : g.header b.start = h.header b.start)
    (held : h.Holds b) : g.Holds b := by
  simp only [Heap.header, Prod.mk.injEq] at same
  exact ⟨same.1.trans held.1, same.2.2.trans held.2⟩

theorem next_congr {g : Heap} (same : g.header a = h.header a) : g.next a = h.next a := by
  simp only [Heap.header, Prod.mk.injEq] at same
  rw [Heap.next, Heap.next, same.2.1]

theorem behind_eq_load : behind h.next h.first passed = pointer (h.load (linkOf passed)) := by
  rw [linkOf]
  cases ends : passed.getLast? with
  | none =>
    rw [List.getLast?_eq_none_iff] at ends
    subst ends
    rfl
  | some last => exact behind_of_getLast? ends

theorem header_store_of_notMem (left : a % 16 = 0) (right : ∀ b ∈ passed, b % 16 = 0)
    (outside : a ∉ passed) : (h.store (linkOf passed) n).header a = h.header a := by
  rw [linkOf]
  cases ends : passed.getLast? with
  | none => rfl
  | some last =>
    have member := List.mem_of_getLast? ends
    exact header_setNextFree_ne left (right last member) fun same => outside (same ▸ member)

theorem holds_store {b : Block} (left : b.start % 16 = 0) (right : ∀ b ∈ passed, b % 16 = 0)
    (fits : n < 4294967296) (held : h.Holds b) : (h.store (linkOf passed) n).Holds b := by
  by_cases inside : passed.getLast? = some b.start
  · have here := header_setNextFree_self (h := h) (b := b.start) fits
    rw [linkOf, inside]
    simp only [Heap.header, Prod.mk.injEq] at here
    exact ⟨here.1.trans held.1, here.2.2.trans held.2⟩
  · refine holds_congr ?_ held
    rw [linkOf]
    cases ends : passed.getLast? with
    | none => rfl
    | some last =>
      refine header_setNextFree_ne left (right last (List.mem_of_getLast? ends)) fun same => ?_
      exact inside (ends.trans (congrArg some same.symm))

theorem load_store (fits : n < 4294967296) :
    (h.store (linkOf passed) n).load (linkOf passed) = n := by
  rw [linkOf]
  cases passed.getLast? with
  | none =>
    show (BitVec.ofNat 32 n).toNat = n
    rw [BitVec.toNat_ofNat]
    exact Nat.mod_eq_of_lt fits
  | some last => exact toNat_write_self fits

theorem leads_store (right : ∀ b ∈ passed, b % 16 = 0) (distinct : passed.Nodup)
    (leads : Leads h.next h.first passed) :
    Leads (h.store (linkOf passed) n).next (h.store (linkOf passed) n).first passed := by
  rw [linkOf]
  cases ends : passed.getLast? with
  | none =>
    rw [List.getLast?_eq_none_iff] at ends
    subst ends
    trivial
  | some last =>
    refine Leads.congr distinct (fun node within apart => ?_) leads
    refine (next_congr (header_setNextFree_ne (right node within)
      (right last (List.mem_of_getLast? ends)) fun same => apart ?_)).symm
    rw [ends, same]

end Pointers

section Layout

structure Laid (pool : Pool) (h : Heap) (blocks : List Block) : Prop where
  fills : Fills hdrBytes pool.start pool.stop blocks
  sizes : ∀ b ∈ blocks, b.size % 16 = 0
  held : ∀ b ∈ blocks, h.Holds b

structure HeapOk (pool : Pool) (h : Heap) (blocks : List Block) : Prop
    extends Laid pool h blocks where
  linked : Linked h.next h.first (frees blocks)
  apart : blocks.IsChain Block.Apart

variable {pool : Pool} {h : Heap} {blocks : List Block} {b : Block}

theorem Laid.aligned (laid : Laid pool h blocks) (member : b ∈ blocks) : b.start % 16 = 0 :=
  laid.fills.aligned rfl pool.start_aligned laid.sizes member

theorem Laid.bounds (laid : Laid pool h blocks) (member : b ∈ blocks) :
    pool.start ≤ b.start ∧ b.start + 16 + b.size ≤ pool.start + 524288 :=
  laid.fills.bounds member

theorem aligned_of_frees (aligned : ∀ b ∈ blocks, b.start % 16 = 0) :
    ∀ a ∈ frees blocks, a % 16 = 0 := by
  intro a member
  obtain ⟨b, within, rfl⟩ := List.mem_map.mp member
  exact aligned b (List.mem_of_mem_filter within)

theorem nodup_frees {first last : Nat} (filled : Fills hdrBytes first last blocks) :
    (frees blocks).Nodup :=
  (filled.nodup (by decide)).sublist (List.filter_sublist.map Block.start)

theorem frees_append (front back : List Block) :
    frees (front ++ back) = frees front ++ frees back := by
  simp only [frees, List.filter_append, List.map_append]

end Layout

section Sweeping

variable {pool : Pool} {s : Sweep} {done rest : List Block} {b : Block}

def runOf : List Block → Nat
  | [] => 0
  | a :: _ => if a.free then a.start else 0

structure Swept (pool : Pool) (s : Sweep) (done rest : List Block) : Prop where
  front : Fills hdrBytes pool.start s.cur done.reverse
  back : Fills hdrBytes s.cur pool.stop rest
  sizes : ∀ b ∈ done.reverse ++ rest, b.size % 16 = 0
  held : ∀ b ∈ done.reverse ++ rest, s.heap.Holds b
  link : s.link = linkOf (frees done.reverse)
  leads : Leads s.heap.next s.heap.first (frees done.reverse)
  run : s.run = runOf done

theorem Swept.laid (swept : Swept pool s done rest) : Laid pool s.heap (done.reverse ++ rest) :=
  { fills := fills_append.mpr ⟨_, swept.front, swept.back⟩
    sizes := swept.sizes
    held := swept.held }

theorem Swept.cur (swept : Swept pool s done (b :: rest)) : s.cur = b.start := swept.back.1.symm

theorem leads_setSize {h : Heap} {a n : Nat} {passed : List Nat} (left : a % 16 = 0)
    (right : ∀ b ∈ passed, b % 16 = 0) (fits : n < 4294967296) (distinct : passed.Nodup)
    (leads : Leads h.next h.first passed) :
    Leads (h.setSize a n).next (h.setSize a n).first passed := by
  refine Leads.congr distinct (fun node within _ => ?_) leads
  by_cases here : node = a
  · subst here
    have same := header_setSize_self (h := h) (b := node) fits
    simp only [Heap.header, Prod.mk.injEq] at same
    rw [Heap.next, Heap.next, same.2.1]
  · exact (next_congr (header_setSize_ne (right node within) left here)).symm

/-- A free block behind a free block becomes part of it. -/
theorem Swept.merge {a : Block} {earlier : List Block}
    (swept : Swept pool s (a :: earlier) (b :: rest)) (left : a.free = true)
    (right : b.free = true) :
    Swept pool { s with
      heap := s.heap.setSize a.start (a.size + (hdrBytes + b.size))
      cur := b.stop hdrBytes } (a.grow hdrBytes b :: earlier) rest := by
  have laid := swept.laid
  have grown : absorb hdrBytes (a :: earlier) b = a.grow hdrBytes b :: earlier := by
    simp only [absorb, left, right, Bool.and_self, if_true]
  have fits : a.size + (hdrBytes + b.size) < 4294967296 := by
    have small := swept.front.bounds (b := a) (by simp)
    have inside := laid.bounds (b := b) (by simp)
    have low := pool.stop_lt
    rw [swept.cur] at small
    simp only [Block.stop, hdrBytes] at small ⊢
    omega
  have behind : (a :: earlier).reverse ++ b :: rest = earlier.reverse ++ a :: (b :: rest) := by
    rw [List.reverse_cons, List.append_assoc, List.singleton_append]
  have others : ∀ c ∈ earlier.reverse ++ rest, c.start ≠ a.start := by
    intro c within
    refine (behind ▸ laid.fills).start_ne (by decide) ?_
    simp only [List.mem_append, List.mem_cons] at within ⊢
    exact within.imp_right .inr
  have old : ∀ c ∈ earlier.reverse ++ rest, c ∈ (a :: earlier).reverse ++ b :: rest := by
    intro c within
    simp only [List.reverse_cons, List.mem_append, List.mem_cons] at within ⊢
    exact within.imp .inl .inr
  have cases_ : ∀ c ∈ (a.grow hdrBytes b :: earlier).reverse ++ rest,
      c = a.grow hdrBytes b ∨ c ∈ earlier.reverse ++ rest := by
    intro c within
    simp only [List.reverse_cons, List.append_assoc, List.singleton_append, List.mem_append,
      List.mem_cons] at within ⊢
    exact or_left_comm.mp within
  have same : frees (a.grow hdrBytes b :: earlier).reverse = frees (a :: earlier).reverse := by
    simp only [List.reverse_cons, frees_append]
    simp [frees, Block.grow, left]
  have aligned := laid.aligned (b := a) (by simp)
  refine
    { front := ?_, back := swept.back.2, sizes := ?_, held := ?_, link := ?_, leads := ?_
      run := ?_ }
  · have filled := fills_absorb (b := b) (swept.cur ▸ swept.front)
    rwa [grown] at filled
  · intro c within
    rcases cases_ c within with rfl | within
    · have first := swept.sizes a (by simp)
      have second := swept.sizes b (by simp)
      simp only [Block.grow, hdrBytes]
      omega
    · exact swept.sizes c (old c within)
  · intro c within
    rcases cases_ c within with rfl | within
    · have here := header_setSize_self (h := s.heap) (b := a.start) fits
      simp only [Heap.header, Prod.mk.injEq] at here
      exact ⟨here.1, here.2.2.trans (swept.held a (by simp)).2⟩
    · refine holds_congr ?_ (swept.held c (old c within))
      exact header_setSize_ne (laid.aligned (old c within)) aligned (others c within)
  · rw [same]
    exact swept.link
  · rw [same]
    refine leads_setSize aligned ?_ fits (nodup_frees swept.front) swept.leads
    exact aligned_of_frees fun c within => laid.aligned (List.mem_append_left _ within)
  · rw [swept.run]
    rfl

theorem Swept.push_free (swept : Swept pool s done (b :: rest)) (right : b.free = true) :
    Swept pool { s with
      heap := s.heap.store s.link b.start
      cur := b.stop hdrBytes
      link := .next b.start
      run := b.start } (b :: done) rest := by
  have laid := swept.laid
  have inside := laid.bounds (b := b) (by simp)
  have fits : b.start < 4294967296 := by
    have low := pool.stop_lt
    omega
  have aligned : ∀ a ∈ frees done.reverse, a % 16 = 0 :=
    aligned_of_frees fun c within => laid.aligned (List.mem_append_left _ within)
  have moved : (b :: done).reverse ++ rest = done.reverse ++ b :: rest := by
    rw [List.reverse_cons, List.append_assoc, List.singleton_append]
  have behind_ : frees (b :: done).reverse = frees done.reverse ++ [b.start] := by
    rw [List.reverse_cons, frees_append]
    simp [frees, right]
  have before : Fills hdrBytes pool.start (b.stop hdrBytes) (b :: done).reverse := by
    rw [List.reverse_cons]
    exact fills_append.mpr ⟨_, swept.front, swept.back.1, rfl⟩
  refine
    { front := before, back := swept.back.2, sizes := ?_, held := ?_, link := ?_, leads := ?_
      run := ?_ }
  · rw [moved]
    exact swept.sizes
  · rw [moved, swept.link]
    intro c within
    exact holds_store (laid.aligned within) aligned fits (swept.held c within)
  · rw [behind_, linkOf, List.getLast?_append]
    rfl
  · -- The place behind the earlier free blocks now points to the new one.
    rw [behind_, swept.link, leads_append]
    refine ⟨leads_store aligned (nodup_frees swept.front) swept.leads, ?_, trivial⟩
    rw [behind_eq_load, load_store fits, pointer, if_neg]
    have positive := pool.start_pos
    omega
  · rw [runOf, if_pos right]

theorem Swept.push_used (swept : Swept pool s done (b :: rest)) (right : b.free = false) :
    Swept pool { s with cur := b.stop hdrBytes, run := 0 } (b :: done) rest := by
  have moved : (b :: done).reverse ++ rest = done.reverse ++ b :: rest := by
    rw [List.reverse_cons, List.append_assoc, List.singleton_append]
  have same : frees (b :: done).reverse = frees done.reverse := by
    rw [List.reverse_cons, frees_append]
    simp [frees, right]
  have before : Fills hdrBytes pool.start (b.stop hdrBytes) (b :: done).reverse := by
    rw [List.reverse_cons]
    exact fills_append.mpr ⟨_, swept.front, swept.back.1, rfl⟩
  exact
    { front := before
      back := swept.back.2
      sizes := moved ▸ swept.sizes
      held := moved ▸ swept.held
      link := same ▸ swept.link
      leads := same ▸ swept.leads
      run := by rw [runOf, right]; rfl }

theorem Swept.sweepBlock (swept : Swept pool s done (b :: rest)) :
    Swept pool (sweepBlock s) (absorb hdrBytes done b) rest := by
  have laid := swept.laid
  have here : s.heap.size b.start = b.size ∧ s.heap.magic b.start = markOf b.free :=
    swept.held b (by simp)
  have stop : ∀ h : Heap, h.size b.start = b.size → nextBlock h b.start = b.stop hdrBytes := by
    intro h size
    rw [nextBlock, size, Block.stop]
  cases right : b.free with
  | false =>
    have mark : ¬s.heap.magic b.start = magicFree := by
      rw [here.2, right]
      decide
    have pushed : absorb hdrBytes done b = b :: done := by
      cases done with
      | nil => rfl
      | cons a earlier => simp only [absorb, right, Bool.and_false, Bool.false_eq_true, if_false]
    have visited := swept.push_used right
    rw [pushed, CatOs.Libc.sweepBlock]
    simp only [swept.cur, mark, if_false]
    rwa [stop s.heap here.1]
  | true =>
    have mark : s.heap.magic b.start = magicFree := by
      rw [here.2, right]
      rfl
    by_cases extending : s.run = 0
    · have pushed : absorb hdrBytes done b = b :: done := by
        cases done with
        | nil => rfl
        | cons a earlier =>
          -- The last block visited is in use, for it does not start at zero.
          have positive := (laid.bounds (b := a) (by simp)).1
          have low := pool.start_pos
          rw [swept.run, runOf] at extending
          cases left : a.free with
          | false => simp only [absorb, left, Bool.false_and, Bool.false_eq_true, if_false]
          | true =>
            rw [left, if_pos rfl] at extending
            omega
      have visited := swept.push_free right
      have size := (visited.held b (by simp)).1
      rw [pushed, CatOs.Libc.sweepBlock]
      simp only [swept.cur, mark, extending, ne_eq, not_true, if_true, if_false]
      rwa [stop _ size]
    · cases done with
      | nil => exact absurd swept.run extending
      | cons a earlier =>
        have left : a.free = true := by
          by_contra used
          rw [swept.run, runOf, if_neg used] at extending
          exact extending rfl
        have grown : absorb hdrBytes (a :: earlier) b = a.grow hdrBytes b :: earlier := by
          simp only [absorb, left, right, Bool.and_self, if_true]
        have run : s.run = a.start := by rw [swept.run, runOf, if_pos left]
        have other : b.start ≠ a.start := by
          have before := (swept.front.bounds (b := a) (by simp)).2
          rw [swept.cur] at before
          simp only [Block.stop, hdrBytes] at before
          omega
        have size : (s.heap.setSize a.start (a.size + (hdrBytes + b.size))).size b.start =
            b.size := by
          have same := header_setSize_ne (h := s.heap) (n := a.size + (hdrBytes + b.size))
            (laid.aligned (b := b) (by simp)) (laid.aligned (b := a) (by simp)) other
          exact (congrArg Prod.fst same).trans here.1
        have extended : s.heap.size a.start = a.size := (swept.held a (by simp)).1
        have visited := swept.merge left right
        have going : ¬a.start = 0 := run ▸ extending
        rw [grown, CatOs.Libc.sweepBlock]
        simp only [swept.cur, mark, run, ne_eq, going, not_false_eq_true, if_true, here.1, extended]
        rw [stop _ size]
        rwa [run] at visited

theorem Swept.sweep {fuel : Nat} (swept : Swept pool s done rest) (enough : rest.length < fuel) :
    Swept pool (sweep fuel pool.stop s) (rest.foldl (absorb hdrBytes) done) [] := by
  induction rest generalizing s done fuel with
  | nil =>
    obtain ⟨fuel, rfl⟩ := Nat.exists_eq_succ_of_ne_zero (Nat.ne_zero_of_lt enough)
    have finished : ¬s.cur < pool.stop := by
      rw [show s.cur = pool.stop from swept.back]
      exact Nat.lt_irrefl _
    rw [CatOs.Libc.sweep, if_neg finished]
    exact swept
  | cons b rest ih =>
    obtain ⟨fuel, rfl⟩ := Nat.exists_eq_succ_of_ne_zero (Nat.ne_zero_of_lt enough)
    have going : s.cur < pool.stop := by
      have inside := (swept.laid.bounds (b := b) (by simp)).2
      rw [swept.cur, Pool.stop, heapPoolBytes]
      omega
    rw [CatOs.Libc.sweep, if_pos going]
    exact ih swept.sweepBlock (Nat.lt_of_succ_lt_succ enough)

theorem Laid.heapCoalesce {h : Heap} {blocks : List Block} (laid : Laid pool h blocks) :
    HeapOk pool (heapCoalesce pool h) (mergeFree hdrBytes blocks) := by
  have begun : Swept pool { heap := h, cur := pool.start, link := .head, run := 0 } [] blocks :=
    { front := rfl, back := laid.fills, sizes := laid.sizes, held := laid.held, link := rfl
      leads := trivial, run := rfl }
  have enough : blocks.length < heapPoolBytes / hdrBytes + 1 := by
    have headers := laid.fills.length_le
    simp only [Pool.stop, heapPoolBytes, hdrBytes] at headers ⊢
    omega
  have swept := begun.sweep enough
  have whole := swept.laid
  rw [List.append_nil] at whole
  have aligned : ∀ a ∈ frees (mergeFree hdrBytes blocks), a % 16 = 0 :=
    aligned_of_frees fun c within => whole.aligned within
  have fits : 0 < 4294967296 := by decide
  refine
    { fills := whole.fills, sizes := whole.sizes, held := fun b within => ?_, linked := ?_
      apart := apart_mergeFree }
  · rw [CatOs.Libc.heapCoalesce]
    simp only [swept.link]
    exact holds_store (whole.aligned within) aligned fits (whole.held b within)
  · -- The place behind the last free block points nowhere.
    rw [CatOs.Libc.heapCoalesce]
    simp only [swept.link]
    refine linked_iff_leads.mpr ⟨leads_store aligned (nodup_frees whole.fills) swept.leads, ?_⟩
    exact behind_eq_load.trans (congrArg pointer (load_store fits))

end Sweeping

end CatOs.Libc
