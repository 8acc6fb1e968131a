import CatOs.Lib.Buffer
import Mathlib.Logic.Equiv.Basic

/-! Sorting an array in place: an insertion sort that swaps blocks of bytes. -/

namespace CatOs.Libc

open Function

def tmpSize : Nat := 256

def swapBlocks (size p q : Nat) (mem : Buffer UInt8) : Buffer UInt8 :=
  let count := min size tmpSize
  let tmp := mem.read p count
  (mem.copyWithin p q count).write q tmp

def elem (b size : Nat) (mem : Buffer UInt8) (k : Nat) : List UInt8 := mem.read (b + k * size) size

def sink (compar : List UInt8 → List UInt8 → Int) (b size : Nat) :
    Nat → Buffer UInt8 → Buffer UInt8
  | 0, mem => mem
  | j + 1, mem =>
    if compar (elem b size mem j) (elem b size mem (j + 1)) > 0 then
      sink compar b size j (swapBlocks size (b + j * size) (b + (j + 1) * size) mem)
    else mem

def qsort (b nmemb size : Nat) (compar : List UInt8 → List UInt8 → Int) (mem : Buffer UInt8) :
    Buffer UInt8 :=
  forRange (nmemb - 1) (fun i mem => sink compar b size (i + 1) mem) mem

structure Orders (compar : List UInt8 → List UInt8 → Int) (nmemb : Nat)
    (e : Nat → List UInt8) : Prop where
  consistent : ∀ u < nmemb, ∀ v < nmemb, 0 < compar (e u) (e v) ↔ compar (e v) (e u) < 0
  trans : ∀ u < nmemb, ∀ v < nmemb, ∀ w < nmemb,
    compar (e u) (e v) ≤ 0 → compar (e v) (e w) ≤ 0 → compar (e u) (e w) ≤ 0

def SortsTo (compar : List UInt8 → List UInt8 → Int) (nmemb : Nat) (e e' : Nat → List UInt8) :
    Prop :=
  ∃ σ : Equiv.Perm Nat, (∀ k < nmemb, σ k < nmemb ∧ e' k = e (σ k)) ∧
    ∀ i j, i < j → j < nmemb →
      compar (e' i) (e' j) ≤ 0 ∧ (compar (e' i) (e' j) = 0 → σ i < σ j)

section Swap

variable {size : Nat} (b j : Nat) (mem : Buffer UInt8)

theorem swapBlocks_apply (size p : Nat) (mem : Buffer UInt8) (a : Nat) :
    swapBlocks size p (p + size) mem a =
      if p ≤ a ∧ a < p + min size tmpSize then mem (a + size)
      else if p + size ≤ a ∧ a < p + size + min size tmpSize then mem (a - size)
      else mem a := by
  have fits : min size tmpSize ≤ size := Nat.min_le_left ..
  generalize counts : min size tmpSize = count at fits
  simp only [swapBlocks, counts, Buffer.write, Buffer.getElem?_read]
  rw [Buffer.copyWithin_apply _ (by omega)]
  grind

theorem elem_swapBlocks (fits : size ≤ tmpSize) (k : Nat) :
    elem b size (swapBlocks size (b + j * size) (b + (j + 1) * size) mem) k =
      elem b size mem (Equiv.swap j (j + 1) k) := by
  have next : b + (j + 1) * size = b + j * size + size := by rw [Nat.succ_mul, Nat.add_assoc]
  have count : min size tmpSize = size := Nat.min_eq_left fits
  simp only [elem, Buffer.read]
  refine List.map_congr_left fun i member => ?_
  have within := List.mem_range.mp member
  rw [next, swapBlocks_apply, count]
  rcases Nat.lt_trichotomy k j with before | rfl | after
  · have apart : k * size + size ≤ j * size := by
      rw [← Nat.succ_mul]
      exact Nat.mul_le_mul_right size before
    rw [Equiv.swap_apply_of_ne_of_ne (by omega) (by omega), if_neg (by omega), if_neg (by omega)]
  · rw [Equiv.swap_apply_left, if_pos (by omega), next]
    congr 1
    omega
  · rcases Nat.eq_or_lt_of_le after with rfl | past
    · rw [Equiv.swap_apply_right, next, if_neg (by omega), if_pos (by omega)]
      congr 1
      omega
    · have apart : j * size + size + size ≤ k * size := by
        rw [← Nat.succ_mul, ← Nat.succ_mul]
        exact Nat.mul_le_mul_right size past
      rw [Equiv.swap_apply_of_ne_of_ne (by omega) (by omega), if_neg (by omega), if_neg (by omega)]

end Swap

section Sorting

variable {compar : List UInt8 → List UInt8 → Int} {b nmemb size : Nat} {start : Buffer UInt8}

def Before (compar : List UInt8 → List UInt8 → Int) (e : Nat → List UInt8) (u v : Nat) : Prop :=
  compar (e u) (e v) < 0 ∨ compar (e u) (e v) = 0 ∧ u < v

theorem Orders.before_trans {e : Nat → List UInt8} (order : Orders compar nmemb e) {u v w : Nat}
    (us : u < nmemb) (vs : v < nmemb) (ws : w < nmemb) (first : Before compar e u v)
    (second : Before compar e v w) : Before compar e u w := by
  have forth := order.trans u us v vs w ws
  have back := order.trans w ws u us v vs
  have rest := order.trans v vs w ws u us
  have uv := order.consistent u us v vs
  have vu := order.consistent v vs u us
  have vw := order.consistent v vs w ws
  have wv := order.consistent w ws v vs
  have uw := order.consistent u us w ws
  have wu := order.consistent w ws u us
  unfold Before at *
  omega

/--
The elements of the array are those at the start, moved by a permutation.

Up to an index they are in order, apart from the one that is on its way down.
-/
structure Sinking (compar : List UInt8 → List UInt8 → Int) (b size : Nat) (start : Buffer UInt8)
    (i hole : Nat) (mem : Buffer UInt8) (σ : Equiv.Perm Nat) : Prop where
  moved : ∀ k, elem b size mem k = elem b size start (σ k)
  later : ∀ k, i < k → σ k = k
  sorted : ∀ a c, a < c → c ≤ i → c ≠ hole → Before compar (elem b size start) (σ a) (σ c)

variable (fits : size ≤ tmpSize) (order : Orders compar nmemb (elem b size start))
include fits order

/-- An element on its way down finds its place. -/
theorem Sinking.sink {i : Nat} (below : i < nmemb) : ∀ {hole : Nat} {mem : Buffer UInt8}
    {σ : Equiv.Perm Nat}, hole ≤ i → σ hole = i → Sinking compar b size start i hole mem σ →
    ∃ σ', Sinking compar b size start i (i + 1) (sink compar b size hole mem) σ' := by
  intro hole
  induction hole with
  | zero =>
    intro mem σ _ _ sinking
    exact ⟨σ, sinking.moved, sinking.later, fun a c less within _ =>
      sinking.sorted a c less within (by omega)⟩
  | succ j ih =>
    intro mem σ within here sinking
    -- What stands before the hole stood before the element that sinks.
    have left : ∀ a, a ≤ j → σ a < i := by
      intro a small
      have fixed := sinking.later (σ a)
      have distinct : σ a ≠ i := fun same => by
        have := σ.injective (same.trans here.symm)
        omega
      by_contra large
      have := σ.injective (fixed (by omega))
      have := sinking.later a
      omega
    have earlier := left j (Nat.le_refl j)
    rw [CatOs.Libc.sink, sinking.moved j, sinking.moved (j + 1), here]
    have consistent := order.consistent (σ j) (by omega) i below
    have reversed := order.consistent i below (σ j) (by omega)
    split
    · rename_i larger
      refine @ih _ ((Equiv.swap j (j + 1)).trans σ) (by omega) ?_ ⟨?_, ?_, ?_⟩
      · rw [Equiv.trans_apply, Equiv.swap_apply_left, here]
      · intro k
        rw [elem_swapBlocks b j mem fits, sinking.moved, Equiv.trans_apply]
      · intro k large
        rw [Equiv.trans_apply, Equiv.swap_apply_of_ne_of_ne (by omega) (by omega)]
        exact sinking.later k large
      · intro a c less small free
        have first : Before compar (elem b size start) i (σ j) := by
          unfold Before
          omega
        rw [← here] at first
        have sorted := sinking.sorted
        simp only [Equiv.trans_apply, Equiv.swap_apply_def]
        grind
    · rename_i smaller
      refine ⟨σ, sinking.moved, sinking.later, fun a c less within _ => ?_⟩
      by_cases hole : c = j + 1
      · subst hole
        rw [here]
        have last : Before compar (elem b size start) (σ j) i := by
          unfold Before
          omega
        rcases Nat.eq_or_lt_of_le (Nat.le_of_lt_succ less) with rfl | before
        · exact last
        · have := left a (by omega)
          exact order.before_trans (by omega) (by omega) below
            (sinking.sorted a j before (by omega) (by omega)) last
      · exact sinking.sorted a c less within hole

theorem sortsTo_qsort : SortsTo compar nmemb (elem b size start)
    (elem b size (qsort b nmemb size compar start)) := by
  -- After each round one more element stands in its place among those before it.
  have loop : ∃ σ, Sinking compar b size start (nmemb - 1) (nmemb - 1 + 1)
      (qsort b nmemb size compar start) σ := by
    refine forRange_invariant (fun i mem => ∃ σ, Sinking compar b size start i (i + 1) mem σ) ?_ ?_
    · exact ⟨Equiv.refl Nat, fun _ => rfl, fun _ _ => rfl, fun a c less small => by omega⟩
    · intro i mem below rounds
      obtain ⟨σ, moved, later, sorted⟩ := rounds
      refine Sinking.sink fits order (by omega) (Nat.le_refl (i + 1))
        (later (i + 1) (Nat.lt_succ_self i)) ⟨moved, fun k large => later k (by omega), ?_⟩
      exact fun a c less small free => sorted a c less (by omega) free
  obtain ⟨σ, moved, later, sorted⟩ := loop
  refine ⟨σ, fun k small => ⟨?_, moved k⟩, fun i j less small => ?_⟩
  · by_contra large
    have := σ.injective (later (σ k) (by omega))
    omega
  · have before := sorted i j less (by omega) (by omega)
    rw [moved i, moved j]
    unfold Before at before
    omega

end Sorting

def byFirst (x y : List UInt8) : Int := ((x.getD 0 0).toNat : Int) - (y.getD 0 0).toNat

def twoLong : Buffer UInt8 := fun a => if a = 0 ∨ a = tmpSize then 1 else 0

theorem orders_byFirst (nmemb : Nat) (e : Nat → List UInt8) : Orders byFirst nmemb e := by
  constructor
  · intro u _ v _
    unfold byFirst
    omega
  · intro u _ v _ w _
    unfold byFirst
    omega

theorem getD_elem (b : Nat) {size i : Nat} (mem : Buffer UInt8) (k : Nat) (within : i < size) :
    (elem b size mem k).getD i 0 = mem (b + k * size + i) := by
  rw [elem, List.getD_eq_getElem?_getD, Buffer.getElem?_read, if_pos within, Option.getD_some]

theorem not_sortsTo_twoLong {size : Nat} (long : tmpSize < size) :
    ¬SortsTo byFirst 2 (elem 0 size twoLong) (elem 0 size (qsort 0 2 size byFirst twoLong)) := by
  have stored : min size tmpSize = tmpSize := Nat.min_eq_right (Nat.le_of_lt long)
  have filled : 0 < tmpSize := by decide
  have larger : byFirst (elem 0 size twoLong 0) (elem 0 size twoLong 1) > 0 := by
    simp only [byFirst, getD_elem 0 twoLong _ (Nat.zero_lt_of_lt long), twoLong]
    rw [if_pos (by omega), if_neg (by omega)]
    decide
  have swapped : qsort 0 2 size byFirst twoLong = swapBlocks size 0 (0 + size) twoLong := by
    show sink byFirst 0 size 1 twoLong = _
    rw [sink, if_pos larger]
    simp [sink]
  rw [swapped]
  rintro ⟨σ, moved, -⟩
  obtain ⟨small, same⟩ := moved 0 (by decide)
  -- The new first element begins like the second one and goes on like the first.
  have first := congrArg (fun bytes => bytes.getD 0 0) same
  have behind := congrArg (fun bytes => bytes.getD tmpSize 0) same
  simp only [getD_elem 0 _ _ (Nat.zero_lt_of_lt long), getD_elem 0 _ _ long, swapBlocks_apply,
    stored] at first behind
  have index : σ 0 = 0 ∨ σ 0 = 1 := by omega
  rcases index with zero | one
  · rw [zero, if_pos (by omega), twoLong, twoLong, if_neg (by omega), if_pos (by omega)] at first
    exact absurd first (by decide)
  · rw [one, if_neg (by omega), if_neg (by omega), twoLong, twoLong, if_pos (by omega),
      if_neg (by omega)] at behind
    exact absurd behind (by decide)

end CatOs.Libc
