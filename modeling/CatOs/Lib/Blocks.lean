import Mathlib.Data.List.Chain
import Mathlib.Data.List.Nodup

/-! Lists of adjacent blocks that fill an interval, and the merging of free neighbours. -/

namespace CatOs

/-- A block behind a header of its own: where the header starts, and how much follows it. -/
structure Block where
  start : Nat
  size : Nat
  free : Bool
  deriving DecidableEq, Repr

/-- The position right behind a block, given the length of a header. -/
def Block.stop (hdr : Nat) (b : Block) : Nat := b.start + hdr + b.size

/-- The blocks follow each other from one position to another without gap or overlap. -/
def Fills (hdr : Nat) : Nat → Nat → List Block → Prop
  | first, last, [] => first = last
  | first, last, b :: rest => b.start = first ∧ Fills hdr (b.stop hdr) last rest

/-- Not both of two blocks are free. -/
def Block.Apart (a b : Block) : Prop := ¬(a.free = true ∧ b.free = true)

/-- Where the free blocks of a list start. -/
def frees (blocks : List Block) : List Nat := (blocks.filter Block.free).map Block.start

/-- The blocks of a list that are in use. -/
def usedBlocks (blocks : List Block) : List Block := blocks.filter fun b => !b.free

section Fills

variable {hdr first last : Nat} {blocks : List Block}

theorem fills_append {front back : List Block} :
    Fills hdr first last (front ++ back) ↔
      ∃ middle, Fills hdr first middle front ∧ Fills hdr middle last back := by
  induction front generalizing first with
  | nil =>
    refine ⟨fun filled => ⟨first, rfl, filled⟩, ?_⟩
    rintro ⟨middle, rfl, filled⟩
    exact filled
  | cons b front ih =>
    constructor
    · rintro ⟨begins, rest⟩
      obtain ⟨middle, before, after⟩ := ih.mp rest
      exact ⟨middle, ⟨begins, before⟩, after⟩
    · rintro ⟨middle, ⟨begins, before⟩, after⟩
      exact ⟨begins, ih.mpr ⟨middle, before, after⟩⟩

/-- The headers alone take up no more than there is. -/
theorem Fills.length_le (filled : Fills hdr first last blocks) :
    first + hdr * blocks.length ≤ last := by
  induction blocks generalizing first with
  | nil => exact Nat.le_of_eq filled
  | cons b rest ih =>
    obtain ⟨begins, filled⟩ := filled
    have behind := ih filled
    rw [List.length_cons, Nat.mul_succ]
    simp only [Block.stop] at behind
    omega

/-- Every block lies inside the interval. -/
theorem Fills.bounds (filled : Fills hdr first last blocks) {b : Block} (member : b ∈ blocks) :
    first ≤ b.start ∧ b.stop hdr ≤ last := by
  induction blocks generalizing first with
  | nil => cases member
  | cons head rest ih =>
    obtain ⟨begins, filled⟩ := filled
    rcases List.mem_cons.mp member with rfl | later
    · have behind := filled.length_le
      exact ⟨Nat.le_of_eq begins.symm, by omega⟩
    · obtain ⟨after, inside⟩ := ih filled later
      simp only [Block.stop] at after
      exact ⟨by omega, inside⟩

/-- Every block ends before the later ones start. -/
theorem Fills.pairwise (filled : Fills hdr first last blocks) :
    blocks.Pairwise fun a b => a.stop hdr ≤ b.start := by
  induction blocks generalizing first with
  | nil => exact .nil
  | cons head rest ih =>
    exact .cons (fun b later => (filled.2.bounds later).1) (ih filled.2)

/-- Of two blocks one ends before the other one starts. -/
theorem Fills.separate (filled : Fills hdr first last blocks) {a b : Block} (left : a ∈ blocks)
    (right : b ∈ blocks) (apart : a ≠ b) : a.stop hdr ≤ b.start ∨ b.stop hdr ≤ a.start := by
  have : Std.Symm fun a b : Block => a.stop hdr ≤ b.start ∨ b.stop hdr ≤ a.start :=
    ⟨fun _ _ => Or.symm⟩
  have either : blocks.Pairwise fun a b => a.stop hdr ≤ b.start ∨ b.stop hdr ≤ a.start :=
    filled.pairwise.imp .inl
  exact either.forall left right apart

/-- Blocks start at different positions, unless headers are empty. -/
theorem Fills.nodup (filled : Fills hdr first last blocks) (positive : 0 < hdr) :
    (blocks.map Block.start).Nodup := by
  rw [List.Nodup, List.pairwise_map]
  refine filled.pairwise.imp fun {a b} behind => ?_
  simp only [Block.stop] at behind
  omega

/-- The other blocks start elsewhere than a given one. -/
theorem Fills.start_ne {front back : List Block} {b c : Block}
    (filled : Fills hdr first last (front ++ b :: back)) (positive : 0 < hdr)
    (other : c ∈ front ++ back) : c.start ≠ b.start := by
  have moved : (front ++ b :: back).Perm (b :: (front ++ back)) := List.perm_middle
  have distinct := (moved.map Block.start).nodup_iff.mp (filled.nodup positive)
  intro same
  apply (List.nodup_cons.mp distinct).1
  exact List.mem_map.mpr ⟨c, other, same⟩

/-- Blocks of whole units behind headers of whole units start at whole units. -/
theorem Fills.aligned {unit : Nat} (filled : Fills hdr first last blocks)
    (headers : hdr % unit = 0) (begins : first % unit = 0)
    (sizes : ∀ b ∈ blocks, b.size % unit = 0) {b : Block} (member : b ∈ blocks) :
    b.start % unit = 0 := by
  induction blocks generalizing first with
  | nil => cases member
  | cons head rest ih =>
    obtain ⟨here, filled⟩ := filled
    rcases List.mem_cons.mp member with rfl | later
    · rw [here, begins]
    · refine ih filled ?_ (fun b within => sizes b (List.mem_cons_of_mem _ within)) later
      rw [Block.stop, here, Nat.add_mod, Nat.add_mod first, begins, headers,
        sizes head List.mem_cons_self]
      simp

/-- A block may be replaced by blocks that fill its place. -/
theorem Fills.replace {front back middle : List Block} {b : Block}
    (filled : Fills hdr first last (front ++ b :: back))
    (fits : Fills hdr b.start (b.stop hdr) middle) :
    Fills hdr first last (front ++ (middle ++ back)) := by
  obtain ⟨position, before, begins, after⟩ := fills_append.mp filled
  rw [begins] at fits
  exact fills_append.mpr ⟨position, before, fills_append.mpr ⟨_, fits, after⟩⟩

/-- If all blocks are free and no two neighbours are, there is one block at most. -/
theorem eq_singleton_of_free {b : Block} {rest : List Block}
    (apart : (b :: rest).IsChain Block.Apart) (free : ∀ c ∈ b :: rest, c.free = true) :
    rest = [] := by
  cases rest with
  | nil => rfl
  | cons c rest =>
    have neighbours := (List.isChain_cons_cons.mp apart).1
    exact absurd ⟨free b List.mem_cons_self, free c (List.mem_cons_of_mem _ List.mem_cons_self)⟩
      neighbours

end Fills

section Taking

variable {hdr first last least req : Nat} {front back : List Block} {b : Block}

/-- What becomes of a free block that serves a request: what is left over is a block if it can be. -/
def Block.carve (hdr least req : Nat) (b : Block) : List Block :=
  if b.size ≥ req + hdr + least then
    [{ start := b.start, size := req, free := false },
      { start := b.start + hdr + req, size := b.size - req - hdr, free := true }]
  else [{ b with free := false }]

theorem Fills.carve (filled : Fills hdr first last (front ++ b :: back)) :
    Fills hdr first last (front ++ (b.carve hdr least req ++ back)) := by
  refine filled.replace ?_
  simp only [Block.carve]
  split
  · refine ⟨rfl, rfl, ?_⟩
    simp only [Block.stop, Fills]
    omega
  · exact ⟨rfl, rfl⟩

/-- A block in use may stand anywhere between blocks. -/
theorem apart_insert {tail : List Block} (used : b.free = false)
    (left : front.IsChain Block.Apart) (right : tail.IsChain Block.Apart) :
    (front ++ b :: tail).IsChain Block.Apart := by
  rw [List.isChain_append]
  refine ⟨left, ?_, ?_⟩
  · cases tail with
    | nil => exact .singleton b
    | cons c tail =>
      refine List.isChain_cons_cons.mpr ⟨fun both => ?_, right⟩
      rw [used] at both
      exact absurd both.1 Bool.false_ne_true
  · rintro x - y here both
    obtain rfl : b = y := Option.some.inj here
    rw [used] at both
    exact absurd both.2 Bool.false_ne_true

theorem apart_carve (apart : (front ++ b :: back).IsChain Block.Apart) (free : b.free = true) :
    (front ++ (b.carve hdr least req ++ back)).IsChain Block.Apart := by
  obtain ⟨left, right, -⟩ := List.isChain_append.mp apart
  simp only [Block.carve]
  split
  · -- What is left over has the neighbour of the whole block on its right.
    refine apart_insert rfl left ?_
    cases back with
    | nil => exact .singleton _
    | cons c back =>
      obtain ⟨neighbours, rest⟩ := List.isChain_cons_cons.mp right
      exact List.isChain_cons_cons.mpr ⟨fun both => neighbours ⟨free, both.2⟩, rest⟩
  · exact apart_insert rfl left right.tail

theorem sizes_carve {unit : Nat} (headers : hdr % unit = 0) (request : req % unit = 0)
    (size : b.size % unit = 0) : ∀ c ∈ b.carve hdr least req, c.size % unit = 0 := by
  simp only [Block.carve]
  split
  · rename_i large
    have rest : (b.size - req - hdr) % unit = 0 := by
      have whole : (b.size - req - hdr + (req + hdr)) % unit = 0 := by
        rwa [show b.size - req - hdr + (req + hdr) = b.size by omega]
      rw [← Nat.dvd_iff_mod_eq_zero] at *
      exact (Nat.dvd_add_left (Nat.dvd_add request headers)).mp whole
    intro c member
    rcases List.mem_cons.mp member with rfl | member
    · exact request
    · obtain rfl := List.mem_singleton.mp member
      exact rest
  · intro c member
    obtain rfl := List.mem_singleton.mp member
    exact size

end Taking

section Merging

variable {hdr first last : Nat} {blocks done : List Block} {b : Block}

/-- A block that has taken over its neighbour on the right. -/
def Block.grow (hdr : Nat) (a b : Block) : Block := { a with size := a.size + (hdr + b.size) }

/-- Put a block behind those already visited, the last of which comes first. -/
def absorb (hdr : Nat) (done : List Block) (b : Block) : List Block :=
  match done with
  | [] => [b]
  | a :: earlier => if a.free && b.free then a.grow hdr b :: earlier else b :: a :: earlier

/-- Merge free neighbours, from left to right. -/
def mergeFree (hdr : Nat) (blocks : List Block) : List Block :=
  (blocks.foldl (absorb hdr) []).reverse

theorem Block.stop_grow {a : Block} (adjacent : b.start = a.stop hdr) :
    (a.grow hdr b).stop hdr = b.stop hdr := by
  simp only [Block.stop, Block.grow] at adjacent ⊢
  omega

theorem fills_absorb (filled : Fills hdr first b.start done.reverse) :
    Fills hdr first (b.stop hdr) (absorb hdr done b).reverse := by
  have pushed : Fills hdr first (b.stop hdr) (b :: done).reverse := by
    rw [List.reverse_cons]
    exact fills_append.mpr ⟨_, filled, rfl, rfl⟩
  cases done with
  | nil => exact pushed
  | cons a earlier =>
    simp only [absorb]
    split
    · -- The last block reaches as far as the new one does.
      rw [List.reverse_cons] at filled ⊢
      obtain ⟨middle, before, begins, adjacent⟩ := fills_append.mp filled
      exact fills_append.mpr ⟨middle, before, begins, Block.stop_grow (Eq.symm adjacent)⟩
    · exact pushed

theorem apart_absorb (apart : done.IsChain Block.Apart) :
    (absorb hdr done b).IsChain Block.Apart := by
  cases done with
  | nil => exact .singleton b
  | cons a earlier =>
    simp only [absorb]
    split
    · cases earlier with
      | nil => exact .singleton _
      | cons c earlier =>
        obtain ⟨neighbours, rest⟩ := List.isChain_cons_cons.mp apart
        exact List.isChain_cons_cons.mpr ⟨neighbours, rest⟩
    · rename_i notBoth
      refine List.isChain_cons_cons.mpr ⟨fun both => notBoth ?_, apart⟩
      rw [both.1, both.2]
      rfl

theorem usedBlocks_absorb :
    usedBlocks (absorb hdr done b) = usedBlocks [b] ++ usedBlocks done := by
  cases done with
  | nil => exact (List.append_nil _).symm
  | cons a earlier =>
    simp only [absorb]
    split
    · rename_i both
      rw [Bool.and_eq_true] at both
      simp [usedBlocks, Block.grow, both.1, both.2]
    · simp only [usedBlocks, List.filter_cons, List.filter_nil]
      split <;> rfl

theorem apart_mergeFree : (mergeFree hdr blocks).IsChain Block.Apart := by
  have visited : ∀ (blocks done : List Block), done.IsChain Block.Apart →
      (blocks.foldl (absorb hdr) done).IsChain Block.Apart := by
    intro blocks
    induction blocks with
    | nil => exact fun done apart => apart
    | cons b rest ih => exact fun done apart => ih _ (apart_absorb apart)
  rw [mergeFree, List.isChain_reverse]
  refine (visited blocks [] .nil).imp fun a b apart both => ?_
  exact apart ⟨both.2, both.1⟩

theorem usedBlocks_mergeFree : usedBlocks (mergeFree hdr blocks) = usedBlocks blocks := by
  have visited : ∀ (blocks done : List Block),
      (usedBlocks (blocks.foldl (absorb hdr) done)).reverse =
        (usedBlocks done).reverse ++ usedBlocks blocks := by
    intro blocks
    induction blocks with
    | nil => exact fun done => (List.append_nil _).symm
    | cons b rest ih =>
      intro done
      have split : usedBlocks (b :: rest) = usedBlocks [b] ++ usedBlocks rest :=
        List.filter_append [b] rest
      have short : (usedBlocks [b]).reverse = usedBlocks [b] := by
        simp only [usedBlocks, List.filter_cons, List.filter_nil]
        split <;> rfl
      rw [List.foldl_cons, ih, usedBlocks_absorb, split, List.reverse_append, short,
        List.append_assoc]
  have turned := visited blocks []
  rw [mergeFree]
  exact List.filter_reverse.trans turned

end Merging

end CatOs
