import CatOs.Lib.Loop

/-! Buffers as functions of the position, read and written in runs of consecutive positions. -/

namespace CatOs

open Function

/-- The contents of a region of storage, by position. -/
abbrev Buffer (α : Type*) := Nat → α

namespace Buffer

variable {α : Type*}

/-- A run of consecutive positions. -/
def read (buffer : Buffer α) (start count : Nat) : List α :=
  (List.range count).map fun i => buffer (start + i)

/-- Overwrite a run of consecutive positions, leaving the rest as it was. -/
def write (buffer : Buffer α) (start : Nat) (data : List α) : Buffer α :=
  fun i => if i < start then buffer i else data[i - start]?.getD (buffer i)

/-- Copy a run of positions within one buffer, one position at a time from the front. -/
def copyWithin (buffer : Buffer α) (target source count : Nat) : Buffer α :=
  -- Each step reads what the earlier steps left, as a forward byte loop does.
  forRange count (fun i current => update current (target + i) (current (source + i)))
    buffer

@[simp] theorem length_read (buffer : Buffer α) (start count : Nat) :
    (buffer.read start count).length = count := by
  simp [read]

@[simp] theorem getElem?_read (buffer : Buffer α) (start count i : Nat) :
    (buffer.read start count)[i]? = if i < count then some (buffer (start + i)) else none := by
  by_cases within : i < count <;> simp [read, within]

/-- An empty run reads nothing. -/
@[simp] theorem read_zero (buffer : Buffer α) (start : Nat) : buffer.read start 0 = [] := rfl

/-- A run of one position is what the buffer holds there. -/
@[simp] theorem read_one (buffer : Buffer α) (start : Nat) :
    buffer.read start 1 = [buffer start] := rfl

theorem mem_read {buffer : Buffer α} {start count : Nat} {x : α} :
    x ∈ buffer.read start count ↔ ∃ i < count, buffer (start + i) = x := by
  simp [read]

/-- A run splits into its first positions and the rest. -/
theorem read_add (buffer : Buffer α) (start first second : Nat) :
    buffer.read start (first + second) =
      buffer.read start first ++ buffer.read (start + first) second := by
  simp [read, List.range_add, Function.comp_def, Nat.add_assoc]

/-- Runs agree when the buffers agree at every position they read. -/
theorem read_congr {buffer other : Buffer α} {start count : Nat}
    (agree : ∀ i, i < count → buffer (start + i) = other (start + i)) :
    buffer.read start count = other.read start count := by
  simp only [read]
  exact List.map_congr_left fun i member => agree i (List.mem_range.mp member)

/-- Equal runs hold equal entries at every position they read. -/
theorem eq_of_read_eq {buffer other : Buffer α} {start count : Nat}
    (same : buffer.read start count = other.read start count) {i : Nat} (within : i < count) :
    buffer (start + i) = other (start + i) := by
  have entries := congrArg (fun run => run[i]?) same
  simp only [getElem?_read, if_pos within, Option.some.injEq] at entries
  exact entries

theorem take_read (buffer : Buffer α) (start : Nat) {count taken : Nat} (short : taken ≤ count) :
    (buffer.read start count).take taken = buffer.read start taken := by
  obtain ⟨rest, rfl⟩ := Nat.exists_eq_add_of_le short
  rw [read_add, List.take_left' (length_read _ _ _)]

theorem drop_read (buffer : Buffer α) (start : Nat) {count dropped : Nat}
    (short : dropped ≤ count) :
    (buffer.read start count).drop dropped = buffer.read (start + dropped) (count - dropped) := by
  obtain ⟨rest, rfl⟩ := Nat.exists_eq_add_of_le short
  rw [read_add, List.drop_left' (length_read _ _ _), Nat.add_sub_cancel_left]

/-- Changing a position at or past the end of a run does not change the run. -/
theorem read_update_past (buffer : Buffer α) {count i : Nat} (past : count ≤ i) (x : α) :
    read (update buffer i x) 0 count = buffer.read 0 count :=
  read_congr fun _ _ => update_of_ne (by omega) _ _

/-- Setting the position right after a run extends the run by what was set. -/
theorem read_update_snoc (buffer : Buffer α) (count : Nat) (x : α) :
    read (update buffer count x) 0 (count + 1) = buffer.read 0 count ++ [x] := by
  rw [read_add, read_update_past buffer (Nat.le_refl count), Nat.zero_add, read_one,
    update_self]

/-- Changing one position changes that entry of a run from the front. -/
theorem read_update (buffer : Buffer α) (count i : Nat) (x : α) :
    read (update buffer i x) 0 count = (buffer.read 0 count).set i x := by
  apply List.ext_getElem?
  intro j
  rw [List.getElem?_set, getElem?_read, getElem?_read, length_read, Nat.zero_add]
  rcases eq_or_ne i j with rfl | other
  · rw [if_pos rfl, update_self]
  · rw [if_neg other, update_of_ne (Ne.symm other)]

theorem write_before (buffer : Buffer α) {start i : Nat} (data : List α) (before : i < start) :
    buffer.write start data i = buffer i := by
  simp [write, before]

/-- Positions past a write keep their contents. -/
theorem write_after (buffer : Buffer α) {start i : Nat} (data : List α)
    (past : start + data.length ≤ i) : buffer.write start data i = buffer i := by
  have absent : data[i - start]? = none := List.getElem?_eq_none (by omega)
  simp [write, absent]

/-- A written position holds the entry that was written there. -/
theorem write_at (buffer : Buffer α) (start : Nat) (data : List α) {i : Nat}
    (within : i < data.length) : buffer.write start data (start + i) = data[i] := by
  simp [write, within, Nat.not_lt.mpr (Nat.le_add_right start i)]

/-- The same write leaves buffers that agree outside of it in agreement. -/
theorem write_congr {buffer other : Buffer α} (start : Nat) (data : List α) {i : Nat}
    (outside : i < start ∨ start + data.length ≤ i → buffer i = other i) :
    buffer.write start data i = other.write start data i := by
  rcases Nat.lt_or_ge i start with before | past
  · rw [write_before _ _ before, write_before _ _ before, outside (.inl before)]
  rcases Nat.lt_or_ge i (start + data.length) with inside | after
  · obtain ⟨k, rfl⟩ := Nat.exists_eq_add_of_le past
    rw [write_at _ _ _ (by omega), write_at _ _ _ (by omega)]
  · rw [write_after _ _ after, write_after _ _ after, outside (.inr after)]

/-- Buffers related at some positions stay so when one position becomes a related value. -/
theorem update_related {β : Type*} (related : α → β → Prop) {buffer : Buffer α} {other : Buffer β}
    {at_ : Nat → Prop} (agree : ∀ i, at_ i → related (buffer i) (other i)) (i : Nat) {x : α} {y : β}
    (new : at_ i → related x y) :
    ∀ l, at_ l → related (update buffer i x l) (update other i y l) := by
  intro l need
  by_cases same : l = i
  · subst same
    rw [update_self, update_self]
    exact new need
  · rw [update_of_ne same, update_of_ne same]
    exact agree l need

/-- Writing nothing changes nothing. -/
@[simp] theorem write_nil (buffer : Buffer α) (start : Nat) : buffer.write start [] = buffer := by
  funext i
  simp [write]

/-- Writing a run sets its first position and writes the rest behind it. -/
theorem write_cons (buffer : Buffer α) (start : Nat) (x : α) (data : List α) :
    buffer.write start (x :: data) = write (update buffer start x) (start + 1) data := by
  funext i
  rcases Nat.lt_trichotomy i start with before | rfl | past
  · rw [write_before _ _ before, write_before _ _ (by omega), update_of_ne (by omega)]
  · simp [write]
  · have shift : i - start = i - (start + 1) + 1 := by omega
    simp [write, Nat.not_lt.mpr (Nat.le_of_lt past), Nat.not_lt.mpr past, shift,
      update_of_ne (Nat.ne_of_gt past)]

/-- Reading the positions just written gives back the data. -/
@[simp] theorem read_write_self (buffer : Buffer α) (start : Nat) (data : List α) :
    (buffer.write start data).read start data.length = data := by
  apply List.ext_getElem (by simp)
  intro i within inData
  simpa [read] using write_at buffer start data inData

/-- Reading as many positions as were written gives back the data. -/
theorem read_write_of_length (buffer : Buffer α) (start : Nat) {data : List α} {count : Nat}
    (width : data.length = count) : (buffer.write start data).read start count = data := by
  rw [← width, read_write_self]

/-- Reading below a write sees the old contents. -/
theorem read_write_before (buffer : Buffer α) {start from_ count : Nat} (data : List α)
    (below : from_ + count ≤ start) :
    (buffer.write start data).read from_ count = buffer.read from_ count :=
  read_congr fun _ within => write_before buffer data (by omega)

/-- Appending to the filled part of a buffer appends to what it holds. -/
theorem read_write_append (buffer : Buffer α) (filled : Nat) (data : List α) :
    (buffer.write filled data).read 0 (filled + data.length) = buffer.read 0 filled ++ data := by
  rw [read_add, read_write_before buffer data (by omega), Nat.zero_add, read_write_self]

/-- A copy towards the front moves every entry, and leaves the positions outside its target. -/
theorem copyWithin_apply (buffer : Buffer α) {target source : Nat} (down : target ≤ source)
    (count i : Nat) :
    buffer.copyWithin target source count i =
      if target ≤ i ∧ i < target + count then buffer (source + (i - target)) else buffer i := by
  -- The positions still to be read lie at or past the ones already overwritten.
  refine forRange_invariant (fun done (current : Buffer α) => ∀ i, current i =
    if target ≤ i ∧ i < target + done then buffer (source + (i - target)) else buffer i)
    ?_ ?_ i
  · intro i
    rw [if_neg (by omega)]
  · intro done current _ copied i
    rcases Nat.lt_trichotomy i (target + done) with before | rfl | past
    · rw [update_of_ne (by omega), copied]
      simp only [before, and_true, show i < target + (done + 1) by omega]
    · rw [update_self, copied, if_neg (by omega), if_pos (by omega)]
      congr 1
      omega
    · rw [update_of_ne (by omega), copied, if_neg (by omega), if_neg (by omega)]

/-- After a copy to the front, the front reads as the copied run did. -/
theorem read_copyWithin_front (buffer : Buffer α) (source count : Nat) :
    (buffer.copyWithin 0 source count).read 0 count = buffer.read source count := by
  simp only [read]
  apply List.map_congr_left
  intro i member
  have within := List.mem_range.mp member
  rw [copyWithin_apply buffer (Nat.zero_le source), if_pos (by omega)]
  simp

/-- Copying what lies behind a position one step down removes that entry. -/
theorem read_copyWithin_gap (buffer : Buffer α) {gap count : Nat} (within : gap < count) :
    (buffer.copyWithin gap (gap + 1) (count - 1 - gap)).read 0 (count - 1) =
      (buffer.read 0 count).eraseIdx gap := by
  apply List.ext_getElem?
  intro i
  rw [getElem?_read, List.getElem?_eraseIdx, getElem?_read, getElem?_read, Nat.zero_add,
    Nat.zero_add, copyWithin_apply buffer (Nat.le_succ gap)]
  by_cases before : i < gap
  · rw [if_pos before, if_pos (show i < count - 1 by omega), if_pos (show i < count by omega),
      if_neg (by omega)]
  · rw [if_neg before]
    by_cases inside : i < count - 1
    · rw [if_pos inside, if_pos (show i + 1 < count by omega), if_pos (by omega)]
      congr 2
      omega
    · rw [if_neg inside, if_neg (by omega)]

end Buffer

/-- An entry that is there after another was set was there before, or is the one that was set. -/
theorem update_some_cases {ι β : Type*} [DecidableEq ι] {f : ι → Option β} {i j : ι} {x y : β}
    (found : update f i (some x) j = some y) :
    (j = i ∧ y = x) ∨ (j ≠ i ∧ f j = some y) := by
  by_cases same : j = i
  · rw [same, update_self] at found
    exact .inl ⟨same, (Option.some.inj found).symm⟩
  · rw [update_of_ne same] at found
    exact .inr ⟨same, found⟩

/-- An entry that is there after another was cleared was there before. -/
theorem update_none_cases {ι β : Type*} [DecidableEq ι] {f : ι → Option β} {i j : ι} {y : β}
    (found : update f i none j = some y) : j ≠ i ∧ f j = some y := by
  by_cases same : j = i
  · rw [same, update_self] at found
    cases found
  · rw [update_of_ne same] at found
    exact ⟨same, found⟩

end CatOs
