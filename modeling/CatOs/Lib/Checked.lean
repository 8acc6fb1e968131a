import Mathlib.Data.List.Basic

/-! Arrays with checked access: a read or a write outside an array is a fault, not a value. -/

namespace CatOs

/-- What a checked computation can do wrong: an access outside an array, or no end. -/
inductive Fault where
  | read
  | write
  | endless
  deriving DecidableEq, Repr

section Checked

variable {α : Type*}

/-- One entry of an array. -/
def readAt (array : List α) (i : Nat) : Except Fault α :=
  match array[i]? with
  | some x => .ok x
  | none => .error .read

/-- A run of entries of an array. -/
def readRun (array : List α) (start count : Nat) : Except Fault (List α) :=
  if start + count ≤ array.length then .ok ((array.drop start).take count) else .error .read

/-- Overwrite a run of entries of an array. -/
def writeRun (array : List α) (start : Nat) (data : List α) : Except Fault (List α) :=
  if start + data.length ≤ array.length then
    .ok (array.take start ++ data ++ array.drop (start + data.length))
  else .error .write

/-- A read inside an array gives its entry. -/
theorem readAt_of_some {array : List α} {i : Nat} {x : α} (held : array[i]? = some x) :
    readAt array i = .ok x := by
  rw [readAt, held]

/-- A run inside an array is read. -/
theorem readRun_of_le {array : List α} {start count : Nat}
    (within : start + count ≤ array.length) :
    readRun array start count = .ok ((array.drop start).take count) := if_pos within

/-- A run inside an array has its length. -/
theorem length_run {array : List α} {start count : Nat}
    (within : start + count ≤ array.length) : ((array.drop start).take count).length = count := by
  rw [List.length_take, List.length_drop]
  omega

/-- Writing behind a written front extends that front. -/
theorem writeRun_front {front array data : List α}
    (within : front.length + data.length ≤ array.length) :
    writeRun (front ++ array.drop front.length) front.length data =
      .ok (front ++ data ++ array.drop (front ++ data).length) := by
  have whole : (front ++ array.drop front.length).length = array.length := by
    rw [List.length_append, List.length_drop]
    omega
  have rest : (front ++ array.drop front.length).drop (front.length + data.length) =
      array.drop (front ++ data).length := by
    rw [List.drop_append, List.drop_of_length_le (by omega), List.nil_append, List.drop_drop,
      List.length_append]
    congr 1
    omega
  rw [writeRun, whole, if_pos within, List.take_left' rfl, rest]

end Checked

end CatOs
