import CatOs.Lib.Serial

/-! Lists of runs of serial numbers that cover an interval without gap or overlap. -/

namespace CatOs

section Tiling

variable {w : Nat} {α : Type*} (start : α → BitVec w) (len : α → Nat)

/-- The runs of a list are not empty and follow each other from one position to another. -/
def Tiles (base : BitVec w) : Nat → Nat → List α → Prop
  | first, last, [] => first = last
  | first, last, x :: xs => start x = serial base first ∧ 0 < len x ∧
      Tiles base (first + len x) last xs

variable {start len} {base : BitVec w}

/-- An interval that is tiled does not end before it starts. -/
theorem Tiles.le {first last : Nat} {xs : List α} (tiled : Tiles start len base first last xs) :
    first ≤ last := by
  induction xs generalizing first with
  | nil => exact Nat.le_of_eq tiled
  | cons x xs ih =>
    have rest := ih tiled.2.2
    omega

theorem tiles_append {first last : Nat} {xs ys : List α} :
    Tiles start len base first last (xs ++ ys) ↔
      ∃ middle, Tiles start len base first middle xs ∧ Tiles start len base middle last ys := by
  induction xs generalizing first with
  | nil =>
    refine ⟨fun tiled => ⟨first, rfl, tiled⟩, ?_⟩
    rintro ⟨middle, rfl, tiled⟩
    exact tiled
  | cons x xs ih =>
    constructor
    · rintro ⟨begins, positive, rest⟩
      obtain ⟨middle, front, back⟩ := ih.mp rest
      exact ⟨middle, ⟨begins, positive, front⟩, back⟩
    · rintro ⟨middle, ⟨begins, positive, front⟩, back⟩
      exact ⟨begins, positive, ih.mpr ⟨middle, front, back⟩⟩

/-- One run tiles the interval from its start to its end. -/
theorem tiles_singleton {first last : Nat} {x : α} :
    Tiles start len base first last [x] ↔
      start x = serial base first ∧ 0 < len x ∧ first + len x = last := Iff.rfl

/-- Only where the runs start and how long they are matters. -/
theorem Tiles.congr {first last : Nat} {xs ys : List α}
    (tiled : Tiles start len base first last xs)
    (same : ys.map (fun y => (start y, len y)) = xs.map fun x => (start x, len x)) :
    Tiles start len base first last ys := by
  induction xs generalizing first ys with
  | nil =>
    rw [List.map_nil, List.map_eq_nil_iff] at same
    subst same
    exact tiled
  | cons x xs ih =>
    obtain ⟨y, rest, rfl, head, tail⟩ := List.map_eq_cons_iff.mp same
    obtain ⟨begins, long⟩ := Prod.mk.inj head
    refine ⟨begins.trans tiled.1, by rw [long]; exact tiled.2.1, ?_⟩
    rw [long]
    exact ih tiled.2.2 tail

/-- Positions may be counted from any position of the interval's own line. -/
theorem Tiles.rebase {first last : Nat} {xs : List α} {shift : Nat}
    (tiled : Tiles start len base (shift + first) (shift + last) xs) :
    Tiles start len (serial base shift) first last xs := by
  induction xs generalizing first with
  | nil => exact Nat.add_left_cancel tiled
  | cons x xs ih =>
    obtain ⟨begins, positive, rest⟩ := tiled
    refine ⟨?_, positive, ih (by rwa [Nat.add_assoc] at rest)⟩
    rw [begins, ← serial_add]
    rfl

/-- Removing all that lies before a position tiles what is left of the interval. -/
theorem Tiles.cut {cut first last : Nat} {xs : List α} {trim : α → Option α}
    (tiled : Tiles start len base first last xs)
    (trims : ∀ position, ∀ x ∈ xs, first ≤ position → position + len x ≤ last →
      start x = serial base position →
      (position + len x ≤ cut ∧ trim x = none) ∨
        (cut < position + len x ∧ ∃ y, trim x = some y ∧ start y = serial base (max position cut) ∧
          len y = position + len x - max position cut)) :
    Tiles start len base (max first cut) (max last cut) (xs.filterMap trim) := by
  induction xs generalizing first with
  | nil =>
    have same : first = last := tiled
    simp [Tiles, same]
  | cons x xs ih =>
    obtain ⟨begins, positive, rest⟩ := tiled
    have inside := rest.le
    have tail := ih rest fun position y member after =>
      trims position y (List.mem_cons_of_mem x member) (by omega)
    rcases trims first x List.mem_cons_self (Nat.le_refl first) inside begins with
      ⟨covered, none⟩ | ⟨beyond, y, kept, begins, long⟩
    · -- The run is gone, and the next one starts no later than the cut.
      rw [List.filterMap_cons_none none]
      rwa [show max first cut = max (first + len x) cut by omega]
    · rw [List.filterMap_cons_some kept]
      refine ⟨begins, by omega, ?_⟩
      rwa [long, show max first cut + (first + len x - max first cut) = max (first + len x) cut by
        omega]

end Tiling

end CatOs
