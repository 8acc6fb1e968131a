import Mathlib.Data.List.Nodup

/-! Lists whose entries have distinct keys: replacing, adding and dropping entries. -/

namespace CatOs

section Keyed

variable {α κ : Type*} {key : α → κ} {l : List α}

/-- No two entries of a list have one key. -/
def DistinctKeys (key : α → κ) (l : List α) : Prop := (l.map key).Nodup

/-- An entry replaced by one with its own key leaves the keys as they were. -/
theorem DistinctKeys.set_same (distinct : DistinctKeys key l) {i : Nat} {old new : α}
    (held : l[i]? = some old) (same : key new = key old) : DistinctKeys key (l.set i new) := by
  have keys : (l.set i new).map key = l.map key := by
    obtain ⟨within, rfl⟩ := List.getElem?_eq_some_iff.mp held
    have entry : (l.map key)[i]? = some (key l[i]) := by rw [List.getElem?_map, held]; rfl
    obtain ⟨inside, found⟩ := List.getElem?_eq_some_iff.mp entry
    rw [List.map_set, same, ← found, List.set_getElem_self]
  rw [DistinctKeys, keys]
  exact distinct

/-- An entry may be replaced by one with a new key. -/
theorem DistinctKeys.set_new (distinct : DistinctKeys key l) {new : α}
    (absent : ∀ x ∈ l, key x ≠ key new) (i : Nat) : DistinctKeys key (l.set i new) := by
  rw [DistinctKeys, List.map_set]
  apply List.Nodup.set distinct
  intro member
  obtain ⟨x, inside, same⟩ := List.mem_map.mp member
  exact absent x inside same

/-- An entry with a new key may be added. -/
theorem DistinctKeys.append_new (distinct : DistinctKeys key l) {new : α}
    (absent : ∀ x ∈ l, key x ≠ key new) : DistinctKeys key (l ++ [new]) := by
  rw [DistinctKeys, List.map_append, List.map_singleton]
  apply List.Nodup.append distinct (List.nodup_singleton _)
  intro k member single
  obtain ⟨x, inside, rfl⟩ := List.mem_map.mp member
  exact absent x inside (List.mem_singleton.mp single)

/-- Entries may be dropped. -/
theorem DistinctKeys.filter (distinct : DistinctKeys key l) (keep : α → Bool) :
    DistinctKeys key (l.filter keep) :=
  List.Nodup.sublist (List.Sublist.map key List.filter_sublist) distinct

/-- After a replacement every other entry is an old one with another key. -/
theorem DistinctKeys.mem_set (distinct : DistinctKeys key l) {i : Nat} {old new x : α}
    (held : l[i]? = some old) (member : x ∈ l.set i new) :
    x = new ∨ (x ∈ l ∧ key x ≠ key old) := by
  obtain ⟨j, found⟩ := List.mem_iff_getElem?.mp member
  rw [List.getElem?_set] at found
  rcases eq_or_ne i j with rfl | other
  · left
    rw [if_pos rfl] at found
    split at found
    · exact (Option.some.inj found).symm
    · cases found
  · right
    rw [if_neg other] at found
    refine ⟨List.mem_iff_getElem?.mpr ⟨j, found⟩, ?_⟩
    -- Two positions with one key would be the same position.
    intro same
    have first : (l.map key)[i]? = some (key old) := by rw [List.getElem?_map, held]; rfl
    have second : (l.map key)[j]? = some (key old) := by rw [List.getElem?_map, found, ← same]; rfl
    obtain ⟨within, entry⟩ := List.getElem?_eq_some_iff.mp first
    obtain ⟨inside, again⟩ := List.getElem?_eq_some_iff.mp second
    exact other ((List.Nodup.getElem_inj_iff distinct).mp (entry.trans again.symm))

/-- A replacement keeps every entry but the one it replaces. -/
theorem mem_set_of_mem {x : α} (member : x ∈ l) (i : Nat) (new : α) :
    x ∈ l.set i new ∨ l[i]? = some x := by
  obtain ⟨j, found⟩ := List.mem_iff_getElem?.mp member
  rcases eq_or_ne i j with rfl | other
  · exact Or.inr found
  · left
    apply List.mem_iff_getElem?.mpr
    refine ⟨j, ?_⟩
    rw [List.getElem?_set, if_neg other]
    exact found

end Keyed

end CatOs
