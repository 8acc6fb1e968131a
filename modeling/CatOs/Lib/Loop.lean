import Mathlib.Logic.Function.Basic

/-! Counted and conditional loops over an explicit state, with the rules that reason about them. -/

namespace CatOs

section Loops

variable {σ α : Type*}

/-- Run a body once for each index below a bound, in increasing order. -/
def forRange (count : Nat) (body : Nat → σ → σ) (start : σ) : σ :=
  match count with
  | 0 => start
  -- The last index runs on the state that the earlier indices left behind.
  | last + 1 => body last (forRange last body start)

/-- A loop of no iterations leaves its state alone. -/
@[simp] theorem forRange_zero (body : Nat → σ → σ) (start : σ) :
    forRange 0 body start = start := rfl

/-- One more iteration runs the body at the last index. -/
theorem forRange_succ (count : Nat) (body : Nat → σ → σ) (start : σ) :
    forRange (count + 1) body start = body count (forRange count body start) := rfl

/-- What holds before the loop and survives every iteration holds after it. -/
theorem forRange_invariant {count : Nat} {body : Nat → σ → σ} {start : σ}
    (holds : Nat → σ → Prop) (initially : holds 0 start)
    (preserved : ∀ i state, i < count → holds i state → holds (i + 1) (body i state)) :
    holds count (forRange count body start) := by
  -- The induction is on the bound, which is the number of iterations already done.
  induction count with
  | zero => exact initially
  | succ count ih =>
    rw [forRange_succ]
    apply preserved count _ (Nat.lt_succ_self count)
    exact ih fun i state below => preserved i state (Nat.lt_succ_of_lt below)

/-- A projection that every iteration leaves alone is the same after the loop. -/
theorem forRange_frame {count : Nat} {body : Nat → σ → σ} (read : σ → α)
    (untouched : ∀ i state, i < count → read (body i state) = read state) (start : σ) :
    read (forRange count body start) = read start := by
  exact forRange_invariant (fun _ state => read state = read start) rfl
    fun i state below same => (untouched i state below).trans same

/-- Two loops whose bodies keep a relation between their states keep it as a whole. -/
theorem forRange_related {τ : Type*} {count : Nat} {body : Nat → σ → σ} {other : Nat → τ → τ}
    {start : σ} {begin : τ} (related : σ → τ → Prop) (initially : related start begin)
    (preserved : ∀ i state image, i < count → related state image →
      related (body i state) (other i image)) :
    related (forRange count body start) (forRange count other begin) := by
  induction count with
  | zero => exact initially
  | succ count ih =>
    rw [forRange_succ, forRange_succ]
    apply preserved count _ _ (Nat.lt_succ_self count)
    exact ih fun i state image below => preserved i state image (Nat.lt_succ_of_lt below)

/--
Repeat a body for as long as it asks to be run again.

The bound only makes the recursion structural.
A result is meaningful when the loop stopped on its own account.
-/
def doWhile (body : σ → σ × Bool) : Nat → σ → σ
  | 0, state => state
  | fuel + 1, state =>
    let (next, again) := body state
    if again then doWhile body fuel next else next

/-- What holds before the loop and survives every pass holds after it. -/
theorem doWhile_invariant {body : σ → σ × Bool} (holds : σ → Prop)
    (preserved : ∀ state, holds state → holds (body state).1) :
    ∀ fuel state, holds state → holds (doWhile body fuel state) := by
  intro fuel
  induction fuel with
  | zero => exact fun state initially => initially
  | succ fuel ih =>
    intro state initially
    simp only [doWhile]
    split
    · exact ih _ (preserved state initially)
    · exact preserved state initially

/-- Two loops that keep a relation and agree on going on keep the relation as a whole. -/
theorem doWhile_related {τ : Type*} {body : σ → σ × Bool} {other : τ → τ × Bool}
    (related : σ → τ → Prop)
    (preserved : ∀ state image, related state image →
      related (body state).1 (other image).1 ∧ (body state).2 = (other image).2) :
    ∀ fuel state image, related state image →
      related (doWhile body fuel state) (doWhile other fuel image) := by
  intro fuel
  induction fuel with
  | zero => exact fun state image initially => initially
  | succ fuel ih =>
    intro state image initially
    obtain ⟨next, again⟩ := preserved state image initially
    simp only [doWhile, again]
    split
    · exact ih _ _ next
    · exact next

/-- With enough fuel, the loop ends in a pass that asked for no further one. -/
theorem doWhile_exits {body : σ → σ × Bool} (holds : σ → Prop) (measure : σ → Nat)
    (preserved : ∀ state, holds state → holds (body state).1)
    (decreases : ∀ state, holds state → (body state).2 = true →
      measure (body state).1 < measure state) :
    ∀ fuel state, holds state → measure state < fuel →
      ∃ last, holds last ∧ (body last).2 = false ∧ doWhile body fuel state = (body last).1 := by
  intro fuel
  -- Every repeated pass lowers the measure, so the fuel cannot run out first.
  induction fuel with
  | zero => intro state _ short; omega
  | succ fuel ih =>
    intro state initially enough
    simp only [doWhile]
    cases again : (body state).2 with
    | false => exact ⟨state, initially, again, by simp⟩
    | true =>
      have lower := decreases state initially again
      obtain ⟨last, held, stopped, result⟩ :=
        ih (body state).1 (preserved state initially) (by omega)
      exact ⟨last, held, stopped, by simpa using result⟩

/-- With enough fuel, more fuel changes nothing. -/
theorem doWhile_fuel {body : σ → σ × Bool} (measure : σ → Nat)
    (decreases : ∀ state, (body state).2 = true → measure (body state).1 < measure state) :
    ∀ fuel extra state, measure state < fuel →
      doWhile body (fuel + extra) state = doWhile body fuel state := by
  intro fuel
  induction fuel with
  | zero => intro extra state short; omega
  | succ fuel ih =>
    intro extra state enough
    rw [Nat.succ_add_eq_add_succ, Nat.add_succ]
    simp only [doWhile]
    -- Both runs make the same pass, and go on only if it lowered the measure.
    split
    · rename_i again
      have lower := decreases state again
      exact ih extra _ (by omega)
    · rfl

end Loops

end CatOs
