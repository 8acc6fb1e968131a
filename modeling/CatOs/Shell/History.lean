import CatOs.Lib.Run
import Mathlib.Logic.Function.Iterate
import Mathlib.Tactic.SplitIfs

/-! The lines that the shell remembers, and stepping through them with the arrow keys. -/

namespace CatOs.Shell

/-- A line is given by its bytes, up to the terminator. -/
abbrev Line := List UInt8

abbrev historySize : Nat := 16

/-- The ring of lines; an index that equals the count stands for the new line. -/
structure Hist where
  history : Nat → Line
  histCount : Nat
  histIdx : Nat

/-- Remember a line, unless it is empty or the same as the last one. -/
def histPush (line : Line) (h : Hist) : Hist :=
  if line = [] then h
  else if 0 < h.histCount ∧ h.history ((h.histCount - 1) % historySize) = line then h
  else
    let count := (h.histCount + 1) % 4294967296
    { history := Function.update h.history (h.histCount % historySize) line
      histCount := count, histIdx := count }

def histUp (h : Hist) : Hist × Option Line :=
  if h.histCount = 0 then (h, none)
  else
    let idx := if h.histIdx = h.histCount then h.histCount - 1
      else if h.histIdx > 0 then h.histIdx - 1 else h.histIdx
    ({ h with histIdx := idx }, some (h.history (idx % historySize)))

def histDown (h : Hist) : Hist × Option Line :=
  if h.histCount = 0 then (h, none)
  else if h.histIdx < h.histCount - 1 then
    ({ h with histIdx := h.histIdx + 1 }, some (h.history ((h.histIdx + 1) % historySize)))
  else ({ h with histIdx := h.histCount }, none)

/-- The line that is shown after a press of Up. -/
def pressUp (s : Hist × Line) : Hist × Line := ((histUp s.1).1, (histUp s.1).2.getD s.2)

/-- The line that is shown after a press of Down, which is empty behind the last one. -/
def pressDown (s : Hist × Line) : Hist × Line := ((histDown s.1).1, (histDown s.1).2.getD [])

/-- What bears on the history while lines are read. -/
inductive ReadOp where
  | up
  | down
  | cancel
  | enter (line : Line)
  deriving DecidableEq, Repr

/-- The history with the lines that it should hold, the latest first. -/
structure Prompt where
  hist : Hist
  retained : List Line
  /-- Nothing was pressed yet on the line. -/
  fresh : Bool

def readStep (op : ReadOp) (g : Prompt) : Prompt :=
  match op with
  | .up => { g with hist := (histUp g.hist).1, fresh := false }
  | .down => { g with hist := (histDown g.hist).1, fresh := false }
  | .cancel => { g with fresh := true }
  | .enter line =>
    { hist := histPush line g.hist
      retained := if line = [] ∨ g.retained.head? = some line then g.retained
        else line :: g.retained
      fresh := true }

def bootPrompt : Prompt :=
  { hist := { history := fun _ => [], histCount := 0, histIdx := 0 }, retained := []
    fresh := true }

/-- What a number of presses of Up should show. -/
def recalled (retained : List Line) (presses : Nat) : Line :=
  if presses = 0 then [] else retained.getD (presses - 1) []

/--
Up goes back to the oldest line that the ring has room for, and Down undoes it.

The number of presses of Up counts up to that line only.
-/
def Recalls (h : Hist) (retained : List Line) : Prop :=
  ∀ ups downs, downs ≤ min ups (min historySize retained.length) →
    (pressDown^[downs] (pressUp^[ups] (h, []))).2 =
      recalled retained (min ups (min historySize retained.length) - downs)

/-- A line is left with the index at its end, unless it is remembered; and the ring is not full. -/
def Returns (op : ReadOp) (g : Prompt) : Prop :=
  match op with
  | .cancel => g.hist.histIdx = g.hist.histCount
  | .enter line =>
    if line = [] ∨ g.retained.head? = some line then g.hist.histIdx = g.hist.histCount
    else g.retained.length < historySize
  | _ => True

instance (op : ReadOp) (g : Prompt) : Decidable (Returns op g) := by
  unfold Returns
  split <;> infer_instance

/-- The ring holds the lines, and the index is in place at the start of a line. -/
structure Holds (g : Prompt) : Prop where
  few : g.retained.length ≤ historySize
  count : g.hist.histCount = g.retained.length
  line : ∀ i < g.retained.length, g.hist.history (g.retained.length - 1 - i) = g.retained.getD i []
  fresh : g.fresh = true → g.hist.histIdx = g.hist.histCount

section Steps

variable {g : Prompt} (holds : Holds g)
include holds

/-- The last line in the ring is the one that was remembered last. -/
theorem Holds.last (line : Line) : (0 < g.hist.histCount ∧
    g.hist.history ((g.hist.histCount - 1) % historySize) = line) ↔
      g.retained.head? = some line := by
  have few := holds.few
  rw [holds.count]
  rcases list : g.retained with _ | ⟨latest, rest⟩
  · simp
  · have first := holds.line 0 (by simp [list])
    rw [list, List.length_cons] at few
    simp only [list, List.length_cons, Nat.sub_zero, List.getD_cons_zero] at first
    rw [List.length_cons, Nat.mod_eq_of_lt (by omega), first]
    simp

theorem Holds.enter {line : Line} (returns : Returns (.enter line) g) :
    Holds (readStep (.enter line) g) := by
  have last := holds.last line
  simp only [Returns] at returns
  simp only [readStep]
  by_cases known : line = [] ∨ g.retained.head? = some line
  · rw [if_pos known] at returns ⊢
    have same : histPush line g.hist = g.hist := by
      rcases known with empty | repeated
      · exact if_pos empty
      · rw [histPush, if_pos (last.mpr repeated), ite_self]
    rw [same]
    exact { holds with fresh := fun _ => returns }
  · rw [if_neg known] at returns ⊢
    obtain ⟨filled, other⟩ := not_or.mp known
    have room : g.retained.length < 16 := returns
    rw [histPush, if_neg filled, if_neg fun both => other (last.mp both), holds.count,
      Nat.mod_eq_of_lt returns, Nat.mod_eq_of_lt (by omega)]
    refine { few := room, count := by simp, line := fun i below => ?_, fresh := fun _ => rfl }
    simp only [List.length_cons] at below ⊢
    cases i with
    | zero => simp
    | succ i =>
      have before := holds.line i (by omega)
      rw [Function.update_of_ne (by omega), List.getD_cons_succ, ← before]
      congr 1
      omega

theorem Holds.readStep {op : ReadOp} (returns : Returns op g) : Holds (readStep op g) := by
  cases op with
  | up =>
    simp only [CatOs.Shell.readStep, histUp]
    split <;> exact { holds with fresh := by simp }
  | down =>
    simp only [CatOs.Shell.readStep, histDown]
    split_ifs <;> exact { holds with fresh := by simp }
  | cancel => exact { holds with fresh := fun _ => returns }
  | enter line => exact holds.enter returns

/-- The history after Up, with the line that is shown. -/
def Prompt.recall (g : Prompt) (presses : Nat) : Hist × Line :=
  ({ g.hist with histIdx := g.hist.histCount - presses }, recalled g.retained presses)

theorem Holds.shown (presses : Nat) (some : 0 < presses) (within : presses ≤ g.retained.length) :
    g.hist.history ((g.hist.histCount - presses) % historySize) = recalled g.retained presses := by
  have few := holds.few
  have line := holds.line (presses - 1) (by omega)
  rw [holds.count, Nat.mod_eq_of_lt (by omega), recalled, if_neg (by omega), ← line]
  congr 1
  omega

theorem Holds.pressUp_recall {presses : Nat} (within : presses ≤ g.retained.length) :
    pressUp (g.recall presses) = g.recall (min (presses + 1) g.retained.length) := by
  have count := holds.count
  by_cases more : presses < g.retained.length
  · have shown := holds.shown (presses + 1) (Nat.succ_pos presses) more
    rw [Nat.min_eq_left (show presses + 1 ≤ g.retained.length from more)]
    have filled : g.hist.histCount ≠ 0 := by omega
    unfold Prompt.recall
    simp only [pressUp, histUp, filled, if_false, Option.getD_some, ← shown]
    by_cases newest : presses = 0
    · simp [newest]
    · have index : g.hist.histCount - presses - 1 = g.hist.histCount - (presses + 1) := by omega
      rw [if_neg (by omega), if_pos (by omega), index]
  · -- At the oldest line the index stays at the start of the ring.
    have oldest : presses = g.retained.length := by omega
    subst oldest
    rw [Nat.min_eq_right (by omega)]
    by_cases empty : g.hist.histCount = 0
    · simp [pressUp, Prompt.recall, histUp, empty]
    · have shown := holds.shown g.retained.length (by omega) (Nat.le_refl _)
      rw [← count] at shown ⊢
      rw [Nat.sub_self] at shown
      unfold Prompt.recall
      simp only [pressUp, histUp, empty, Nat.sub_self, if_false]
      rw [if_neg (Ne.symm empty), if_neg (Nat.lt_irrefl 0), shown, Option.getD_some]

theorem Holds.pressDown_recall (presses : Nat) (within : presses + 1 ≤ g.retained.length) :
    pressDown (g.recall (presses + 1)) = g.recall presses := by
  have count := holds.count
  have filled : g.hist.histCount ≠ 0 := by omega
  by_cases newest : presses = 0
  · subst newest
    simp [pressDown, Prompt.recall, histDown, filled, recalled]
  · have shown := holds.shown presses (Nat.pos_of_ne_zero newest) (by omega)
    have index : g.hist.histCount - (presses + 1) + 1 = g.hist.histCount - presses := by omega
    have below : g.hist.histCount - (presses + 1) < g.hist.histCount - 1 := by omega
    simp only [pressDown, Prompt.recall, histDown, filled, if_false, below, if_true, index, shown,
      Option.getD_some]

/-- From the start of a line the keys go through the lines as they should. -/
theorem Holds.recalls (fresh : g.fresh = true) : Recalls g.hist g.retained := by
  have start : (g.hist, []) = g.recall 0 := by
    rw [Prompt.recall, Nat.sub_zero, ← holds.fresh fresh]
    rfl
  have back : ∀ ups, pressUp^[ups] (g.recall 0) = g.recall (min ups g.retained.length) := by
    intro ups
    induction ups with
    | zero => simp
    | succ ups ih =>
      rw [Function.iterate_succ_apply', ih, holds.pressUp_recall (Nat.min_le_right ..)]
      congr 1
      omega
  have forth : ∀ downs presses, presses + downs ≤ g.retained.length →
      pressDown^[downs] (g.recall (presses + downs)) = g.recall presses := by
    intro downs
    induction downs with
    | zero => exact fun presses _ => rfl
    | succ downs ih =>
      intro presses within
      rw [Function.iterate_succ_apply, ← Nat.add_assoc,
        holds.pressDown_recall (presses + downs) within]
      exact ih presses (by omega)
  intro ups downs within
  rw [Nat.min_eq_right holds.few] at within ⊢
  have split : min ups g.retained.length = min ups g.retained.length - downs + downs := by omega
  rw [start, back, split, forth _ _ (by omega), Nat.add_sub_cancel]
  rfl

end Steps

/--
In every run that leaves each line as it should, the keys recall the lines in order.

The index is not set back by a line that is not remembered, and beyond sixteen lines Up runs on
through the ring.
-/
theorem history_recalled {g : Prompt} (run : Run readStep Returns bootPrompt g)
    (fresh : g.fresh = true) : Recalls g.hist g.retained := by
  have boot : Holds bootPrompt :=
    { few := by decide, count := rfl, line := by simp [bootPrompt], fresh := fun _ => rfl }
  exact (run.invariant Holds boot fun _ _ returns holds => holds.readStep returns).recalls fresh

/-- Two lines are entered, with a look at the first one before the second. -/
def twoLines : List ReadOp := [.enter [97], .up, .down, .enter [98]]

theorem history_recalled_two : Recalls (runInputs readStep twoLines bootPrompt).hist [[98], [97]] :=
  history_recalled (Run.start.inputs twoLines (by decide)) rfl

/-- An empty line is entered while the first of two lines is shown, and Up shows it again. -/
theorem index_survives_empty_line :
    let g := runInputs readStep [.enter [97], .enter [98], .up, .up, .enter []] bootPrompt
    g.retained = [[98], [97]] ∧ (pressUp (g.hist, [])).2 = [97] := by
  decide

end CatOs.Shell
