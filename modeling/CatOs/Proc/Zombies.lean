import CatOs.Proc.Family

/-! Processes that have ended: who can still reap them, and which of them nobody can. -/

namespace CatOs.Proc

open Sched
open Function

def Reapable (s : Sched) (i : Slot) : Prop :=
  ∃ q : Slot, q.val ≠ 0 ∧ q.val = (s.pcb i).ppid ∧ Alive (s.kin q)

def EndsWithParent (op : ProcOp) (s : Sched) : Prop :=
  ∀ p, s.exitTarget op = some p → Alive (s.kin p) → p = s.current → (s.kin p).ppid ≠ 0

instance (op : ProcOp) (s : Sched) : Decidable (EndsWithParent op s) :=
  inferInstanceAs (Decidable (∀ _, _))

section Steps

variable {s : Sched}

theorem Parented.install (parented : Parented s.kin) (slot : Slot) {b : Pcb}
    (state : b.state = .ready) (event : ProcEvent) :
    Parented ((s.log event).install slot b).kin := by
  rw [kin_install, kin_log]
  refine parented.stir ?_
  change b.state ≠ .terminated
  rw [state]
  exact nofun

theorem Parented.exitSlot (parented : Parented s.kin) (ok : TreeOk s) (p : Slot) (code : Int)
    (kept : Alive (s.kin p) → p = s.current → (s.kin p).ppid ≠ 0) :
    Parented (s.exitSlot p code).kin := by
  by_cases alive : Alive (s.kin p)
  swap
  · rw [exitSlot_not_alive s p code alive]
    exact parented
  have family := ok.family.parted code alive
  have self := parted_self ok.family code alive
  have others := parented.parted ok.family code alive
  -- Once the dying process itself has a parent, everyone who has ended has one.
  have everyone : (s.kin p).ppid ≠ 0 → Parented (s.parted p code).kin := by
    intro named i ended
    by_cases here : i = p
    · subst here
      rw [self]
      exact named
    · exact others i here ended
  rw [exitSlot_alive s p code alive]
  unfold finishExit
  rw [current_parted]
  by_cases own : s.current = p
  · rw [if_neg (fun other => other.1 own), if_neg (fun other => other own)]
    exact (everyone (kept alive own.symm)).scheduleNext family
  have ppid : ((s.parted p code).pcb p).ppid = (s.kin p).ppid := by
    rw [pcb_ppid, self]
    rfl
  have state : ((s.parted p code).pcb p).state = .terminated := by
    rw [pcb_state, self]
    rfl
  rw [ppid]
  by_cases orphan : (s.kin p).ppid = 0
  · -- A killed orphan leaves an empty slot.
    rw [if_pos ⟨own, orphan, state⟩, kin_clear]
    intro i ended
    by_cases here : i = p
    · subst here
      rw [update_self] at ended
      cases ended
    · rw [update_of_ne here] at ended ⊢
      exact others i here ended
  · rw [if_neg (fun other => orphan other.2.1), if_pos own, kin_freeStack]
    exact everyone orphan

/-- Every operation leaves the zombies with a parent, unless an orphan ends itself. -/
theorem Sched.Effect.parented {op : ProcOp} {t : Sched} (effect : Effect op s t) (ok : TreeOk s)
    (parented : Parented s.kin) (kept : EndsWithParent op s) : Parented t.kin := by
  cases effect with
  | same | count n => exact parented
  | signal p pending =>
    rw [kin_setSignals]
    exact parented
  | create slot ctx pageDir free page | fork slot pageDir user free page =>
    exact parented.install slot rfl _
  | noPage slot free =>
    rw [kin_clear]
    exact parented.vacate slot
  | noClone slot free page | noCopy slot pageDir free page =>
    rw [kin_log, kin_clear]
    exact parented.vacate slot
  | switch => exact parented.scheduleNext ok.family
  | rotate n =>
    have counted : TreeOk { s with preemptTickCnt := n } := ⟨ok.family, ok.running⟩
    have queued : Parented { s with preemptTickCnt := n }.requeue.kin := by
      rw [kin_requeue counted.running]
      exact Parented.stir parented nofun
    exact queued.scheduleNext counted.requeue
  | block target user cause =>
    have asleep : Parented (s.sleeping target).kin := by
      rw [kin_sleeping target ok.running]
      exact parented.stir nofun
    exact asleep.scheduleNext (ok.sleeping target user)
  | reap z user there zombie =>
    rw [kin_processReapSlot]
    exact parented.vacate z
  | report z code target found =>
    rw [kin_processReapSlot, kin_log]
    exact parented.vacate z
  | exit p code user target => exact parented.exitSlot ok p code (kept p target)
  | signalExit p pending code user target =>
    refine Parented.exitSlot (by rw [kin_setSignals]; exact parented)
      (ok.setSignals p pending) p code ?_
    rw [kin_setSignals]
    exact kept p target

theorem exitSlot_orphan_vacant (ok : TreeOk s) {p : Slot} (code : Int) (alive : Alive (s.kin p))
    (other : p ≠ s.current) (orphan : (s.kin p).ppid = 0) :
    vacant ((s.exitSlot p code).pcb p) = true := by
  have self := parted_self ok.family code alive
  have ppid : ((s.parted p code).pcb p).ppid = 0 := by
    rw [pcb_ppid, self]
    exact orphan
  have state : ((s.parted p code).pcb p).state = .terminated := by
    rw [pcb_state, self]
    rfl
  rw [exitSlot_alive s p code alive, finishExit, current_parted,
    if_pos ⟨Ne.symm other, ppid, state⟩]
  simp only [Sched.clear, Sched.modify, update_self]
  rfl

end Steps

theorem treeOk_processInit (kernelPd idlePage : Nat) : TreeOk (processInit kernelPd idlePage) := by
  have empty : ∀ i : Slot, i ≠ 0 → (processInit kernelPd idlePage).kin i = emptyKin := by
    intro i user
    simp only [Sched.kin, processInit, update_of_ne user]
    rfl
  refine ⟨⟨rfl, .inr rfl, ?_, ?_, ?_⟩, rfl⟩
  · intro i user
    rw [empty i user]
    exact .inl rfl
  · intro i user
    rw [empty i user]
    exact iff_of_true rfl rfl
  · intro i there
    by_cases idle : i = 0
    · subst idle
      exact absurd rfl there
    · rw [empty i idle] at there
      exact absurd rfl there

/-- Whatever the processes do, the table stays sound and the current process runs. -/
theorem process_table_sound (kernelPd idlePage : Nat) (ops : List ProcOp) :
    TreeOk (runInputs Sched.step ops (processInit kernelPd idlePage)) :=
  (Run.start.inputs ops (allAllowed_true ops _)).invariant TreeOk
    (treeOk_processInit kernelPd idlePage) fun op s _ ok => (step_effect op s).tree ok

theorem parented_processInit (kernelPd idlePage : Nat) :
    Parented (processInit kernelPd idlePage).kin := by
  intro i ended
  by_cases idle : i = 0
  · subst idle
    cases ended
  · simp only [Sched.kin, processInit, update_of_ne idle] at ended
    cases ended

/--
As long as no process without a parent ends itself, every zombie has a living parent.

A killed process without a parent leaves an empty slot that can be used again.
-/
theorem zombies_are_reapable (kernelPd idlePage : Nat) {s : Sched}
    (run : Run Sched.step EndsWithParent (processInit kernelPd idlePage) s) :
    (∀ i, i ≠ s.current → (s.pcb i).state = .terminated → Reapable s i) ∧
      ∀ p code, p ≠ s.current → Alive (s.kin p) → (s.pcb p).ppid = 0 →
        vacant ((s.exitSlot p code).pcb p) = true := by
  have holds : TreeOk s ∧ Parented s.kin := by
    refine run.invariant (fun t => TreeOk t ∧ Parented t.kin) ?_ ?_
    · exact ⟨treeOk_processInit kernelPd idlePage, parented_processInit kernelPd idlePage⟩
    · intro op t kept ok
      have effect := step_effect op t
      exact ⟨effect.tree ok.1, effect.parented ok.1 ok.2 kept⟩
  obtain ⟨ok, parented⟩ := holds
  constructor
  · intro i _ ended
    have named := parented i ended
    have there : (s.kin i).pid ≠ 0 := by
      by_cases idle : i = 0
      · subst idle
        rcases ok.family.idleState with ready | running
        · cases ready.symm.trans ended
        · cases running.symm.trans ended
      · intro gone
        cases ((ok.family.empty i idle).mp gone).symm.trans ended
    obtain ⟨q, -, number, living⟩ := ok.family.parent i there named
    have user : q ≠ 0 := (ok.family.pid_eq living.2.2).1
    exact ⟨q, Fin.val_ne_of_ne user, number, living⟩
  · intro p code other alive orphan
    exact exitSlot_orphan_vacant ok code alive other orphan

def forkAndExit : List ProcOp :=
  [.createUserProcess 1 0 1 7, .start, .forkUser ⟨8, some 9, true⟩, .yield, .exit 3]

/-- The child of a living shell can be reaped. -/
theorem zombies_are_reapable_child :
    Reapable (runInputs Sched.step forkAndExit (processInit 0 5)) 2 :=
  (zombies_are_reapable 0 5 (Run.start.inputs forkAndExit (by decide +kernel))).1 2
    (by decide +kernel) (by decide +kernel)

/-- A user program that ends itself leaves a slot that nobody can reap or use again. -/
theorem top_level_exit_leaks :
    let s := runInputs Sched.step [.createUserProcess 1 0 1 7, .start, .exit 0] (processInit 0 5)
    s.current = 0 ∧ (s.pcb 1).state = .terminated ∧ (s.pcb 1).ppid = 0 ∧
      vacant (s.pcb 1) = false := by
  decide +kernel

end CatOs.Proc
