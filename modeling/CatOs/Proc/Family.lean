import CatOs.Lib.Run
import CatOs.Proc.Effects

/-! The process tree: parents are alive, sleepers have a child to wait for, zombies a parent. -/

namespace CatOs.Proc

open Sched
open Function

def Stirring (state : ProcState) : Prop := state ≠ .created ∧ state ≠ .terminated

structure Family (kin : Slot → Kin) : Prop where
  idlePid : (kin 0).pid = 0
  idleState : (kin 0).state = .ready ∨ (kin 0).state = .running
  pid : ∀ i, i ≠ 0 → (kin i).pid = 0 ∨ (kin i).pid = i.val
  empty : ∀ i, i ≠ 0 → ((kin i).pid = 0 ↔ (kin i).state = .created)
  parent : ∀ i, (kin i).pid ≠ 0 → (kin i).ppid ≠ 0 →
    ∃ q : Slot, q ≠ i ∧ q.val = (kin i).ppid ∧ Alive (kin q)

def Awaited (kin : Slot → Kin) : Prop :=
  ∀ i, (kin i).state = .blocked → ∃ c, (kin c).pid ≠ 0 ∧ (kin c).ppid = (kin i).pid ∧
    ((kin i).waitTarget = waitAny ∨ (kin i).waitTarget = (kin c).pid) ∧
    (kin c).state ≠ .terminated

def Parented (kin : Slot → Kin) : Prop :=
  ∀ i, (kin i).state = .terminated → (kin i).ppid ≠ 0

section Stir

variable {kin : Slot → Kin}

section Family

variable (ok : Family kin) {i : Slot}
include ok

theorem Family.alive_iff (user : i ≠ 0) :
    Alive (kin i) ↔ Stirring (kin i).state := by
  constructor
  · intro alive
    exact ⟨alive.2.1, alive.1⟩
  · intro stirring
    exact ⟨stirring.2, stirring.1, fun gone => stirring.1 ((ok.empty i user).mp gone)⟩

theorem Family.pid_eq (there : (kin i).pid ≠ 0) :
    i ≠ 0 ∧ (kin i).pid = i.val := by
  have user : i ≠ 0 := fun idle => there (idle ▸ ok.idlePid)
  exact ⟨user, (ok.pid i user).resolve_left there⟩

theorem Family.ppid_ne (there : (kin i).pid ≠ 0) :
    (kin i).ppid ≠ i.val := by
  intro own
  have user := (ok.pid_eq there).1
  have named : (kin i).ppid ≠ 0 := fun zero => user (Fin.ext (own.symm.trans zero))
  obtain ⟨q, apart, number, -⟩ := ok.parent i there named
  exact apart (Fin.ext (number.trans own))

/-- A change of state between those of a living process keeps the tree well formed. -/
theorem Family.stir {k : Kin} (pid : k.pid = (kin i).pid)
    (ppid : k.ppid = (kin i).ppid) (before : Stirring (kin i).state) (after : Stirring k.state)
    (idle : i = 0 → k.state = .ready ∨ k.state = .running) :
    Family (update kin i k) := by
  -- The changed process is alive before and after, so it stays a parent.
  have alive : ∀ q, q ≠ 0 → Alive (kin q) → Alive (update kin i k q) := by
    intro q user living
    by_cases here : q = i
    · subst here
      rw [update_self]
      exact ⟨after.2, after.1, pid ▸ living.2.2⟩
    · rw [update_of_ne here]
      exact living
  constructor
  · by_cases here : (0 : Slot) = i
    · subst here
      rw [update_self, pid]
      exact ok.idlePid
    · rw [update_of_ne here]
      exact ok.idlePid
  · by_cases here : (0 : Slot) = i
    · subst here
      rw [update_self]
      exact idle rfl
    · rw [update_of_ne here]
      exact ok.idleState
  · intro j user
    by_cases here : j = i
    · subst here
      rw [update_self, pid]
      exact ok.pid j user
    · rw [update_of_ne here]
      exact ok.pid j user
  · intro j user
    by_cases here : j = i
    · subst here
      rw [update_self, pid, ok.empty j user]
      exact iff_of_false before.1 after.1
    · rw [update_of_ne here]
      exact ok.empty j user
  · intro j there named
    have same : (update kin i k j).pid = (kin j).pid ∧
        (update kin i k j).ppid = (kin j).ppid := by
      by_cases here : j = i
      · subst here
        rw [update_self]
        exact ⟨pid, ppid⟩
      · rw [update_of_ne here]
        exact ⟨rfl, rfl⟩
    rw [same.1] at there
    rw [same.2] at named ⊢
    obtain ⟨q, apart, number, living⟩ := ok.parent j there named
    have user : q ≠ 0 := fun zero => named (number.symm.trans (congrArg Fin.val zero))
    exact ⟨q, apart, number, alive q user living⟩

theorem Family.replace {k : Kin} (user : i ≠ 0)
    (pid : k.pid = 0 ∨ k.pid = i.val) (empty : k.pid = 0 ↔ k.state = .created)
    (parent : k.pid ≠ 0 → k.ppid ≠ 0 → ∃ q : Slot, q ≠ i ∧ q.val = k.ppid ∧ Alive (kin q))
    (childless : ∀ j, j ≠ i → (kin j).pid ≠ 0 → (kin j).ppid ≠ i.val) :
    Family (update kin i k) := by
  have idle : (0 : Slot) ≠ i := Ne.symm user
  constructor
  · rw [update_of_ne idle]
    exact ok.idlePid
  · rw [update_of_ne idle]
    exact ok.idleState
  · intro j other
    by_cases here : j = i
    · subst here
      rw [update_self]
      exact pid
    · rw [update_of_ne here]
      exact ok.pid j other
  · intro j other
    by_cases here : j = i
    · subst here
      rw [update_self]
      exact empty
    · rw [update_of_ne here]
      exact ok.empty j other
  · intro j there named
    by_cases here : j = i
    · subst here
      rw [update_self] at there named ⊢
      obtain ⟨q, apart, number, living⟩ := parent there named
      rw [← update_of_ne apart k kin] at living
      exact ⟨q, apart, number, living⟩
    · rw [update_of_ne here] at there named ⊢
      obtain ⟨q, apart, number, living⟩ := ok.parent j there named
      have different : q ≠ i := fun same => childless j here there (by rw [← number, same])
      rw [← update_of_ne different k kin] at living
      exact ⟨q, apart, number, living⟩

theorem Family.childless (ended : ¬Alive (kin i)) {j : Slot}
    (user : i ≠ 0) (there : (kin j).pid ≠ 0) : (kin j).ppid ≠ i.val := by
  intro child
  have named : (kin j).ppid ≠ 0 := fun zero => user (Fin.ext (child.symm.trans zero))
  obtain ⟨q, -, number, living⟩ := ok.parent j there named
  obtain rfl : q = i := Fin.ext (number.trans child)
  exact ended living

theorem Family.vacate (user : i ≠ 0) (ended : ¬Alive (kin i)) :
    Family (update kin i emptyKin) :=
  ok.replace user (.inl rfl) (iff_of_true rfl rfl) (fun there => absurd rfl there)
    fun _ _ there => ok.childless ended user there

end Family

theorem Awaited.vacate (awaited : Awaited kin) {i : Slot}
    (gone : (kin i).pid = 0 ∨ (kin i).state = .terminated) :
    Awaited (update kin i emptyKin) := by
  intro j blocked
  by_cases here : j = i
  · subst here
    rw [update_self] at blocked
    cases blocked
  rw [update_of_ne here] at blocked ⊢
  obtain ⟨c, there, child, target, living⟩ := awaited j blocked
  have apart : c ≠ i := by
    rintro rfl
    exact gone.elim there living
  refine ⟨c, ?_⟩
  rw [update_of_ne apart]
  exact ⟨there, child, target, living⟩

theorem Parented.vacate (parented : Parented kin) (i : Slot) :
    Parented (update kin i emptyKin) := by
  intro j ended
  by_cases here : j = i
  · subst here
    rw [update_self] at ended
    cases ended
  · rw [update_of_ne here] at ended ⊢
    exact parented j ended

theorem Awaited.stir (awaited : Awaited kin) {i : Slot} {k : Kin} (pid : k.pid = (kin i).pid)
    (ppid : k.ppid = (kin i).ppid) (awake : k.state ≠ .blocked)
    (living : k.state ≠ .terminated) : Awaited (update kin i k) := by
  intro j blocked
  by_cases here : j = i
  · subst here
    rw [update_self] at blocked
    exact absurd blocked awake
  rw [update_of_ne here] at blocked ⊢
  obtain ⟨c, there, child, target, alive⟩ := awaited j blocked
  refine ⟨c, ?_⟩
  by_cases same : c = i
  · subst same
    rw [update_self, pid, ppid]
    exact ⟨there, child, target, living⟩
  · rw [update_of_ne same]
    exact ⟨there, child, target, alive⟩

theorem Parented.stir (parented : Parented kin) {i : Slot} {k : Kin}
    (living : k.state ≠ .terminated) : Parented (update kin i k) := by
  intro j ended
  by_cases here : j = i
  · subst here
    rw [update_self] at ended
    exact absurd ended living
  · rw [update_of_ne here] at ended ⊢
    exact parented j ended

end Stir

section Parting

variable {s : Sched} {p : Slot}

theorem woken_same (p : Slot) (ppid : Nat) (k : Kin) :
    (woken p ppid k).pid = k.pid ∧ (woken p ppid k).ppid = k.ppid ∧
      (woken p ppid k).waitTarget = k.waitTarget ∧ (woken p ppid k).serialNo = k.serialNo ∧
      (woken p ppid k).exitCode = k.exitCode := by
  unfold woken
  split_ifs <;> exact ⟨rfl, rfl, rfl, rfl, rfl⟩

theorem woken_state (p : Slot) (ppid : Nat) (k : Kin) :
    ((woken p ppid k).state = .created ↔ k.state = .created) ∧
      ((woken p ppid k).state = .terminated ↔ k.state = .terminated) := by
  unfold woken
  split_ifs with sleeps
  · -- Only a sleeper is woken.
    simp only [sleepsFor, Bool.and_eq_true, beq_iff_eq] at sleeps
    rw [sleeps.1.1.1]
    simp
  · exact ⟨Iff.rfl, Iff.rfl⟩

theorem parted_self (ok : Family s.kin) (code : Int) (alive : Alive (s.kin p)) :
    (s.parted p code).kin p = dead code (s.kin p) := by
  have user := (ok.pid_eq alive.2.2).1
  rw [kin_parted]
  simp only [update_self, if_neg user]
  -- It is dead, so it is not woken, and it is not its own child.
  have awake : woken p (s.kin p).ppid (dead code (s.kin p)) = dead code (s.kin p) := rfl
  rw [awake, released, if_neg]
  exact fun own => ok.ppid_ne alive.2.2 own.2.1

theorem parted_idle (code : Int) (user : p ≠ 0) : (s.parted p code).kin 0 = s.kin 0 := by
  rw [kin_parted]
  simp only [if_true, update_of_ne (Ne.symm user)]

theorem parted_other (ok : Family s.kin) (code : Int) {i : Slot} (user : i ≠ 0)
    (apart : i ≠ p) :
    ((s.parted p code).kin i = emptyKin ∧ (s.kin i).state = .terminated ∧
      (s.kin i).pid ≠ 0 ∧ (s.kin i).ppid = p.val) ∨
    ((s.parted p code).kin i = { woken p (s.kin p).ppid (s.kin i) with ppid := 0 } ∧
      (s.kin i).state ≠ .terminated) ∨
    ((s.parted p code).kin i = woken p (s.kin p).ppid (s.kin i) ∧
      ((s.kin i).pid ≠ 0 → (s.kin i).ppid ≠ p.val)) := by
  have value : (s.parted p code).kin i = released p (woken p (s.kin p).ppid (s.kin i)) := by
    rw [kin_parted]
    simp only [if_neg user, update_of_ne apart]
  obtain ⟨pid, ppid, -⟩ := woken_same p (s.kin p).ppid (s.kin i)
  obtain ⟨created, terminated⟩ := woken_state p (s.kin p).ppid (s.kin i)
  rw [value]
  unfold released
  by_cases child : (woken p (s.kin p).ppid (s.kin i)).pid ≠ 0 ∧
      (woken p (s.kin p).ppid (s.kin i)).ppid = p.val ∧
      (woken p (s.kin p).ppid (s.kin i)).state ≠ .created
  · rw [if_pos child]
    by_cases ended : (woken p (s.kin p).ppid (s.kin i)).state = .terminated
    · rw [if_pos ended]
      exact .inl ⟨rfl, terminated.mp ended, pid ▸ child.1, ppid ▸ child.2.1⟩
    · rw [if_neg ended]
      exact .inr (.inl ⟨rfl, terminated.not.mp ended⟩)
  · rw [if_neg child]
    refine .inr (.inr ⟨rfl, fun there own => child ⟨pid ▸ there, ppid ▸ own, ?_⟩⟩)
    exact created.not.mpr fun empty => there ((ok.empty i user).mpr empty)

theorem parted_alive (ok : Family s.kin) (code : Int) {q : Slot} (apart : q ≠ p)
    (living : Alive (s.kin q)) : Alive ((s.parted p code).kin q) := by
  have user := (ok.pid_eq living.2.2).1
  obtain ⟨pid, -⟩ := woken_same p (s.kin p).ppid (s.kin q)
  obtain ⟨created, terminated⟩ := woken_state p (s.kin p).ppid (s.kin q)
  rcases parted_other ok code user apart with ⟨-, ended, -⟩ | ⟨orphan, -⟩ | ⟨stays, -⟩
  · exact absurd ended living.1
  · rw [orphan]
    exact ⟨terminated.not.mpr living.1, created.not.mpr living.2.1, by rw [pid]; exact living.2.2⟩
  · rw [stays]
    exact ⟨terminated.not.mpr living.1, created.not.mpr living.2.1, by rw [pid]; exact living.2.2⟩

theorem Family.parted (ok : Family s.kin) (code : Int) (alive : Alive (s.kin p)) :
    Family (s.parted p code).kin := by
  have dying := (ok.pid_eq alive.2.2).1
  constructor
  · rw [parted_idle code dying]
    exact ok.idlePid
  · rw [parted_idle code dying]
    exact ok.idleState
  · intro i user
    by_cases self : i = p
    · subst self
      rw [parted_self ok code alive]
      exact ok.pid i user
    obtain ⟨pid, -⟩ := woken_same p (s.kin p).ppid (s.kin i)
    rcases parted_other ok code user self with ⟨reaped, -⟩ | ⟨orphan, -⟩ | ⟨stays, -⟩
    · rw [reaped]
      exact .inl rfl
    · rw [orphan, pid]
      exact ok.pid i user
    · rw [stays, pid]
      exact ok.pid i user
  · intro i user
    by_cases self : i = p
    · subst self
      rw [parted_self ok code alive]
      exact iff_of_false alive.2.2 nofun
    obtain ⟨pid, -⟩ := woken_same p (s.kin p).ppid (s.kin i)
    obtain ⟨created, -⟩ := woken_state p (s.kin p).ppid (s.kin i)
    rcases parted_other ok code user self with ⟨reaped, -⟩ | ⟨orphan, -⟩ | ⟨stays, -⟩
    · rw [reaped]
      exact iff_of_true rfl rfl
    · rw [orphan, pid, created]
      exact ok.empty i user
    · rw [stays, pid, created]
      exact ok.empty i user
  · intro i there named
    by_cases self : i = p
    · -- The parent of the dying process is someone else, who stays alive.
      subst self
      rw [parted_self ok code alive] at there named ⊢
      obtain ⟨q, apart, number, living⟩ := ok.parent i there named
      exact ⟨q, apart, number, parted_alive ok code apart living⟩
    by_cases idle : i = 0
    · subst idle
      rw [parted_idle code dying] at there
      exact absurd ok.idlePid there
    obtain ⟨pid, ppid, -⟩ := woken_same p (s.kin p).ppid (s.kin i)
    rcases parted_other ok code idle self with ⟨reaped, -⟩ | ⟨orphan, -⟩ | ⟨stays, other⟩
    · rw [reaped] at there
      exact absurd rfl there
    · rw [orphan] at named
      exact absurd rfl named
    · rw [stays, pid] at there
      rw [stays, ppid] at named ⊢
      obtain ⟨q, apart, number, living⟩ := ok.parent i there named
      have notDying : q ≠ p := fun same => other there (by rw [← number, same])
      exact ⟨q, apart, number, parted_alive ok code notDying living⟩

theorem Awaited.parted (awaited : Awaited s.kin) (ok : Family s.kin) (code : Int)
    (alive : Alive (s.kin p)) : Awaited (s.parted p code).kin := by
  have dying := (ok.pid_eq alive.2.2).1
  intro i blocked
  by_cases self : i = p
  · subst self
    rw [parted_self ok code alive] at blocked
    cases blocked
  by_cases idle : i = 0
  · subst idle
    rw [parted_idle code dying] at blocked
    rcases ok.idleState with ready | running
    · cases ready.symm.trans blocked
    · cases running.symm.trans blocked
  obtain ⟨pid, ppid, target, -⟩ := woken_same p (s.kin p).ppid (s.kin i)
  -- Who still sleeps slept before, and was not woken by this exit.
  have asleep : (woken p (s.kin p).ppid (s.kin i)).state = .blocked ∧
      ((s.parted p code).kin i).pid = (s.kin i).pid ∧
      ((s.parted p code).kin i).waitTarget = (s.kin i).waitTarget := by
    rcases parted_other ok code idle self with ⟨reaped, -⟩ | ⟨orphan, -⟩ | ⟨stays, -⟩
    · rw [reaped] at blocked
      cases blocked
    · rw [orphan] at blocked ⊢
      exact ⟨blocked, pid, target⟩
    · rw [stays] at blocked ⊢
      exact ⟨blocked, pid, target⟩
  have passed : sleepsFor p (s.kin p).ppid (s.kin i) = false := by
    by_contra sleeps
    have state := asleep.1
    rw [woken, if_pos (Bool.not_eq_false _ ▸ sleeps)] at state
    cases state
  have before : (s.kin i).state = .blocked := by
    have state := asleep.1
    rw [woken, passed] at state
    exact state
  obtain ⟨c, there, child, wanted, living⟩ := awaited i before
  have sleeper := ok.pid_eq (fun gone => by
    rw [ok.empty i idle, before] at gone
    cases gone)
  -- The child that is waited for is not the dying process, or it would have woken its parent.
  have notDying : c ≠ p := by
    rintro rfl
    have number := (ok.pid_eq there).2
    rw [number] at wanted
    have sleeps : sleepsFor c (s.kin c).ppid (s.kin i) = true := by
      simp only [sleepsFor, before, child, Bool.and_eq_true, beq_iff_eq, bne_iff_ne,
        Bool.or_eq_true, and_true, true_and]
      exact ⟨sleeper.2 ▸ fun zero => idle (Fin.ext zero), wanted⟩
    rw [sleeps] at passed
    cases passed
  obtain ⟨cPid, cPpid, -⟩ := woken_same p (s.kin p).ppid (s.kin c)
  obtain ⟨-, cTerminated⟩ := woken_state p (s.kin p).ppid (s.kin c)
  have notChild : (s.kin c).ppid ≠ p.val := by
    rw [child, sleeper.2]
    exact fun same => self (Fin.ext same)
  refine ⟨c, ?_⟩
  rw [asleep.2.1, asleep.2.2]
  have value : (s.parted p code).kin c = woken p (s.kin p).ppid (s.kin c) := by
    rw [kin_parted]
    simp only [if_neg (ok.pid_eq there).1, update_of_ne notDying]
    rw [released, if_neg]
    rw [cPpid]
    exact fun own => notChild own.2.1
  rw [value, cPid, cPpid]
  exact ⟨there, child, wanted, cTerminated.not.mpr living⟩

theorem Parented.parted (parented : Parented s.kin) (ok : Family s.kin) (code : Int)
    (alive : Alive (s.kin p)) :
    ∀ i, i ≠ p → ((s.parted p code).kin i).state = .terminated →
      ((s.parted p code).kin i).ppid ≠ 0 := by
  intro i self ended
  by_cases idle : i = 0
  · subst idle
    rw [parted_idle code (ok.pid_eq alive.2.2).1] at ended ⊢
    exact parented 0 ended
  obtain ⟨-, ppid, -⟩ := woken_same p (s.kin p).ppid (s.kin i)
  obtain ⟨-, terminated⟩ := woken_state p (s.kin p).ppid (s.kin i)
  rcases parted_other ok code idle self with ⟨reaped, -⟩ | ⟨orphan, living⟩ | ⟨stays, -⟩
  · rw [reaped] at ended
    cases ended
  · rw [orphan] at ended
    exact absurd (terminated.mp ended) living
  · rw [stays] at ended ⊢
    rw [ppid]
    exact parented i (terminated.mp ended)

end Parting

section Effects

variable {s : Sched}

@[simp] theorem kin_setSignals (p : Slot) (pending : Word) : (s.setSignals p pending).kin = s.kin :=
  kin_modify_same s p _ (by intro b; rfl)

theorem kin_install (slot : Slot) (b : Pcb) :
    (s.install slot b).kin =
      update s.kin slot { b.kin with serialNo := s.nextSerial } := by
  unfold install
  rw [kin_readyEnqueue]
  exact kin_modify s slot fun _ => { b with serialNo := s.nextSerial }

@[simp] theorem current_install (slot : Slot) (b : Pcb) :
    (s.install slot b).current = s.current := by
  unfold install
  rw [current_readyEnqueue]
  rfl

@[simp] theorem kin_processReapSlot (p : Slot) :
    (s.processReapSlot p).kin = update s.kin p emptyKin := by
  rw [processReapSlot, kin_clear, kin_freeStack, kin_dropDir]

@[simp] theorem current_processReapSlot (p : Slot) :
    (s.processReapSlot p).current = s.current := by
  rw [processReapSlot, current_clear, current_freeStack, current_dropDir]

theorem kin_requeue (running : (s.kin s.current).state = .running) :
    s.requeue.kin =
      update s.kin s.current { s.kin s.current with state := .ready } := by
  have state : (s.pcb s.current).state = .running := running
  unfold requeue
  rw [if_pos state, kin_readyEnqueue]
  exact kin_modify s s.current _

theorem kin_sleeping (target : Int) (running : (s.kin s.current).state = .running) :
    (s.sleeping target).kin =
      update s.kin s.current
        { s.kin s.current with waitTarget := targetWord target, state := .blocked } := by
  have state : (s.pcb s.current).state = .running := running
  rw [sleeping, kin_modify]
  simp only [Pcb.kin, state, if_true]
  rfl

theorem processAllocSlot_vacant {slot : Slot} (free : s.processAllocSlot = some slot) :
    slot ≠ 0 ∧ (s.kin slot).pid = 0 ∧ (s.kin slot).state = .created ∧ s.kstacks slot = 0 := by
  have found := List.find?_some free
  have user := List.mem_of_find?_eq_some free
  simp only [vacant, Bool.and_eq_true, beq_iff_eq] at found
  exact ⟨(mem_userSlots slot).mp user, found.2, found.1.1, found.1.2⟩

structure TreeOk (s : Sched) : Prop where
  family : Family s.kin
  running : (s.kin s.current).state = .running

theorem TreeOk.scheduleNext (ok : Family s.kin) : TreeOk s.scheduleNext := by
  obtain ⟨next, chosen, kin, current⟩ := scheduleNext_kin s ok.idleState
  have before : Stirring (s.kin next).state := by
    rcases chosen with rfl | ready
    · rcases ok.idleState with ready | running
      · rw [ready]
        exact ⟨nofun, nofun⟩
      · rw [running]
        exact ⟨nofun, nofun⟩
    · rw [ready]
      exact ⟨nofun, nofun⟩
  constructor
  · rw [kin]
    exact ok.stir rfl rfl before ⟨nofun, nofun⟩ fun _ => .inr rfl
  · rw [kin, current, runs, update_self]

theorem Awaited.scheduleNext (awaited : Awaited s.kin) (ok : Family s.kin) :
    Awaited s.scheduleNext.kin := by
  obtain ⟨next, -, kin, -⟩ := scheduleNext_kin s ok.idleState
  rw [kin]
  exact awaited.stir rfl rfl nofun nofun

theorem Parented.scheduleNext (parented : Parented s.kin) (ok : Family s.kin) :
    Parented s.scheduleNext.kin := by
  obtain ⟨next, -, kin, -⟩ := scheduleNext_kin s ok.idleState
  rw [kin]
  exact parented.stir nofun

theorem TreeOk.stirring (ok : TreeOk s) : Stirring (s.kin s.current).state := by
  rw [ok.running]
  exact ⟨nofun, nofun⟩

theorem TreeOk.requeue (ok : TreeOk s) : Family s.requeue.kin := by
  rw [kin_requeue ok.running]
  exact ok.family.stir rfl rfl ok.stirring ⟨nofun, nofun⟩ fun _ => .inl rfl

theorem TreeOk.sleeping (ok : TreeOk s) (target : Int) (user : s.current ≠ 0) :
    Family (s.sleeping target).kin := by
  rw [kin_sleeping target ok.running]
  exact ok.family.stir rfl rfl ok.stirring ⟨nofun, nofun⟩ fun idle => absurd idle user

theorem TreeOk.install (ok : TreeOk s) {slot : Slot} (free : s.processAllocSlot = some slot)
    {b : Pcb} (pid : b.pid = slot.val) (state : b.state = .ready)
    (parent : b.ppid ≠ 0 → s.current ≠ 0 ∧ b.ppid = (s.kin s.current).pid) (event : ProcEvent) :
    TreeOk ((s.log event).install slot b) := by
  obtain ⟨user, gone, empty, -⟩ := processAllocSlot_vacant free
  have different : s.current ≠ slot := by
    rintro same
    have running := ok.running
    rw [same, empty] at running
    cases running
  constructor
  · rw [kin_install, kin_log]
    refine ok.family.replace user (.inr pid) ?_ ?_ ?_
    · refine iff_of_false ?_ ?_
      · exact fun zero => user (Fin.ext (pid.symm.trans zero))
      · change b.state ≠ .created
        rw [state]
        exact nofun
    · -- The parent of a new process is the one that runs.
      intro _ named
      obtain ⟨userParent, number⟩ := parent named
      have alive := (ok.family.alive_iff userParent).mpr ok.stirring
      exact ⟨s.current, different, ((ok.family.pid_eq alive.2.2).2.symm.trans number.symm), alive⟩
    · intro j _ there
      exact ok.family.childless (fun alive => alive.2.2 gone) user there
  · rw [current_install, current_log, kin_install, kin_log, update_of_ne different]
    exact ok.running

theorem TreeOk.vacate (ok : TreeOk s) {t : Sched} {i : Slot} (user : i ≠ 0)
    (ended : ¬Alive (s.kin i)) (kin : t.kin = update s.kin i emptyKin)
    (current : t.current = s.current) : TreeOk t := by
  have different : s.current ≠ i := by
    rintro rfl
    exact ended ((ok.family.alive_iff user).mpr ok.stirring)
  constructor
  · rw [kin]
    exact ok.family.vacate user ended
  · rw [kin, current, update_of_ne different]
    exact ok.running

theorem TreeOk.exitSlot (ok : TreeOk s) (p : Slot) (code : Int) : TreeOk (s.exitSlot p code) := by
  by_cases alive : Alive (s.kin p)
  swap
  · rw [exitSlot_not_alive s p code alive]
    exact ok
  have family := ok.family.parted code alive
  have self := parted_self ok.family code alive
  have user := (ok.family.pid_eq alive.2.2).1
  rw [exitSlot_alive s p code alive]
  unfold finishExit
  rw [current_parted]
  by_cases own : s.current = p
  · -- A process that ends itself switches away.
    rw [if_neg (fun other => other.1 own), if_neg (fun other => other own)]
    exact TreeOk.scheduleNext family
  have running : ((s.parted p code).kin s.current).state = .running := by
    by_cases idle : s.current = 0
    · have state := ok.running
      rw [idle] at state ⊢
      rw [parted_idle code user]
      exact state
    obtain ⟨-, terminated⟩ := woken_state p (s.kin p).ppid (s.kin s.current)
    have awake : woken p (s.kin p).ppid (s.kin s.current) = s.kin s.current := by
      rw [woken, if_neg]
      simp [sleepsFor, ok.running]
    rcases parted_other ok.family code idle own with ⟨-, ended, -⟩ | ⟨orphan, -⟩ | ⟨stays, -⟩
    · cases ok.running.symm.trans ended
    · rw [orphan, awake]
      exact ok.running
    · rw [stays, awake]
      exact ok.running
  have after : TreeOk (s.parted p code) := ⟨family, by rw [current_parted]; exact running⟩
  split_ifs
  · refine after.vacate user ?_ (kin_clear _ p) (current_clear _ p)
    rw [self]
    exact fun living => living.1 rfl
  · exact ⟨by rw [kin_freeStack]; exact family,
      by rw [kin_freeStack, current_freeStack, current_parted]; exact running⟩

theorem TreeOk.setSignals (ok : TreeOk s) (p : Slot) (pending : Word) :
    TreeOk (s.setSignals p pending) :=
  ⟨by rw [kin_setSignals]; exact ok.family, by rw [kin_setSignals]; exact ok.running⟩

theorem Sched.Effect.tree {op : ProcOp} {t : Sched} (effect : Effect op s t) (ok : TreeOk s) :
    TreeOk t := by
  cases effect with
  | same => exact ok
  | count n => exact ⟨ok.family, ok.running⟩
  | signal p pending => exact ok.setSignals p pending
  | create slot ctx pageDir free page =>
    exact ok.install free rfl rfl (fun named => absurd rfl named) _
  | fork slot pageDir user free page => exact ok.install free rfl rfl (fun _ => ⟨user, rfl⟩) _
  | noPage slot free =>
    obtain ⟨user, gone, -⟩ := processAllocSlot_vacant free
    exact ok.vacate user (fun alive => alive.2.2 gone) (kin_clear s slot) rfl
  | noClone slot free page | noCopy slot pageDir free page =>
    obtain ⟨user, gone, -⟩ := processAllocSlot_vacant free
    exact ok.vacate user (fun alive => alive.2.2 gone) (kin_clear _ slot) rfl
  | switch => exact TreeOk.scheduleNext ok.family
  | rotate n =>
    have counted : TreeOk { s with preemptTickCnt := n } := ⟨ok.family, ok.running⟩
    exact TreeOk.scheduleNext counted.requeue
  | block target user cause => exact TreeOk.scheduleNext (ok.sleeping target user)
  | reap z user there zombie =>
    exact ok.vacate user (fun alive => alive.1 zombie) (kin_processReapSlot z)
      (current_processReapSlot z)
  | report z code target found =>
    obtain ⟨user, -, zombie, -⟩ := processWaitScan_zombie found
    exact ok.vacate user (fun alive => alive.1 zombie) (kin_processReapSlot z)
      (current_processReapSlot z)
  | exit p code user target => exact ok.exitSlot p code
  | signalExit p pending code user target => exact (ok.setSignals p pending).exitSlot p code

end Effects

end CatOs.Proc
