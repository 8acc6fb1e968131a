import CatOs.Proc.Zombies

/-! Kernel stacks: every page is with exactly one process or has been given back exactly once. -/

namespace CatOs.Proc

open Sched
open Function

def taken (trace : List ProcEvent) (page : Nat) : Nat := trace.count (.allocStack page)

def returned (trace : List ProcEvent) (page : Nat) : Nat := trace.count (.freeStack page)

structure Conserved (trace : List ProcEvent) (kstacks : Slot → Nat) : Prop where
  balance : ∀ page, page ≠ 0 →
    taken trace page = returned trace page + if ∃ i, kstacks i = page then 1 else 0
  once : ∀ i j, kstacks i ≠ 0 → kstacks i = kstacks j → i = j

section Pages

variable {trace : List ProcEvent} {kstacks : Slot → Nat}

theorem Conserved.log (ok : Conserved trace kstacks) {event : ProcEvent}
    (other : ∀ page, event ≠ .allocStack page ∧ event ≠ .freeStack page) :
    Conserved (trace ++ [event]) kstacks := by
  refine ⟨?_, ok.once⟩
  intro page some
  have neither := other page
  have balance := ok.balance page some
  simp only [taken, returned] at balance ⊢
  rw [List.count_append, List.count_append, List.count_singleton, List.count_singleton,
    if_neg (by simpa using neither.1), if_neg (by simpa using neither.2)]
  exact balance

theorem Conserved.logs (ok : Conserved trace kstacks) (events : List ProcEvent)
    (other : ∀ event ∈ events, ∀ page,
      event ≠ .allocStack page ∧ event ≠ .freeStack page) :
    Conserved (trace ++ events) kstacks := by
  induction events generalizing trace with
  | nil => simpa using ok
  | cons first rest ih =>
    rw [List.append_cons]
    exact ih (ok.log (other first List.mem_cons_self))
      fun event within => other event (List.mem_cons_of_mem _ within)

/-- A page that nobody has becomes the stack of a slot without one. -/
theorem exists_update_eq_iff {kstacks : Slot → Nat} {slot : Slot} {page value : Nat}
    (old : kstacks slot ≠ page) (new : value ≠ page) :
    (∃ i, update kstacks slot value i = page) ↔ ∃ i, kstacks i = page := by
  refine exists_congr fun i => ?_
  by_cases here : i = slot
  · subst here
    rw [update_self]
    exact iff_of_false new old
  · rw [update_of_ne here]

theorem Conserved.take (ok : Conserved trace kstacks) {slot : Slot} {page : Nat}
    (without : kstacks slot = 0) (some : page ≠ 0)
    (fresh : taken trace page = returned trace page) :
    Conserved (trace ++ [.allocStack page]) (update kstacks slot page) := by
  have nobody : ∀ i, kstacks i ≠ page := by
    intro i owns
    have balance := ok.balance page some
    rw [if_pos ⟨i, owns⟩] at balance
    omega
  constructor
  · intro other positive
    have balance := ok.balance other positive
    simp only [taken, returned] at balance fresh ⊢
    rw [List.count_append, List.count_append, List.count_singleton, List.count_singleton]
    by_cases same : other = page
    · -- The page itself is taken once more, and now has an owner.
      subst same
      have owned : ∃ i, update kstacks slot other i = other :=
        ⟨slot, update_self ..⟩
      rw [if_pos owned, fresh]
      simp
    · have owners : (∃ i, update kstacks slot page i = other) ↔ ∃ i, kstacks i = other :=
        exists_update_eq_iff (without.trans_ne positive.symm) (Ne.symm same)
      rw [if_congr owners rfl rfl, if_neg (by simpa using Ne.symm same)]
      simpa using balance
  · intro i j owns equal
    by_cases iHere : i = slot <;> by_cases jHere : j = slot
    · rw [iHere, jHere]
    · subst iHere
      rw [update_self, update_of_ne jHere] at equal
      exact absurd equal.symm (nobody j)
    · subst jHere
      rw [update_self, update_of_ne iHere] at equal
      exact absurd equal (nobody i)
    · rw [update_of_ne iHere] at owns equal
      rw [update_of_ne jHere] at equal
      exact ok.once i j owns equal

/-- The stack of a slot is given back, and the slot is left without one. -/
theorem Conserved.give (ok : Conserved trace kstacks) {slot : Slot} (has : kstacks slot ≠ 0) :
    Conserved (trace ++ [.freeStack (kstacks slot)]) (update kstacks slot 0) := by
  constructor
  · intro page some
    have balance := ok.balance page some
    simp only [taken, returned] at balance ⊢
    rw [List.count_append, List.count_append, List.count_singleton, List.count_singleton]
    by_cases same : page = kstacks slot
    · -- Its only owner gives the page up.
      have nobody : ¬∃ i, update kstacks slot 0 i = page := by
        rintro ⟨i, owns⟩
        by_cases here : i = slot
        · subst here
          rw [update_self] at owns
          exact some owns.symm
        · rw [update_of_ne here] at owns
          exact here (ok.once i slot (owns.trans_ne some) (owns.trans same))
      rw [if_pos ⟨slot, same.symm⟩] at balance
      rw [if_neg nobody, ← same]
      simpa using balance
    · have owners : (∃ i, update kstacks slot 0 i = page) ↔ ∃ i, kstacks i = page :=
        exists_update_eq_iff (Ne.symm same) some.symm
      rw [if_congr owners rfl rfl]
      have different : (ProcEvent.freeStack (kstacks slot) == ProcEvent.freeStack page) = false := by
        simpa using Ne.symm same
      simpa [different] using balance
  · intro i j owns equal
    by_cases iHere : i = slot
    · subst iHere
      rw [update_self] at owns
      exact absurd rfl owns
    by_cases jHere : j = slot
    · subst jHere
      rw [update_self] at equal
      exact absurd equal owns
    · rw [update_of_ne iHere] at owns equal
      rw [update_of_ne jHere] at equal
      exact ok.once i j owns equal

end Pages

section Steps

variable {s : Sched}

def StacksOk (s : Sched) : Prop := Conserved s.trace s.kstacks

theorem StacksOk.of_eq {t : Sched} (ok : StacksOk s) (trace : t.trace = s.trace)
    (kstacks : t.kstacks = s.kstacks) : StacksOk t := by
  rw [StacksOk, trace, kstacks]
  exact ok

theorem StacksOk.log (ok : StacksOk s) {event : ProcEvent}
    (other : ∀ page, event ≠ .allocStack page ∧ event ≠ .freeStack page) :
    StacksOk (s.log event) :=
  Conserved.log ok other

theorem StacksOk.freeStack (ok : StacksOk s) (p : Slot) : StacksOk (s.freeStack p) := by
  by_cases has : (s.pcb p).kstackPhys ≠ 0
  · have trace : (s.freeStack p).trace = s.trace ++ [.freeStack (s.kstacks p)] := by
      rw [Sched.freeStack, if_pos has]
      rfl
    rw [StacksOk, trace, kstacks_freeStack]
    exact Conserved.give ok has
  · rw [Sched.freeStack, if_neg has]
    exact ok

theorem StacksOk.dropDir (ok : StacksOk s) (p : Slot) : StacksOk (s.dropDir p) := by
  unfold Sched.dropDir
  split_ifs
  · have logged : StacksOk (s.log (.destroyDir (s.pcb p).pageDir)) :=
      ok.log fun _ => ⟨nofun, nofun⟩
    exact logged.of_eq rfl (kstacks_modify_same _ p _ (by intro b; rfl))
  · exact ok

theorem StacksOk.clear (ok : StacksOk s) {p : Slot} (without : s.kstacks p = 0) :
    StacksOk (s.clear p) := by
  refine ok.of_eq rfl ?_
  rw [kstacks_clear, ← without, update_eq_self]

theorem StacksOk.processReapSlot (ok : StacksOk s) (p : Slot) :
    StacksOk (s.processReapSlot p) := by
  refine ((ok.dropDir p).freeStack p).clear ?_
  rw [kstacks_freeStack, update_self]

theorem StacksOk.pickLoop (fuel : Nat) (s : Sched) (ok : StacksOk s) :
    StacksOk (pickLoop fuel s).1 := by
  induction fuel generalizing s with
  | zero => exact ok
  | succ fuel ih =>
    unfold Sched.pickLoop
    cases head : s.readyHead with
    | none => exact ok
    | some p =>
      have unlinked : StacksOk (s.unlinkHead p) :=
        ok.of_eq (trace_unlinkHead s p) (kstacks_unlinkHead s p)
      dsimp only
      split_ifs
      · exact unlinked
      · exact ih _ (unlinked.freeStack p)
      · exact ih _ unlinked

theorem StacksOk.scheduleNext (ok : StacksOk s) : StacksOk s.scheduleNext := by
  have picked := StacksOk.pickLoop 33 s ok
  unfold Sched.scheduleNext pickNext
  rcases result : Sched.pickLoop 33 s with ⟨after, next⟩
  simp only [result] at picked ⊢
  unfold dispatch
  split_ifs
  · exact picked.of_eq rfl (kstacks_modify_same _ _ _ (by intro b; rfl))
  · exact picked
  · refine StacksOk.of_eq picked rfl ?_
    exact kstacks_modify_same { after with current := next.getD 0 } _ _ (by intro b; rfl)

theorem StacksOk.requeue (ok : StacksOk s) : StacksOk s.requeue := by
  unfold Sched.requeue
  split_ifs
  · refine ok.of_eq ?_ ?_
    · rw [trace_readyEnqueue, trace_modify]
    · rw [kstacks_readyEnqueue]
      exact kstacks_modify_same _ _ _ (by intro b; rfl)
  · exact ok

theorem StacksOk.wakeWaiters (ok : StacksOk s) (p : Slot) : StacksOk (s.wakeWaiters p) := by
  rw [Sched.wakeWaiters]
  refine foldl_invariant StacksOk userSlots ?_ s ok
  intro t b _ held
  unfold wakeOne
  split_ifs
  · refine held.of_eq ?_ ?_
    · rw [trace_readyEnqueue, trace_modify]
    · rw [kstacks_readyEnqueue]
      exact kstacks_modify_same _ _ _ (by intro b; rfl)
  · exact held

theorem StacksOk.releaseChildren (ok : StacksOk s) (p : Slot) :
    StacksOk (s.releaseChildren p) := by
  rw [Sched.releaseChildren]
  refine foldl_invariant StacksOk userSlots ?_ s ok
  intro t c _ held
  unfold releaseOne
  split_ifs
  · exact held.processReapSlot c
  · exact held.of_eq rfl (kstacks_modify_same _ _ _ (by intro b; rfl))
  · exact held

theorem StacksOk.parted (ok : StacksOk s) (p : Slot) (code : Int) :
    StacksOk (s.parted p code) := by
  have logged : StacksOk (s.log (.exited (s.pcb p).serialNo code)) :=
    ok.log fun _ => ⟨nofun, nofun⟩
  have marked : StacksOk (s.markDead p code) :=
    logged.of_eq rfl (kstacks_modify_same _ p _ (by intro b; rfl))
  have woken := marked.wakeWaiters p
  have told : StacksOk (((s.markDead p code).wakeWaiters p).signalParent p) :=
    woken.of_eq (trace_signalParent _ p) (kstacks_signalParent _ p)
  exact (told.releaseChildren p).dropDir p

theorem parted_without (p : Slot) (code : Int) (without : s.kstacks p = 0) :
    (s.parted p code).kstacks p = 0 := by
  have marked : (s.markDead p code).kstacks = s.kstacks :=
    kstacks_modify_same _ p _ (by intro b; rfl)
  have woken : ((s.markDead p code).wakeWaiters p).kstacks = s.kstacks := by
    rw [Sched.wakeWaiters, ← marked]
    refine foldl_frame kstacks ?_ userSlots _
    intro t b
    unfold wakeOne
    split_ifs
    · rw [kstacks_readyEnqueue]
      exact kstacks_modify_same _ _ _ (by intro b; rfl)
    · rfl
  -- A child loses its stack when it is reaped, and keeps it otherwise.
  have kept : ∀ t : Sched, ∀ c ∈ userSlots, t.kstacks p = 0 →
      (releaseOne p t c).kstacks p = 0 := by
    intro t c _ held
    unfold releaseOne
    split_ifs
    · rw [Sched.processReapSlot, kstacks_clear, kstacks_freeStack, kstacks_dropDir,
        update_idem]
      by_cases here : p = c
      · subst here
        exact update_self ..
      · rw [update_of_ne here]
        exact held
    · rw [kstacks_modify_same _ _ _ (by intro b; rfl)]
      exact held
    · exact held
  have before : (((s.markDead p code).wakeWaiters p).signalParent p).kstacks p = 0 := by
    rw [kstacks_signalParent, woken]
    exact without
  rw [Sched.parted, kstacks_dropDir, Sched.releaseChildren]
  exact foldl_invariant (fun t : Sched => t.kstacks p = 0) userSlots kept _ before

theorem StacksOk.install (ok : StacksOk s) {slot : Slot} {page : Nat} {b : Pcb}
    (without : s.kstacks slot = 0) (stack : b.kstackPhys = page) (some : page ≠ 0)
    (fresh : taken s.trace page = returned s.trace page) :
    StacksOk ((s.log (.allocStack page)).install slot b) := by
  have trace : ((s.log (.allocStack page)).install slot b).trace =
      s.trace ++ [.allocStack page] := by
    rw [Sched.install, trace_readyEnqueue]
    rfl
  have kstacks : ((s.log (.allocStack page)).install slot b).kstacks =
      update s.kstacks slot page := by
    rw [Sched.install, kstacks_readyEnqueue, ← stack]
    exact kstacks_modify s slot fun _ => { b with serialNo := s.nextSerial }
  rw [StacksOk, trace, kstacks]
  exact Conserved.take ok without some fresh

theorem StacksOk.backOut {t : Sched} (ok : StacksOk s) {slot : Slot} {page : Nat}
    (without : s.kstacks slot = 0) (some : page ≠ 0)
    (fresh : taken s.trace page = returned s.trace page) (between : List ProcEvent)
    (other : ∀ event ∈ between, ∀ page, event ≠ .allocStack page ∧ event ≠ .freeStack page)
    (trace : t.trace = s.trace ++ [.allocStack page] ++ between ++ [.freeStack page])
    (kstacks : t.kstacks = s.kstacks) : StacksOk t := by
  -- The slot has the page for the moment.
  have held : Conserved (s.trace ++ [.allocStack page] ++ between)
      (update s.kstacks slot page) :=
    (Conserved.take ok without some fresh).logs between other
  have given := held.give (by rw [update_self]; exact some)
  rw [update_self, update_idem, ← without, update_eq_self] at given
  rw [StacksOk, trace, kstacks]
  exact given

def SparesOrphans (op : ProcOp) (s : Sched) : Prop :=
  ∀ p, s.exitTarget op = some p → Alive (s.kin p) → p ≠ s.current → (s.kin p).ppid = 0 →
    s.kstacks p = 0

instance (op : ProcOp) (s : Sched) : Decidable (SparesOrphans op s) :=
  inferInstanceAs (Decidable (∀ _, _))

def FreshPage (op : ProcOp) (s : Sched) : Prop :=
  op.page ≠ 0 → taken s.trace op.page = returned s.trace op.page

instance (op : ProcOp) (s : Sched) : Decidable (FreshPage op s) :=
  inferInstanceAs (Decidable (_ → _))

theorem StacksOk.exitSlot (stacked : StacksOk s) (ok : TreeOk s) (p : Slot) (code : Int)
    (spared : Alive (s.kin p) → p ≠ s.current → (s.kin p).ppid = 0 → s.kstacks p = 0) :
    StacksOk (s.exitSlot p code) := by
  by_cases alive : Alive (s.kin p)
  swap
  · rw [exitSlot_not_alive s p code alive]
    exact stacked
  have self := parted_self ok.family code alive
  have ppid : ((s.parted p code).pcb p).ppid = (s.kin p).ppid := by
    rw [pcb_ppid, self]
    rfl
  have parted := stacked.parted p code
  rw [exitSlot_alive s p code alive]
  unfold finishExit
  rw [current_parted, ppid]
  split_ifs with cleared other
  · exact parted.clear
      (parted_without p code (spared alive (Ne.symm cleared.1) cleared.2.1))
  · exact parted.freeStack p
  · exact parted.scheduleNext

/-- Every operation conserves the stacks, unless it kills an orphan with a stack. -/
theorem Sched.Effect.stacks {op : ProcOp} {t : Sched} (effect : Effect op s t) (ok : TreeOk s)
    (stacked : StacksOk s) (spared : SparesOrphans op s) (fresh : FreshPage op s) :
    StacksOk t := by
  cases effect with
  | same | count n => exact stacked
  | signal p pending =>
    exact stacked.of_eq rfl (kstacks_modify_same _ _ _ (by intro b; rfl))
  | create slot ctx pageDir free page | fork slot pageDir user free page =>
    exact stacked.install (processAllocSlot_vacant free).2.2.2 rfl page (fresh page)
  | noPage slot free => exact stacked.clear (processAllocSlot_vacant free).2.2.2
  | noClone slot free page =>
    have without := (processAllocSlot_vacant free).2.2.2
    refine stacked.backOut without page (fresh page) [] nofun ?_ ?_
    · rw [List.append_nil]
      rfl
    · rw [kstacks_log, kstacks_clear, kstacks_log, ← without, update_eq_self]
  | noCopy slot pageDir free page =>
    -- The directory that is given back in between is not a stack.
    have without := (processAllocSlot_vacant free).2.2.2
    refine stacked.backOut without page (fresh page) [.destroyDir pageDir] ?_ rfl ?_
    · intro event within
      rw [List.mem_singleton.mp within]
      exact fun _ => ⟨nofun, nofun⟩
    · rw [kstacks_log, kstacks_clear, kstacks_log, kstacks_log, ← without,
        update_eq_self]
  | switch => exact stacked.scheduleNext
  | rotate n =>
    have counted : StacksOk { s with preemptTickCnt := n } := stacked
    exact counted.requeue.scheduleNext
  | block target user cause =>
    have asleep : StacksOk (s.sleeping target) :=
      stacked.of_eq rfl (kstacks_modify_same _ _ _ (by intro b; rfl))
    exact asleep.scheduleNext
  | reap z user there zombie => exact stacked.processReapSlot z
  | report z code target found =>
    have logged : StacksOk (s.log (.waited (s.pcb z).serialNo z code)) :=
      stacked.log fun _ => ⟨nofun, nofun⟩
    exact logged.processReapSlot z
  | exit p code user target => exact stacked.exitSlot ok p code (spared p target)
  | signalExit p pending code user target =>
    have kstacks : (s.setSignals p pending).kstacks = s.kstacks :=
      kstacks_modify_same _ _ _ (by intro b; rfl)
    have held : StacksOk (s.setSignals p pending) := stacked.of_eq rfl kstacks
    refine held.exitSlot (ok.setSignals p pending) p code ?_
    rw [kin_setSignals, kstacks]
    exact spared p target

end Steps

theorem stacksOk_processInit (kernelPd idlePage : Nat) :
    StacksOk (processInit kernelPd idlePage) := by
  have blank : Conserved [] fun _ : Slot => 0 := by
    refine ⟨?_, fun _ _ owns => absurd rfl owns⟩
    intro page some
    rw [if_neg (by rintro ⟨_, zero⟩; exact some zero.symm)]
    rfl
  have kstacks : (processInit kernelPd idlePage).kstacks =
      update (fun _ => 0) 0 idlePage := by
    funext i
    by_cases idle : i = 0
    · subst idle
      rfl
    · simp only [Sched.kstacks, processInit, update_of_ne idle]
      rfl
  by_cases none : idlePage = 0
  · rw [StacksOk, kstacks, none, update_eq_self]
    exact blank
  · rw [StacksOk, kstacks]
    simp only [processInit, if_neg none]
    exact Conserved.take blank rfl none rfl

/--
As long as no orphan is killed, every kernel stack is with one process or was given back once.

Orphans are the processes without a parent, and the memory manager is taken to hand out no page
that is still in use as a stack.
-/
theorem kernel_stacks_conserved (kernelPd idlePage : Nat) {s : Sched}
    (run : Run Sched.step (fun op s => SparesOrphans op s ∧ FreshPage op s)
      (processInit kernelPd idlePage) s) :
    (∀ page, page ≠ 0 → taken s.trace page =
      returned s.trace page + if ∃ i, (s.pcb i).kstackPhys = page then 1 else 0) ∧
    ∀ i j, (s.pcb i).kstackPhys ≠ 0 → (s.pcb i).kstackPhys = (s.pcb j).kstackPhys → i = j := by
  have holds : TreeOk s ∧ StacksOk s := by
    refine run.invariant (fun t => TreeOk t ∧ StacksOk t) ?_ ?_
    · exact ⟨treeOk_processInit kernelPd idlePage, stacksOk_processInit kernelPd idlePage⟩
    · intro op t may ok
      have effect := step_effect op t
      exact ⟨effect.tree ok.1, effect.stacks ok.1 ok.2 may.1 may.2⟩
  exact ⟨holds.2.balance, holds.2.once⟩

def reapChild : List ProcOp :=
  [.createUserProcess 1 0 1 7, .start, .forkUser ⟨8, some 9, true⟩, .yield, .exit 3,
    .waitpid 2 0 true]

/-- The stack of a reaped child has been given back once. -/
theorem kernel_stacks_conserved_reaped :
    taken (runInputs Sched.step reapChild (processInit 0 5)).trace 8 =
      returned (runInputs Sched.step reapChild (processInit 0 5)).trace 8 +
        if ∃ i, ((runInputs Sched.step reapChild (processInit 0 5)).pcb i).kstackPhys = 8
        then 1 else 0 :=
  (kernel_stacks_conserved 0 5 (Run.start.inputs reapChild (by decide))).1 8 (by decide)

/-- A user program that is killed by another one loses its stack page for good. -/
theorem killed_orphan_leaks_stack :
    let s := runInputs Sched.step
      [.createUserProcess 1 0 1 7, .createUserProcess 1 0 1 8, .start, .kill 2 9] (processInit 0 5)
    taken s.trace 8 = 1 ∧ returned s.trace 8 = 0 ∧ (∀ i, (s.pcb i).kstackPhys ≠ 8) ∧
      vacant (s.pcb 2) = true := by
  decide +kernel

end CatOs.Proc
