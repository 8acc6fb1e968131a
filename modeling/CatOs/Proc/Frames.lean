import CatOs.Lib.Links
import CatOs.Proc.Process

/-! What the parts of the process code change, and what they leave alone. -/

namespace CatOs.Proc

open Function

structure Kin where
  pid : Nat
  state : ProcState
  ppid : Nat
  exitCode : Int
  waitTarget : Nat
  serialNo : Nat
  deriving DecidableEq, Repr

def Pcb.kin (b : Pcb) : Kin where
  pid := b.pid
  state := b.state
  ppid := b.ppid
  exitCode := b.exitCode
  waitTarget := b.waitTarget
  serialNo := b.serialNo

def emptyKin : Kin := emptyPcb.kin

namespace Sched

variable (s : Sched) (i p : Slot)

def kin : Slot → Kin := fun i => (s.pcb i).kin

theorem pcb_ppid : (s.pcb i).ppid = (s.kin i).ppid := rfl

theorem pcb_state : (s.pcb i).state = (s.kin i).state := rfl

def kstacks : Slot → Nat := fun i => (s.pcb i).kstackPhys

section Pcb

variable (change : Pcb → Pcb)
include change

theorem kin_modify :
    (s.modify i change).kin = update s.kin i (change (s.pcb i)).kin := by
  funext j
  by_cases here : j = i
  · subst here
    simp [kin, modify]
  · simp [kin, modify, here]

theorem kin_modify_same (same : ∀ b, (change b).kin = b.kin) :
    (s.modify i change).kin = s.kin := by
  rw [kin_modify, same]
  exact update_eq_self i s.kin

theorem kstacks_modify :
    (s.modify i change).kstacks = update s.kstacks i (change (s.pcb i)).kstackPhys := by
  funext j
  by_cases here : j = i
  · subst here
    simp [kstacks, modify]
  · simp [kstacks, modify, here]

theorem kstacks_modify_same (same : ∀ b, (change b).kstackPhys = b.kstackPhys) :
    (s.modify i change).kstacks = s.kstacks := by
  rw [kstacks_modify, same]
  exact update_eq_self i s.kstacks

@[simp] theorem current_modify : (s.modify i change).current = s.current := rfl

@[simp] theorem trace_modify : (s.modify i change).trace = s.trace := rfl

theorem readyTail_modify : (s.modify i change).readyTail = s.readyTail := rfl

end Pcb

@[simp] theorem kin_log (event : ProcEvent) : (s.log event).kin = s.kin := rfl

@[simp] theorem kstacks_log (event : ProcEvent) : (s.log event).kstacks = s.kstacks := rfl

@[simp] theorem current_log (event : ProcEvent) : (s.log event).current = s.current := rfl

@[simp] theorem kin_clear : (s.clear i).kin = update s.kin i emptyKin :=
  kin_modify s i _

@[simp] theorem kstacks_clear : (s.clear i).kstacks = update s.kstacks i 0 :=
  kstacks_modify s i _

@[simp] theorem current_clear : (s.clear i).current = s.current := rfl

section Queue

@[simp] theorem kin_readyEnqueue : (s.readyEnqueue p).kin = s.kin := by
  have first := kin_modify_same s p (fun b => { b with nextReady := none }) (by intro b; rfl)
  cases tail : s.readyTail with
  | none =>
    simp only [readyEnqueue, readyTail_modify, tail]
    exact first
  | some last =>
    simp only [readyEnqueue, readyTail_modify, tail]
    have second := kin_modify_same (s.modify p fun b => { b with nextReady := none }) last
      (fun b => { b with nextReady := some p }) (by intro b; rfl)
    exact second.trans first

@[simp] theorem kstacks_readyEnqueue : (s.readyEnqueue p).kstacks = s.kstacks := by
  have first := kstacks_modify_same s p (fun b => { b with nextReady := none }) (by intro b; rfl)
  cases tail : s.readyTail with
  | none =>
    simp only [readyEnqueue, readyTail_modify, tail]
    exact first
  | some last =>
    simp only [readyEnqueue, readyTail_modify, tail]
    have second := kstacks_modify_same (s.modify p fun b => { b with nextReady := none }) last
      (fun b => { b with nextReady := some p }) (by intro b; rfl)
    exact second.trans first

@[simp] theorem trace_readyEnqueue : (s.readyEnqueue p).trace = s.trace := by
  cases tail : s.readyTail <;> simp only [readyEnqueue, readyTail_modify, tail] <;> rfl

@[simp] theorem current_readyEnqueue : (s.readyEnqueue p).current = s.current := by
  cases tail : s.readyTail <;> simp only [readyEnqueue, readyTail_modify, tail] <;> rfl

@[simp] theorem kin_unlinkHead : (s.unlinkHead p).kin = s.kin := by
  unfold unlinkHead
  refine Eq.trans (kin_modify_same _ p _ ?_) rfl
  intro b
  rfl

@[simp] theorem kstacks_unlinkHead : (s.unlinkHead p).kstacks = s.kstacks := by
  unfold unlinkHead
  refine Eq.trans (kstacks_modify_same _ p _ ?_) rfl
  intro b
  rfl

@[simp] theorem trace_unlinkHead : (s.unlinkHead p).trace = s.trace := rfl

@[simp] theorem current_unlinkHead : (s.unlinkHead p).current = s.current := rfl

@[simp] theorem kin_freeStack : (s.freeStack p).kin = s.kin := by
  unfold freeStack
  split_ifs
  · exact kin_modify_same _ p _ (by intro b; rfl)
  · rfl

@[simp] theorem kstacks_freeStack : (s.freeStack p).kstacks = update s.kstacks p 0 := by
  unfold freeStack
  split_ifs with has
  · exact kstacks_modify _ p _
  · -- The slot had no stack.
    have none : s.kstacks p = 0 := not_not.mp has
    rw [← none, update_eq_self]

@[simp] theorem current_freeStack : (s.freeStack p).current = s.current := by
  unfold freeStack
  split_ifs <;> rfl

@[simp] theorem kin_dropDir : (s.dropDir p).kin = s.kin := by
  unfold dropDir
  split_ifs
  · exact kin_modify_same _ p _ (by intro b; rfl)
  · rfl

@[simp] theorem kstacks_dropDir : (s.dropDir p).kstacks = s.kstacks := by
  unfold dropDir
  split_ifs
  · exact kstacks_modify_same _ p _ (by intro b; rfl)
  · rfl

@[simp] theorem current_dropDir : (s.dropDir p).current = s.current := by
  unfold dropDir
  split_ifs <;> rfl

@[simp] theorem kin_signalParent : (s.signalParent p).kin = s.kin := by
  unfold signalParent
  dsimp only
  split_ifs
  · exact kin_modify_same _ _ _ (by intro b; rfl)
  all_goals rfl

@[simp] theorem kstacks_signalParent : (s.signalParent p).kstacks = s.kstacks := by
  unfold signalParent
  dsimp only
  split_ifs
  · exact kstacks_modify_same _ _ _ (by intro b; rfl)
  all_goals rfl

@[simp] theorem current_signalParent : (s.signalParent p).current = s.current := by
  unfold signalParent
  dsimp only
  split_ifs <;> rfl

@[simp] theorem trace_signalParent : (s.signalParent p).trace = s.trace := by
  unfold signalParent
  dsimp only
  split_ifs <;> rfl

theorem pickLoop_kin (fuel : Nat) (s : Sched) :
    (pickLoop fuel s).1.kin = s.kin ∧ (pickLoop fuel s).1.current = s.current ∧
      ∀ next, (pickLoop fuel s).2 = some next → (s.kin next).state = .ready := by
  induction fuel generalizing s with
  | zero => exact ⟨rfl, rfl, nofun⟩
  | succ fuel ih =>
    unfold pickLoop
    cases head : s.readyHead with
    | none => exact ⟨rfl, rfl, nofun⟩
    | some p =>
      dsimp only
      by_cases ready : ((s.unlinkHead p).pcb p).state = .ready
      · rw [if_pos ready]
        refine ⟨kin_unlinkHead s p, rfl, ?_⟩
        intro next found
        obtain rfl : p = next := Option.some.inj found
        have same : (s.unlinkHead p).kin p = s.kin p := by rw [kin_unlinkHead]
        rw [← same]
        exact ready
      rw [if_neg ready]
      -- What is not ready is dropped, and the search goes on.
      split_ifs
      · have rest := ih ((s.unlinkHead p).freeStack p)
        simp only [kin_freeStack, kin_unlinkHead, current_freeStack, current_unlinkHead] at rest
        exact rest
      · have rest := ih (s.unlinkHead p)
        simp only [kin_unlinkHead, current_unlinkHead] at rest
        exact rest

def runs (kin : Slot → Kin) (next : Slot) : Slot → Kin :=
  update kin next { kin next with state := .running }

theorem scheduleNext_kin (idle : (s.kin 0).state = .ready ∨ (s.kin 0).state = .running) :
    ∃ next, (next = 0 ∨ (s.kin next).state = .ready) ∧
      s.scheduleNext.kin = runs s.kin next ∧ s.scheduleNext.current = next := by
  obtain ⟨kin, current, found⟩ := pickLoop_kin 33 s
  unfold scheduleNext pickNext
  rcases picked : pickLoop 33 s with ⟨after, next⟩
  simp only [picked] at kin current found
  have chosen : next.getD 0 = 0 ∨ (s.kin (next.getD 0)).state = .ready := by
    cases next with
    | none => exact .inl rfl
    | some next => exact .inr (found next rfl)
  refine ⟨next.getD 0, chosen, ?_⟩
  dsimp only
  generalize next.getD 0 = next at chosen ⊢
  unfold dispatch
  by_cases same : next = after.current
  · rw [if_pos same]
    by_cases ready : (after.pcb next).state = .ready
    · rw [if_pos ready, kin_modify, kin]
      exact ⟨congrArg (update s.kin next) (by rw [← kin]; rfl), same.symm⟩
    · -- Only the idle process can be chosen without being ready, and then it runs already.
      rw [if_neg ready]
      refine ⟨?_, same.symm⟩
      have state : (after.kin next).state ≠ .ready := ready
      rw [kin] at state
      have running : (s.kin next).state = .running := by
        rcases chosen with rfl | isReady
        · exact idle.resolve_left state
        · exact absurd isReady state
      rw [kin, runs, ← running]
      exact (update_eq_self next s.kin).symm
  · rw [if_neg same, kin_modify]
    refine ⟨?_, rfl⟩
    change update after.kin next { after.kin next with state := .running } = _
    rw [kin]
    rfl

end Queue

section Exit

theorem mem_userSlots (i : Slot) : i ∈ userSlots ↔ i ≠ 0 := by
  revert i
  decide

theorem nodup_userSlots : userSlots.Nodup := by
  decide

def sleepsFor (p : Slot) (ppid : Nat) (k : Kin) : Bool :=
  k.state == .blocked && k.pid != 0 && (k.waitTarget == waitAny || k.waitTarget == p.val) &&
    ppid == k.pid

def woken (p : Slot) (ppid : Nat) (k : Kin) : Kin :=
  if sleepsFor p ppid k then { k with state := .ready } else k

def released (p : Slot) (k : Kin) : Kin :=
  if k.pid ≠ 0 ∧ k.ppid = p.val ∧ k.state ≠ .created then
    if k.state = .terminated then emptyKin else { k with ppid := 0 }
  else k

theorem kin_wakeOne (b : Slot) :
    (wakeOne p s b).kin = update s.kin b (woken p (s.kin p).ppid (s.kin b)) := by
  have condition : s.waitsFor p b = sleepsFor p (s.kin p).ppid (s.kin b) := rfl
  unfold wakeOne woken
  rw [condition]
  split_ifs
  · rw [kin_readyEnqueue, kin_modify]
    rfl
  · exact (update_eq_self b s.kin).symm

theorem kin_wakeWaiters :
    (s.wakeWaiters p).kin =
      fun i => if i ∈ userSlots then woken p (s.kin p).ppid (s.kin i) else s.kin i := by
  -- Waking a process changes its state only, so the parent that is compared with stays.
  refine foldl_pointwise kin (wakeOne p) (fun _ => woken p (s.kin p).ppid)
    (fun t => (t.kin p).ppid = (s.kin p).ppid) ?_ ?_ userSlots nodup_userSlots s rfl
  · intro t b same
    rw [kin_wakeOne]
    by_cases here : p = b
    · subst here
      rw [update_self, ← same, woken]
      split_ifs <;> rfl
    · rw [update_of_ne here]
      exact same
  · intro t b same
    rw [kin_wakeOne, same]

theorem kin_releaseOne (c : Slot) :
    (releaseOne p s c).kin = update s.kin c (released p (s.kin c)) := by
  unfold releaseOne released
  change (if (s.kin c).pid ≠ 0 ∧ (s.kin c).ppid = p.val ∧ (s.kin c).state ≠ .created then
    if (s.kin c).state = .terminated then s.processReapSlot c
    else s.modify c fun b => { b with ppid := 0 } else s).kin = _
  split_ifs
  · rw [processReapSlot, kin_clear, kin_freeStack, kin_dropDir]
  · rw [kin_modify]
    rfl
  · exact (update_eq_self c s.kin).symm

theorem kin_releaseChildren :
    (s.releaseChildren p).kin =
      fun i => if i ∈ userSlots then released p (s.kin i) else s.kin i := by
  refine foldl_pointwise kin (releaseOne p) (fun _ => released p) (fun _ => True) ?_ ?_
    userSlots nodup_userSlots s trivial
  · exact fun _ _ _ => trivial
  · exact fun t c _ => kin_releaseOne t p c

@[simp] theorem current_wakeWaiters : (s.wakeWaiters p).current = s.current := by
  rw [wakeWaiters]
  refine foldl_frame current ?_ userSlots s
  intro t b
  unfold wakeOne
  split_ifs
  · rw [current_readyEnqueue, current_modify]
  · rfl

@[simp] theorem current_releaseChildren : (s.releaseChildren p).current = s.current := by
  rw [releaseChildren]
  refine foldl_frame current ?_ userSlots s
  intro t c
  unfold releaseOne processReapSlot
  split_ifs
  · rw [current_clear, current_freeStack, current_dropDir]
  · rfl
  · rfl

def parted (code : Int) : Sched :=
  ((((s.markDead p code).wakeWaiters p).signalParent p).releaseChildren p).dropDir p

def Alive (k : Kin) : Prop := k.state ≠ .terminated ∧ k.state ≠ .created ∧ k.pid ≠ 0

instance (k : Kin) : Decidable (Alive k) := inferInstanceAs (Decidable (_ ∧ _))

theorem exitSlot_alive (code : Int) (alive : Alive (s.kin p)) :
    s.exitSlot p code = (s.parted p code).finishExit p := by
  unfold exitSlot
  rw [if_neg]
  · rfl
  · exact fun ended => ended.elim alive.1 fun rest => rest.elim alive.2.1 alive.2.2

theorem exitSlot_not_alive (code : Int) (ended : ¬Alive (s.kin p)) : s.exitSlot p code = s := by
  unfold exitSlot
  rw [if_pos]
  by_contra alive
  obtain ⟨running, rest⟩ := not_or.mp alive
  exact ended ⟨running, not_or.mp rest⟩

def dead (code : Int) (k : Kin) : Kin := { k with exitCode := code, state := .terminated }

theorem kin_parted (code : Int) :
    (s.parted p code).kin = fun i =>
      let kin := update s.kin p (dead code (s.kin p))
      if i = 0 then kin i else released p (woken p (s.kin p).ppid (kin i)) := by
  have marked : (s.markDead p code).kin = update s.kin p (dead code (s.kin p)) :=
    kin_modify _ p _
  have parent : ((s.markDead p code).kin p).ppid = (s.kin p).ppid := by
    rw [marked, update_self]
    rfl
  rw [parted, kin_dropDir, kin_releaseChildren, kin_signalParent, kin_wakeWaiters, parent, marked]
  funext i
  simp only [mem_userSlots]
  by_cases idle : i = 0
  · simp [idle]
  · simp [idle]

@[simp] theorem current_parted (code : Int) : (s.parted p code).current = s.current := by
  rw [parted, current_dropDir, current_releaseChildren, current_signalParent,
    current_wakeWaiters]
  rfl

end Exit

end Sched

end CatOs.Proc
