import CatOs.Proc.Frames

/-! Every operation of the process code as one of a few effects on the process table. -/

namespace CatOs.Proc

def ProcOp.page : ProcOp → Nat
  | .createProcess _ _ page => page
  | .createUserProcess _ _ _ page => page
  | .forkKernel env => env.page
  | .forkUser env => env.page
  | _ => 0

namespace Sched

def mustEnd (s : Sched) (p : Slot) : Bool :=
  hasFlag (s.pcb p).sigPending (sigBit sigkill) || hasFlag (s.pcb p).sigPending (sigBit sigterm)

def exitTarget (s : Sched) : ProcOp → Option Slot
  | .exitCode pid _ => slotOf pid
  | .exit _ => slotOf (s.pcb s.current).pid
  | .kill pid sig => if sig = sigkill then slotOf pid else none
  | .deliver => (slotOf (s.pcb s.current).pid).filter s.mustEnd
  | _ => none

def sleeping (s : Sched) (target : Int) : Sched :=
  s.modify s.current fun b =>
    { b with
      waitTarget := targetWord target
      state := if b.state = .running then .blocked else b.state }

def setSignals (s : Sched) (p : Slot) (pending : Word) : Sched :=
  s.modify p fun b => { b with sigPending := pending }

/-- What an operation can do to the process table. -/
inductive Effect (op : ProcOp) (s : Sched) : Sched → Prop
  | same : Effect op s s
  | count (n : Nat) : Effect op s { s with preemptTickCnt := n }
  | signal (p : Slot) (pending : Word) : Effect op s (s.setSignals p pending)
  | create (slot : Slot) (ctx : ProcCtx) (pageDir : Nat)
      (free : s.processAllocSlot = some slot) (page : op.page ≠ 0) :
      Effect op s
        ((s.log (.allocStack op.page)).install slot
          { emptyPcb with
            pid := slot, state := .ready, ctxType := ctx, pageDir := pageDir
            kstackPhys := op.page })
  | fork (slot : Slot) (pageDir : Nat) (user : s.current ≠ 0)
      (free : s.processAllocSlot = some slot) (page : op.page ≠ 0) :
      Effect op s
        ((s.log (.allocStack op.page)).install slot
          (forkChild (s.pcb s.current) slot op.page pageDir))
  | noPage (slot : Slot) (free : s.processAllocSlot = some slot) : Effect op s (s.clear slot)
  | noClone (slot : Slot) (free : s.processAllocSlot = some slot) (page : op.page ≠ 0) :
      Effect op s
        (((s.log (.allocStack op.page)).clear slot).log (.freeStack op.page))
  | noCopy (slot : Slot) (pageDir : Nat) (free : s.processAllocSlot = some slot)
      (page : op.page ≠ 0) :
      Effect op s
        ((((s.log (.allocStack op.page)).log (.destroyDir pageDir)).clear slot).log
          (.freeStack op.page))
  | switch : Effect op s s.scheduleNext
  | rotate (n : Nat) : Effect op s { s with preemptTickCnt := n }.requeue.scheduleNext
  | block (target : Int) (user : s.current ≠ 0)
      (cause : op = .waitBlock target ∨ s.processWaitScan target = .alive) :
      Effect op s (s.sleeping target).scheduleNext
  | reap (z : Slot) (user : z ≠ 0) (there : (s.pcb z).pid ≠ 0)
      (zombie : (s.pcb z).state = .terminated) : Effect op s (s.processReapSlot z)
  | report (z : Slot) (code target : Int)
      (found : s.processWaitScan target = .zombie z code) :
      Effect op s ((s.log (.waited (s.pcb z).serialNo z code)).processReapSlot z)
  | exit (p : Slot) (code : Int) (user : p ≠ 0) (target : s.exitTarget op = some p) :
      Effect op s (s.exitSlot p code)
  | signalExit (p : Slot) (pending : Word) (code : Int) (user : p ≠ 0)
      (target : s.exitTarget op = some p) :
      Effect op s ((s.setSignals p pending).exitSlot p code)

theorem slotOf_eq_some {pid : Int} {p : Slot} (named : slotOf pid = some p) :
    p ≠ 0 ∧ (p.val : Int) = pid := by
  unfold slotOf at named
  split_ifs at named with bound
  obtain rfl := Option.some.inj named
  refine ⟨?_, Int.toNat_of_nonneg (by omega)⟩
  intro zero
  have none : pid.toNat = 0 := congrArg Fin.val zero
  omega

theorem slotOf_val {p : Slot} (user : p ≠ 0) : slotOf p.val = some p := by
  have positive : 0 < p.val := Nat.pos_of_ne_zero fun zero => user (Fin.ext zero)
  have bound := p.isLt
  unfold slotOf
  rw [dif_pos (by omega)]
  rfl

theorem processWaitScan_zombie {s : Sched} {target : Int} {z : Slot} {code : Int}
    (found : s.processWaitScan target = .zombie z code) :
    z ≠ 0 ∧ s.waitMatches target z = true ∧ (s.pcb z).state = .terminated ∧
      (s.pcb z).exitCode = code := by
  unfold processWaitScan at found
  split_ifs at found
  simp only at found
  split at found
  · rename_i p first
    cases found
    have zombie := List.find?_some first
    have within := List.mem_filter.mp (List.mem_of_find?_eq_some first)
    exact ⟨(mem_userSlots z).mp within.1, within.2, beq_iff_eq.mp zombie, rfl⟩
  · split_ifs at found

theorem processWaitScan_alive {s : Sched} {target : Int}
    (found : s.processWaitScan target = .alive) :
    s.current ≠ 0 ∧ ∃ c, c ≠ 0 ∧ s.waitMatches target c = true ∧
      (s.pcb c).state ≠ .terminated := by
  unfold processWaitScan at found
  split_ifs at found with idle
  refine ⟨idle, ?_⟩
  simp only at found
  split at found
  · cases found
  · rename_i none
    split_ifs at found with empty
    obtain ⟨c, within⟩ := List.exists_mem_of_ne_nil _ (mt List.isEmpty_iff.mpr empty)
    have living := List.find?_eq_none.mp none c within
    obtain ⟨user, matching⟩ := List.mem_filter.mp within
    exact ⟨c, (mem_userSlots c).mp user, matching, by simpa using living⟩

theorem processWaitBlock_eq {s : Sched} (target : Int) (user : s.current ≠ 0) :
    s.processWaitBlock target = (s.sleeping target).scheduleNext := by
  -- The sleeper is not running any more, so giving the processor up does not queue it.
  have notRunning : ((s.sleeping target).pcb s.current).state ≠ .running := by
    simp only [sleeping, modify, Function.update_self]
    split_ifs with running
    · decide
    · exact running
  have stays : (s.sleeping target).requeue = s.sleeping target := if_neg notRunning
  unfold processWaitBlock
  rw [if_neg user]
  change (s.sleeping target).schedYield = _
  have stillUser : (s.sleeping target).current ≠ 0 := user
  unfold schedYield
  rw [if_neg stillUser, stays]

theorem startProcess_effect (op : ProcOp) (s : Sched) (ctx : ProcCtx) (pageDir : Nat) :
    Effect op s (s.startProcess ctx pageDir op.page).1 := by
  unfold startProcess
  cases free : s.processAllocSlot with
  | none => exact .same
  | some slot =>
    dsimp only
    split_ifs with page
    · exact .same
    · exact .create slot ctx pageDir free page

theorem processForkKernel_effect (env : ForkEnv) (s : Sched) :
    Effect (.forkKernel env) s (s.processForkKernel env).1 := by
  unfold processForkKernel
  dsimp only
  by_cases idle : s.current = 0
  · rw [if_pos idle]
    exact .same
  rw [if_neg idle]
  by_cases context : (s.pcb s.current).ctxType ≠ .kernel ∨ (s.pcb s.current).kstackPhys = 0
  · rw [if_pos context]
    exact .same
  rw [if_neg context]
  cases free : s.processAllocSlot with
  | none => exact .same
  | some slot =>
    dsimp only
    by_cases page : env.page = 0
    · rw [if_pos page]
      exact .noPage slot free
    rw [if_neg page]
    cases clone : env.childPd with
    | none => exact .noClone slot free page
    | some childPd =>
      dsimp only
      split_ifs
      · exact .fork slot childPd idle free page
      · exact .noCopy slot childPd free page

theorem processForkUser_effect (env : ForkEnv) (s : Sched) :
    Effect (.forkUser env) s (s.processForkUser env).1 := by
  unfold processForkUser
  dsimp only
  by_cases idle : s.current = 0
  · rw [if_pos idle]
    exact .same
  rw [if_neg idle]
  by_cases context : (s.pcb s.current).ctxType ≠ .user ∨ (s.pcb s.current).kstackPhys = 0
  · rw [if_pos context]
    exact .same
  rw [if_neg context]
  by_cases found : env.copies = true
  swap
  · rw [if_neg found]
    exact .same
  rw [if_pos found]
  cases free : s.processAllocSlot with
  | none => exact .same
  | some slot =>
    dsimp only
    by_cases page : env.page = 0
    · rw [if_pos page]
      exact .noPage slot free
    rw [if_neg page]
    cases clone : env.childPd with
    | none => exact .noClone slot free page
    | some childPd => exact .fork slot childPd idle free page

theorem sysWaitpid_effect (s : Sched) (target : Int) (options : Nat) (statusOk : Bool) :
    Effect (.waitpid target options statusOk) s (s.sysWaitpid target options statusOk).1 := by
  unfold sysWaitpid
  split_ifs
  · exact .same
  · exact .same
  · exact .same
  unfold waitpidPass
  cases scan : s.processWaitScan target with
  | noChild => exact .same
  | alive =>
    dsimp only
    obtain ⟨user, -⟩ := processWaitScan_alive scan
    rw [processWaitBlock_eq target user]
    exact .block target user (.inr scan)
  | zombie z code =>
    -- The child that was found dead is still there to be reaped.
    obtain ⟨user, matching, dead, -⟩ := processWaitScan_zombie scan
    have there : (s.pcb z).pid ≠ 0 := by
      simp only [waitMatches, Bool.and_eq_true, bne_iff_ne] at matching
      exact matching.1.1
    dsimp only
    unfold processWaitReap
    rw [slotOf_val user]
    dsimp only
    rw [if_neg (by rintro (alive | gone); exacts [alive dead, there gone])]
    exact .report z code target scan

theorem processKill_effect (s : Sched) (pid sig : Nat) :
    Effect (.kill pid sig) s (s.processKill pid sig).1 := by
  unfold processKill
  by_cases range : pid = 0 ∨ pid ≥ 32
  · rw [dif_pos range]
    exact .same
  rw [dif_neg range]
  by_cases unknown : sig ≠ 0 ∧ sig ≠ sigkill ∧ sig ≠ sigterm ∧ sig ≠ sigchld
  · rw [if_pos unknown]
    exact .same
  rw [if_neg unknown]
  dsimp only
  split_ifs with gone probe kills
  · exact .same
  · exact .same
  · have user : (⟨pid, by omega⟩ : Slot) ≠ 0 := by
      intro zero
      have none : pid = 0 := congrArg Fin.val zero
      omega
    refine .exit _ _ user ?_
    rw [exitTarget, if_pos kills]
    exact slotOf_val user
  · exact .signal _ _

theorem signalDeliver_effect (s : Sched) : Effect .deliver s s.signalDeliver := by
  unfold signalDeliver
  dsimp only
  split_ifs with range kill term child
  · exact .same
  all_goals
    have user : (⟨(s.pcb s.current).pid, by omega⟩ : Slot) ≠ 0 := by
      intro zero
      have none : (s.pcb s.current).pid = 0 := congrArg Fin.val zero
      omega
    have named := slotOf_val user
  · refine .signalExit _ _ _ user ?_
    rw [exitTarget, named]
    simp [mustEnd, kill]
  · refine .signalExit _ _ _ user ?_
    rw [exitTarget, named]
    simp [mustEnd, term]
  · exact .signal _ _
  · exact .same

/-- Every operation has one of the effects. -/
theorem step_effect (op : ProcOp) (s : Sched) : Effect op s (s.step op) := by
  cases op with
  | createProcess hasEntry pageDir page =>
    simp only [step, createProcess]
    split_ifs
    · exact startProcess_effect (.createProcess hasEntry pageDir page) s .kernel pageDir
    · exact .same
  | createUserProcess entry pageDir esp page =>
    simp only [step, createUserProcess]
    split_ifs
    · exact .same
    · exact startProcess_effect (.createUserProcess entry pageDir esp page) s .user pageDir
  | forkKernel env => exact processForkKernel_effect env s
  | forkUser env => exact processForkUser_effect env s
  | yield =>
    simp only [step, schedYield]
    split_ifs
    · exact .same
    · exact .rotate s.preemptTickCnt
  | preemptTick =>
    simp only [step, schedPreemptTick]
    split_ifs
    · exact .count _
    · split
      · exact .count 0
      · exact .rotate 0
  | start => exact .switch
  | waitBlock target =>
    by_cases idle : s.current = 0
    · have nothing : s.processWaitBlock target = s := if_pos idle
      rw [step, nothing]
      exact .same
    · rw [step, processWaitBlock_eq target idle]
      exact .block target idle (.inl rfl)
  | waitReap pid =>
    simp only [step, processWaitReap]
    cases named : slotOf pid with
    | none => exact .same
    | some p =>
      dsimp only
      split_ifs with refused
      · exact .same
      · obtain ⟨zombie, there⟩ := not_or.mp refused
        exact .reap p (slotOf_eq_some named).1 there (not_not.mp zombie)
  | waitpid target options statusOk => exact sysWaitpid_effect s target options statusOk
  | exitCode pid code =>
    simp only [step, exitProcessCode]
    cases named : slotOf pid with
    | none => exact .same
    | some p => exact .exit p code (slotOf_eq_some named).1 named
  | exit status =>
    simp only [step, sysExit]
    split_ifs
    · exact .same
    · simp only [exitProcessCode]
      cases named : slotOf (s.pcb s.current).pid with
      | none => exact .same
      | some p => exact .exit p _ (slotOf_eq_some named).1 named
  | kill pid sig => exact processKill_effect s pid sig
  | deliver => exact signalDeliver_effect s

end Sched

end CatOs.Proc
