import CatOs.Lib.Word

/-! The process table: creation, fork, scheduling, exit, waiting and signals. -/

namespace CatOs.Proc

abbrev Slot := Fin 32

inductive ProcState where
  | created
  | ready
  | running
  | blocked
  | terminated
  deriving DecidableEq, Repr

inductive ProcCtx where
  | kernel
  | user
  deriving DecidableEq, Repr

/--
A process control block.

The serial number is not in the source: it tells the processes apart that use a slot in turn.
-/
structure Pcb where
  pid : Nat
  state : ProcState
  pageDir : Nat
  ctxType : ProcCtx
  kstackPhys : Nat
  nextReady : Option Slot
  ppid : Nat
  exitCode : Int
  sigPending : Word
  waitTarget : Nat
  serialNo : Nat
  deriving DecidableEq, Repr

def emptyPcb : Pcb where
  pid := 0
  state := .created
  pageDir := 0
  ctxType := .kernel
  kstackPhys := 0
  nextReady := none
  ppid := 0
  exitCode := 0
  sigPending := 0
  waitTarget := 0
  serialNo := 0

inductive ProcEvent where
  | allocStack (page : Nat)
  | freeStack (page : Nat)
  | destroyDir (pageDir : Nat)
  | exited (serialNo : Nat) (code : Int)
  | waited (serialNo : Nat) (pid : Nat) (code : Int)
  deriving DecidableEq, Repr

structure Sched where
  pcb : Slot → Pcb
  readyHead : Option Slot
  readyTail : Option Slot
  current : Slot
  preemptTickCnt : Nat
  kernelPd : Nat
  nextSerial : Nat
  trace : List ProcEvent

namespace Sched

def modify (s : Sched) (i : Slot) (change : Pcb → Pcb) : Sched :=
  { s with pcb := Function.update s.pcb i (change (s.pcb i)) }

def log (s : Sched) (event : ProcEvent) : Sched :=
  { s with trace := s.trace ++ [event] }

def clear (s : Sched) (i : Slot) : Sched :=
  s.modify i fun _ => emptyPcb

def readyEnqueue (s : Sched) (p : Slot) : Sched :=
  let s := s.modify p fun b => { b with nextReady := none }
  let s :=
    match s.readyTail with
    | some tail => s.modify tail fun b => { b with nextReady := some p }
    | none => { s with readyHead := some p }
  { s with readyTail := some p }

def freeStack (s : Sched) (p : Slot) : Sched :=
  if (s.pcb p).kstackPhys ≠ 0 then
    (s.log (.freeStack (s.pcb p).kstackPhys)).modify p fun b => { b with kstackPhys := 0 }
  else s

def unlinkHead (s : Sched) (p : Slot) : Sched :=
  let tail := if s.readyTail = some p then none else s.readyTail
  let s := { s with readyHead := (s.pcb p).nextReady, readyTail := tail }
  s.modify p fun b => { b with nextReady := none }

def pickLoop : Nat → Sched → Sched × Option Slot
  | 0, s => (s, none)
  | fuel + 1, s =>
    match s.readyHead with
    | none => (s, none)
    | some p =>
      let s := s.unlinkHead p
      if (s.pcb p).state = .ready then (s, some p)
      else if (s.pcb p).state = .terminated then pickLoop fuel (s.freeStack p)
      else pickLoop fuel s

def pickNext (s : Sched) : Sched × Option Slot :=
  pickLoop 33 s

def dispatch (s : Sched) (next : Slot) : Sched :=
  if next = s.current then
    if (s.pcb next).state = .ready then s.modify next fun b => { b with state := .running }
    else s
  else { s with current := next }.modify next fun b => { b with state := .running }

def scheduleNext (s : Sched) : Sched :=
  let (s, next) := s.pickNext
  s.dispatch (next.getD 0)

def requeue (s : Sched) : Sched :=
  if (s.pcb s.current).state = .running then
    (s.modify s.current fun b => { b with state := .ready }).readyEnqueue s.current
  else s

def schedYield (s : Sched) : Sched :=
  if s.current = 0 then s else s.requeue.scheduleNext

def preemptQuantumTicks : Nat := 100

def schedPreemptTick (s : Sched) : Sched :=
  let count := (s.preemptTickCnt + 1) % 4294967296
  if count < preemptQuantumTicks then { s with preemptTickCnt := count }
  else
    let s := { s with preemptTickCnt := 0 }
    match s.readyHead with
    | none => s
    | some _ => s.requeue.scheduleNext

def userSlots : List Slot := (List.finRange 32).tail

def vacant (b : Pcb) : Bool :=
  b.state == .created && b.kstackPhys == 0 && b.pid == 0

def processAllocSlot (s : Sched) : Option Slot :=
  userSlots.find? fun i => vacant (s.pcb i)

def install (s : Sched) (slot : Slot) (b : Pcb) : Sched :=
  let s := s.modify slot fun _ => { b with serialNo := s.nextSerial }
  { s with nextSerial := s.nextSerial + 1 }.readyEnqueue slot

def startProcess (s : Sched) (ctx : ProcCtx) (pageDir page : Nat) : Sched × Int :=
  match s.processAllocSlot with
  | none => (s, -1)
  | some slot =>
    if page = 0 then (s, -1)
    else
      ((s.log (.allocStack page)).install slot
        { emptyPcb with
          pid := slot
          state := .ready
          ctxType := ctx
          pageDir := pageDir
          kstackPhys := page }, slot)

def createProcess (s : Sched) (hasEntry : Bool) (pageDir page : Nat) : Sched × Int :=
  if hasEntry then s.startProcess .kernel pageDir page else (s, -1)

def createUserProcess (s : Sched) (userEntry pageDir userEsp page : Nat) : Sched × Int :=
  if userEntry = 0 ∨ userEsp = 0 then (s, -1) else s.startProcess .user pageDir page

structure ForkEnv where
  page : Nat
  childPd : Option Nat
  copies : Bool
  deriving DecidableEq, Repr

def forkChild (parent : Pcb) (slot : Slot) (page pageDir : Nat) : Pcb :=
  { parent with
    pid := slot
    pageDir := pageDir
    kstackPhys := page
    nextReady := none
    state := .ready
    ppid := parent.pid
    exitCode := 0
    sigPending := 0
    waitTarget := 0 }

def processForkKernel (s : Sched) (env : ForkEnv) : Sched × Int :=
  let parent := s.pcb s.current
  if s.current = 0 then (s, -1)
  else if parent.ctxType ≠ .kernel ∨ parent.kstackPhys = 0 then (s, -1)
  else
    match s.processAllocSlot with
    | none => (s, -1)
    | some slot =>
      if env.page = 0 then (s.clear slot, -12)
      else
        let s := s.log (.allocStack env.page)
        match env.childPd with
        | none => ((s.clear slot).log (.freeStack env.page), -12)
        | some childPd =>
          -- The part of the stack above the call has to fit in the stack of the child.
          if env.copies then
            (s.install slot (forkChild parent slot env.page childPd), slot)
          else
            (((s.log (.destroyDir childPd)).clear slot).log (.freeStack env.page), -1)

def processForkUser (s : Sched) (env : ForkEnv) : Sched × Int :=
  let parent := s.pcb s.current
  if s.current = 0 then (s, -1)
  else if parent.ctxType ≠ .user ∨ parent.kstackPhys = 0 then (s, -1)
  else if env.copies then
    match s.processAllocSlot with
    | none => (s, -12)
    | some slot =>
      if env.page = 0 then (s.clear slot, -12)
      else
        let s := s.log (.allocStack env.page)
        match env.childPd with
        | none => ((s.clear slot).log (.freeStack env.page), -12)
        | some childPd => (s.install slot (forkChild parent slot env.page childPd), slot)
  else (s, -1)

def privateDir (s : Sched) (p : Slot) : Bool :=
  (s.pcb p).pageDir != 0 && (s.pcb p).pageDir != s.kernelPd

def dropDir (s : Sched) (p : Slot) : Sched :=
  if s.privateDir p then
    (s.log (.destroyDir (s.pcb p).pageDir)).modify p fun b => { b with pageDir := 0 }
  else s

def processReapSlot (s : Sched) (p : Slot) : Sched :=
  ((s.dropDir p).freeStack p).clear p

def waitAny : Nat := 0xFFFFFFFF

def waitsFor (s : Sched) (p b : Slot) : Bool :=
  (s.pcb b).state == .blocked && (s.pcb b).pid != 0 &&
    ((s.pcb b).waitTarget == waitAny || (s.pcb b).waitTarget == p.val) &&
    (s.pcb p).ppid == (s.pcb b).pid

def wakeOne (p : Slot) (s : Sched) (b : Slot) : Sched :=
  if s.waitsFor p b then (s.modify b fun b => { b with state := .ready }).readyEnqueue b
  else s

def wakeWaiters (s : Sched) (p : Slot) : Sched :=
  userSlots.foldl (wakeOne p) s

def sigchld : Nat := 17

def sigterm : Nat := 15

def sigkill : Nat := 9

def sigBit (sig : Nat) : Word := 1 <<< sig

def signalParent (s : Sched) (p : Slot) : Sched :=
  let ppid := (s.pcb p).ppid
  if bound : ppid < 32 then
    if ppid ≠ 0 ∧ (s.pcb ⟨ppid, bound⟩).pid ≠ 0 then
      s.modify ⟨ppid, bound⟩ fun b => { b with sigPending := b.sigPending ||| sigBit sigchld }
    else s
  else s

def releaseOne (p : Slot) (s : Sched) (c : Slot) : Sched :=
  if (s.pcb c).pid ≠ 0 ∧ (s.pcb c).ppid = p.val ∧ (s.pcb c).state ≠ .created then
    if (s.pcb c).state = .terminated then s.processReapSlot c
    else s.modify c fun b => { b with ppid := 0 }
  else s

def releaseChildren (s : Sched) (p : Slot) : Sched :=
  userSlots.foldl (releaseOne p) s

def markDead (s : Sched) (p : Slot) (code : Int) : Sched :=
  (s.log (.exited (s.pcb p).serialNo code)).modify p fun b =>
    { b with exitCode := code, state := .terminated }

def finishExit (s : Sched) (p : Slot) : Sched :=
  if s.current ≠ p ∧ (s.pcb p).ppid = 0 ∧ (s.pcb p).state = .terminated then
    -- An orphan that was killed is cleared at once, with whatever stack it still has.
    s.clear p
  else if s.current ≠ p then s.freeStack p
  else s.scheduleNext

def exitSlot (s : Sched) (p : Slot) (code : Int) : Sched :=
  if (s.pcb p).state = .terminated ∨ (s.pcb p).state = .created ∨ (s.pcb p).pid = 0 then s
  else
    let s := s.markDead p code
    let s := s.wakeWaiters p
    let s := s.signalParent p
    let s := s.releaseChildren p
    (s.dropDir p).finishExit p

def slotOf (pid : Int) : Option Slot :=
  if bound : 0 < pid ∧ pid < 32 then some ⟨pid.toNat, by omega⟩ else none

def exitProcessCode (s : Sched) (pid code : Int) : Sched :=
  match slotOf pid with
  | none => s
  | some p => s.exitSlot p code

inductive WaitScan where
  | noChild
  | alive
  | zombie (slot : Slot) (code : Int)
  deriving DecidableEq, Repr

def waitMatches (s : Sched) (target : Int) (p : Slot) : Bool :=
  (s.pcb p).pid != 0 && (s.pcb p).ppid == (s.pcb s.current).pid &&
    (target == -1 || target == (s.pcb p).pid)

def processWaitScan (s : Sched) (target : Int) : WaitScan :=
  if s.current = 0 then .noChild
  else
    let children := userSlots.filter (s.waitMatches target)
    match children.find? fun p => (s.pcb p).state == .terminated with
    | some p => .zombie p (s.pcb p).exitCode
    | none => if children.isEmpty then .noChild else .alive

def targetWord (target : Int) : Nat := (target % 4294967296).toNat

def processWaitBlock (s : Sched) (target : Int) : Sched :=
  if s.current = 0 then s
  else
    let s := s.modify s.current fun b =>
      { b with
        waitTarget := targetWord target
        state := if b.state = .running then .blocked else b.state }
    s.schedYield

def processWaitReap (s : Sched) (pid : Int) : Sched :=
  match slotOf pid with
  | none => s
  | some p =>
    if (s.pcb p).state ≠ .terminated ∨ (s.pcb p).pid = 0 then s else s.processReapSlot p

def einval : Int := 22

def esrch : Int := 3

def echild : Int := 10

def efault : Int := 14

def eperm : Int := 1

def waitpidPass (s : Sched) (target : Int) : Sched × Option Int :=
  match s.processWaitScan target with
  | .zombie z code =>
    ((s.log (.waited (s.pcb z).serialNo z code)).processWaitReap z, some z)
  | .noChild => (s, some (-echild))
  | .alive => (s.processWaitBlock target, none)

def sysWaitpid (s : Sched) (target : Int) (options : Nat) (statusOk : Bool) :
    Sched × Option Int :=
  if options ≠ 0 then (s, some (-einval))
  else if target = 0 ∨ target < -1 then (s, some (-einval))
  else if statusOk = false then (s, some (-efault))
  else s.waitpidPass target

def processKill (s : Sched) (pid sig : Nat) : Sched × Int :=
  if bound : pid = 0 ∨ pid ≥ 32 then (s, -einval)
  else if sig ≠ 0 ∧ sig ≠ sigkill ∧ sig ≠ sigterm ∧ sig ≠ sigchld then (s, -einval)
  else
    let t : Slot := ⟨pid, by omega⟩
    if (s.pcb t).pid = 0 ∨ (s.pcb t).state = .created then (s, -esrch)
    else if sig = 0 then (s, 0)
    else if sig = sigkill then (s.exitSlot t sigkill, 0)
    else (s.modify t fun b => { b with sigPending := b.sigPending ||| sigBit sig }, 0)

def sysExit (s : Sched) (status : Nat) : Sched × Int :=
  if (s.pcb s.current).pid = 0 then (s, -eperm)
  else (s.exitProcessCode (s.pcb s.current).pid ((status % 256) * 256 : Nat), 0)

def signalDeliver (s : Sched) : Sched :=
  let pid := (s.pcb s.current).pid
  if bound : pid = 0 ∨ pid ≥ 32 then s
  else
    let p : Slot := ⟨pid, by omega⟩
    let drop (sig : Nat) := s.modify p fun b =>
      { b with sigPending := b.sigPending &&& ~~~(sigBit sig) }
    if hasFlag (s.pcb p).sigPending (sigBit sigkill) then (drop sigkill).exitSlot p sigkill
    else if hasFlag (s.pcb p).sigPending (sigBit sigterm) then (drop sigterm).exitSlot p sigterm
    else if hasFlag (s.pcb p).sigPending (sigBit sigchld) then drop sigchld
    else s

def processInit (kernelPd idlePage : Nat) : Sched where
  pcb := Function.update (fun _ => emptyPcb) 0
    { emptyPcb with state := .running, kstackPhys := idlePage }
  readyHead := none
  readyTail := none
  current := 0
  preemptTickCnt := 0
  kernelPd := kernelPd
  nextSerial := 1
  trace := if idlePage = 0 then [] else [.allocStack idlePage]

end Sched

inductive ProcOp where
  | createProcess (hasEntry : Bool) (pageDir page : Nat)
  | createUserProcess (userEntry pageDir userEsp page : Nat)
  | forkKernel (env : Sched.ForkEnv)
  | forkUser (env : Sched.ForkEnv)
  | yield
  | preemptTick
  | start
  | waitBlock (target : Int)
  | waitReap (pid : Int)
  | waitpid (target : Int) (options : Nat) (statusOk : Bool)
  | exitCode (pid code : Int)
  | exit (status : Nat)
  | kill (pid sig : Nat)
  | deliver
  deriving DecidableEq, Repr

def Sched.step (op : ProcOp) (s : Sched) : Sched :=
  match op with
  | .createProcess hasEntry pageDir page => (s.createProcess hasEntry pageDir page).1
  | .createUserProcess entry pageDir esp page => (s.createUserProcess entry pageDir esp page).1
  | .forkKernel env => (s.processForkKernel env).1
  | .forkUser env => (s.processForkUser env).1
  | .yield => s.schedYield
  | .preemptTick => s.schedPreemptTick
  | .start => s.scheduleNext
  | .waitBlock target => s.processWaitBlock target
  | .waitReap pid => s.processWaitReap pid
  | .waitpid target options statusOk => (s.sysWaitpid target options statusOk).1
  | .exitCode pid code => s.exitProcessCode pid code
  | .exit status => (s.sysExit status).1
  | .kill pid sig => (s.processKill pid sig).1
  | .deliver => s.signalDeliver

end CatOs.Proc
