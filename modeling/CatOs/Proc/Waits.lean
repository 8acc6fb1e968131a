import CatOs.Proc.Zombies

/-! Waiting for children: nobody sleeps without a child, and every exit is reported at most once. -/

namespace CatOs.Proc

open Sched
open Function

def ProcOp.blindSleep : ProcOp → Bool
  | .waitBlock _ => true
  | _ => false

section Sleepers

variable {kin : Slot → Kin} {s : Sched}

theorem Awaited.fill (awaited : Awaited kin) {i : Slot} {k : Kin} (gone : (kin i).pid = 0)
    (awake : k.state ≠ .blocked) : Awaited (update kin i k) := by
  intro j blocked
  by_cases here : j = i
  · subst here
    rw [update_self] at blocked
    exact absurd blocked awake
  rw [update_of_ne here] at blocked ⊢
  obtain ⟨c, there, rest⟩ := awaited j blocked
  have apart : c ≠ i := fun same => there (same ▸ gone)
  refine ⟨c, ?_⟩
  rw [update_of_ne apart]
  exact ⟨there, rest⟩

theorem targetWord_pid {pid : Nat} (small : pid < 32) : targetWord pid = pid := by
  unfold targetWord
  omega

theorem Awaited.sleeping (awaited : Awaited s.kin) (ok : TreeOk s) {target : Int}
    (found : s.processWaitScan target = .alive) : Awaited (s.sleeping target).kin := by
  obtain ⟨-, c, user, matching, living⟩ := processWaitScan_alive found
  simp only [waitMatches, Bool.and_eq_true, Bool.or_eq_true, bne_iff_ne, beq_iff_eq] at matching
  obtain ⟨⟨there, child⟩, wanted⟩ := matching
  rw [kin_sleeping target ok.running]
  -- Falling asleep neither ends a process nor changes whose child it is.
  have kept : ∀ q, (update s.kin s.current
      { s.kin s.current with waitTarget := targetWord target, state := .blocked } q).pid =
        (s.kin q).pid ∧
      (update s.kin s.current
        { s.kin s.current with waitTarget := targetWord target, state := .blocked } q).ppid =
        (s.kin q).ppid ∧
      ((s.kin q).state ≠ .terminated → (update s.kin s.current
        { s.kin s.current with waitTarget := targetWord target, state := .blocked } q).state ≠
        .terminated) := by
    intro q
    by_cases here : q = s.current
    · subst here
      rw [update_self]
      refine ⟨rfl, rfl, fun _ gone => ?_⟩
      cases gone
    · rw [update_of_ne here]
      exact ⟨rfl, rfl, id⟩
  intro j blocked
  rw [(kept j).1]
  by_cases here : j = s.current
  · subst here
    refine ⟨c, (kept c).1 ▸ there, (kept c).2.1 ▸ child, ?_, (kept c).2.2 living⟩
    rw [update_self, (kept c).1]
    have number := (ok.family.pid_eq there).2
    rcases wanted with anyone | this
    · left
      rw [anyone]
      rfl
    · right
      rw [this]
      exact targetWord_pid (by change (s.kin c).pid < 32; rw [number]; exact c.isLt)
  · rw [update_of_ne here] at blocked ⊢
    obtain ⟨q, there, child, target, living⟩ := awaited j blocked
    exact ⟨q, (kept q).1 ▸ there, (kept q).2.1 ▸ child, (kept q).1 ▸ target,
      (kept q).2.2 living⟩

theorem Awaited.exitSlot (awaited : Awaited s.kin) (ok : TreeOk s) (p : Slot) (code : Int) :
    Awaited (s.exitSlot p code).kin := by
  by_cases alive : Alive (s.kin p)
  swap
  · rw [exitSlot_not_alive s p code alive]
    exact awaited
  have family := ok.family.parted code alive
  have parted := awaited.parted ok.family code alive
  have ended : ((s.parted p code).kin p).state = .terminated := by
    rw [parted_self ok.family code alive]
    rfl
  rw [exitSlot_alive s p code alive]
  unfold finishExit
  split_ifs
  · rw [kin_clear]
    exact parted.vacate (.inr ended)
  · rw [kin_freeStack]
    exact parted
  · exact parted.scheduleNext family

/-- Every operation that looks before it sleeps leaves the sleepers awaited. -/
theorem Sched.Effect.awaited {op : ProcOp} {t : Sched} (effect : Effect op s t) (ok : TreeOk s)
    (awaited : Awaited s.kin) (looks : op.blindSleep = false) : Awaited t.kin := by
  cases effect with
  | same | count n => exact awaited
  | signal p pending =>
    rw [kin_setSignals]
    exact awaited
  | create slot ctx pageDir free page | fork slot pageDir user free page =>
    rw [kin_install, kin_log]
    exact awaited.fill (processAllocSlot_vacant free).2.1 nofun
  | noPage slot free =>
    rw [kin_clear]
    exact awaited.vacate (.inl (processAllocSlot_vacant free).2.1)
  | noClone slot free page | noCopy slot pageDir free page =>
    rw [kin_log, kin_clear]
    exact awaited.vacate (.inl (processAllocSlot_vacant free).2.1)
  | switch => exact awaited.scheduleNext ok.family
  | rotate n =>
    have counted : TreeOk { s with preemptTickCnt := n } := ⟨ok.family, ok.running⟩
    have queued : Awaited { s with preemptTickCnt := n }.requeue.kin := by
      rw [kin_requeue counted.running]
      exact Awaited.stir awaited rfl rfl nofun nofun
    exact queued.scheduleNext counted.requeue
  | block target user cause =>
    have found : s.processWaitScan target = .alive := by
      rcases cause with blind | found
      · rw [blind] at looks
        cases looks
      · exact found
    exact (awaited.sleeping ok found).scheduleNext (ok.sleeping target user)
  | reap z user there zombie =>
    rw [kin_processReapSlot]
    exact awaited.vacate (.inr zombie)
  | report z code target found =>
    rw [kin_processReapSlot, kin_log]
    exact awaited.vacate (.inr (processWaitScan_zombie found).2.2.1)
  | exit p code user target => exact awaited.exitSlot ok p code
  | signalExit p pending code user target =>
    refine Awaited.exitSlot ?_ (ok.setSignals p pending) p code
    rw [kin_setSignals]
    exact awaited

end Sleepers

section Book

def exitsOf (trace : List ProcEvent) : List (Nat × Int) :=
  trace.filterMap fun
    | .exited serialNo code => some (serialNo, code)
    | _ => none

def waitsOf (trace : List ProcEvent) : List (Nat × Nat × Int) :=
  trace.filterMap fun
    | .waited serialNo pid code => some (serialNo, pid, code)
    | _ => none

structure Book where
  exits : List (Nat × Int)
  waits : List (Nat × Nat × Int)
  nextSerial : Nat

def Sched.book (s : Sched) : Book := ⟨exitsOf s.trace, waitsOf s.trace, s.nextSerial⟩

variable (s : Sched)

def ProcEvent.memory : ProcEvent → Bool
  | .exited _ _ => false
  | .waited _ _ _ => false
  | _ => true

theorem book_log {event : ProcEvent} (memory : event.memory = true) :
    (s.log event).book = s.book := by
  cases event with
  | exited serialNo code | waited serialNo pid code => cases memory
  | allocStack page | freeStack page | destroyDir pageDir =>
    simp [Sched.book, exitsOf, waitsOf, Sched.log]

@[simp] theorem book_modify (i : Slot) (change : Pcb → Pcb) : (s.modify i change).book = s.book :=
  rfl

@[simp] theorem book_clear (i : Slot) : (s.clear i).book = s.book := rfl

@[simp] theorem book_readyEnqueue (p : Slot) : (s.readyEnqueue p).book = s.book := by
  cases tail : s.readyTail <;> simp only [readyEnqueue, readyTail_modify, tail] <;> rfl

@[simp] theorem book_freeStack (p : Slot) : (s.freeStack p).book = s.book := by
  unfold freeStack
  split_ifs
  · rw [book_modify, book_log s rfl]
  · rfl

@[simp] theorem book_dropDir (p : Slot) : (s.dropDir p).book = s.book := by
  unfold dropDir
  split_ifs
  · rw [book_modify, book_log s rfl]
  · rfl

@[simp] theorem book_processReapSlot (p : Slot) : (s.processReapSlot p).book = s.book := by
  rw [processReapSlot, book_clear, book_freeStack, book_dropDir]

@[simp] theorem book_unlinkHead (p : Slot) : (s.unlinkHead p).book = s.book := rfl

@[simp] theorem book_signalParent (p : Slot) : (s.signalParent p).book = s.book := by
  unfold signalParent
  dsimp only
  split_ifs <;> rfl

theorem book_pickLoop (fuel : Nat) (s : Sched) : (pickLoop fuel s).1.book = s.book := by
  induction fuel generalizing s with
  | zero => rfl
  | succ fuel ih =>
    unfold pickLoop
    cases head : s.readyHead with
    | none => rfl
    | some p =>
      dsimp only
      split_ifs
      · rfl
      · rw [ih, book_freeStack, book_unlinkHead]
      · rw [ih, book_unlinkHead]

@[simp] theorem book_scheduleNext : s.scheduleNext.book = s.book := by
  have picked := book_pickLoop 33 s
  unfold scheduleNext pickNext
  rcases result : pickLoop 33 s with ⟨after, next⟩
  simp only [result] at picked ⊢
  unfold dispatch
  split_ifs <;> exact picked

@[simp] theorem book_requeue : s.requeue.book = s.book := by
  unfold requeue
  split_ifs
  · rw [book_readyEnqueue, book_modify]
  · rfl

@[simp] theorem book_wakeWaiters (p : Slot) : (s.wakeWaiters p).book = s.book := by
  rw [wakeWaiters]
  refine foldl_frame Sched.book ?_ userSlots s
  intro t b
  unfold wakeOne
  split_ifs
  · rw [book_readyEnqueue, book_modify]
  · rfl

@[simp] theorem book_releaseChildren (p : Slot) : (s.releaseChildren p).book = s.book := by
  rw [releaseChildren]
  refine foldl_frame Sched.book ?_ userSlots s
  intro t c
  unfold releaseOne
  split_ifs
  · rw [book_processReapSlot]
  · rfl
  · rfl

theorem book_parted (p : Slot) (code : Int) :
    (s.parted p code).book =
      { s.book with exits := s.book.exits ++ [((s.kin p).serialNo, code)] } := by
  rw [parted, book_dropDir, book_releaseChildren, book_signalParent, book_wakeWaiters, markDead,
    book_modify]
  simp [Sched.book, exitsOf, waitsOf, Sched.log, Sched.kin, Pcb.kin]

theorem book_waited (serialNo pid : Nat) (code : Int) :
    (s.log (.waited serialNo pid code)).book =
      { s.book with waits := s.book.waits ++ [(serialNo, pid, code)] } := by
  simp [Sched.book, exitsOf, waitsOf, Sched.log]

theorem book_install (slot : Slot) (b : Pcb) {event : ProcEvent} (memory : event.memory = true) :
    ((s.log event).install slot b).book =
      { s.book with nextSerial := s.book.nextSerial + 1 } := by
  have logged := book_log s memory
  unfold install
  rw [book_readyEnqueue]
  have exits : exitsOf (s.log event).trace = exitsOf s.trace := congrArg Book.exits logged
  have waits : waitsOf (s.log event).trace = waitsOf s.trace := congrArg Book.waits logged
  simp only [Sched.book, trace_modify, exits, waits]
  rfl

end Book

section Ledger

structure Ledger (kin : Slot → Kin) (book : Book) : Prop where
  fresh : ∀ i, (kin i).pid ≠ 0 → (kin i).serialNo < book.nextSerial
  apart : ∀ i j, (kin i).pid ≠ 0 → (kin j).pid ≠ 0 → (kin i).serialNo = (kin j).serialNo → i = j
  below : ∀ e ∈ book.exits, e.1 < book.nextSerial
  living : ∀ i, (kin i).pid ≠ 0 → (kin i).state ≠ .terminated →
    ∀ e ∈ book.exits, e.1 ≠ (kin i).serialNo
  recorded : ∀ i, (kin i).pid ≠ 0 → (kin i).state = .terminated →
    ((kin i).serialNo, (kin i).exitCode) ∈ book.exits
  unreported : ∀ i, (kin i).pid ≠ 0 → ∀ w ∈ book.waits, w.1 ≠ (kin i).serialNo
  exitsOnce : (book.exits.map Prod.fst).Nodup
  waitsOnce : (book.waits.map Prod.fst).Nodup
  truthful : ∀ w ∈ book.waits, (w.1, w.2.2) ∈ book.exits

variable {kin after : Slot → Kin} {book : Book}

section Ledger

variable (ledger : Ledger kin book)
include ledger

theorem Ledger.keep
    (same : ∀ i, (after i).pid ≠ 0 → (kin i).pid ≠ 0 ∧ (after i).serialNo = (kin i).serialNo ∧
      (after i).exitCode = (kin i).exitCode ∧
      ((after i).state = .terminated ↔ (kin i).state = .terminated)) :
    Ledger after book where
  fresh i there := (same i there).2.1 ▸ ledger.fresh i (same i there).1
  apart i j iThere jThere equal := by
    rw [(same i iThere).2.1, (same j jThere).2.1] at equal
    exact ledger.apart i j (same i iThere).1 (same j jThere).1 equal
  below := ledger.below
  living i there alive := by
    rw [(same i there).2.1]
    exact ledger.living i (same i there).1 ((same i there).2.2.2.not.mp alive)
  recorded i there ended := by
    rw [(same i there).2.1, (same i there).2.2.1]
    exact ledger.recorded i (same i there).1 ((same i there).2.2.2.mp ended)
  unreported i there := by
    rw [(same i there).2.1]
    exact ledger.unreported i (same i there).1
  exitsOnce := ledger.exitsOnce
  waitsOnce := ledger.waitsOnce
  truthful := ledger.truthful

theorem Ledger.vacate (i : Slot) :
    Ledger (update kin i emptyKin) book := by
  apply ledger.keep
  intro j there
  by_cases here : j = i
  · subst here
    rw [update_self] at there
    exact absurd rfl there
  · rw [update_of_ne here] at there ⊢
    exact ⟨there, rfl, rfl, Iff.rfl⟩

theorem Ledger.stir {i : Slot} {k : Kin} (pid : k.pid = (kin i).pid)
    (serialNo : k.serialNo = (kin i).serialNo) (exitCode : k.exitCode = (kin i).exitCode)
    (before : (kin i).state ≠ .terminated) (living : k.state ≠ .terminated) :
    Ledger (update kin i k) book := by
  apply ledger.keep
  intro j there
  by_cases here : j = i
  · subst here
    rw [update_self] at there ⊢
    exact ⟨pid ▸ there, serialNo, exitCode, iff_of_false living before⟩
  · rw [update_of_ne here] at there ⊢
    exact ⟨there, rfl, rfl, Iff.rfl⟩

theorem Ledger.fill {i : Slot} {k : Kin}
    (serialNo : k.serialNo = book.nextSerial) (living : k.state ≠ .terminated) :
    Ledger (update kin i k) { book with nextSerial := book.nextSerial + 1 } := by
  -- The new number is above every number in use and every number in the book.
  have older : ∀ w ∈ book.waits, w.1 < book.nextSerial := fun w within =>
    ledger.below _ (ledger.truthful w within)
  constructor
  · intro j there
    by_cases here : j = i
    · subst here
      rw [update_self, serialNo]
      exact Nat.lt_succ_self _
    · rw [update_of_ne here] at there ⊢
      exact Nat.lt_succ_of_lt (ledger.fresh j there)
  · intro a b aThere bThere equal
    by_cases aHere : a = i <;> by_cases bHere : b = i
    · rw [aHere, bHere]
    · subst aHere
      rw [update_self, update_of_ne bHere, serialNo] at equal
      rw [update_of_ne bHere] at bThere
      have := ledger.fresh b bThere
      omega
    · subst bHere
      rw [update_self, update_of_ne aHere, serialNo] at equal
      rw [update_of_ne aHere] at aThere
      have := ledger.fresh a aThere
      omega
    · rw [update_of_ne aHere] at aThere equal
      rw [update_of_ne bHere] at bThere equal
      exact ledger.apart a b aThere bThere equal
  · exact fun e within => Nat.lt_succ_of_lt (ledger.below e within)
  · intro j there alive e within
    by_cases here : j = i
    · subst here
      rw [update_self, serialNo]
      exact Nat.ne_of_lt (ledger.below e within)
    · rw [update_of_ne here] at there alive ⊢
      exact ledger.living j there alive e within
  · intro j there ended
    by_cases here : j = i
    · subst here
      rw [update_self] at ended
      exact absurd ended living
    · rw [update_of_ne here] at there ended ⊢
      exact ledger.recorded j there ended
  · intro j there w within
    by_cases here : j = i
    · subst here
      rw [update_self, serialNo]
      exact Nat.ne_of_lt (older w within)
    · rw [update_of_ne here] at there ⊢
      exact ledger.unreported j there w within
  · exact ledger.exitsOnce
  · exact ledger.waitsOnce
  · exact ledger.truthful

/-- The end of a living process goes into the book once, with its exit code. -/
theorem Ledger.exit {p : Slot} {code : Int} (alive : Alive (kin p))
    (self : after p = dead code (kin p))
    (others : ∀ i, i ≠ p → (after i).pid ≠ 0 → (kin i).pid ≠ 0 ∧
      (after i).serialNo = (kin i).serialNo ∧ (after i).exitCode = (kin i).exitCode ∧
      ((after i).state = .terminated ↔ (kin i).state = .terminated)) :
    Ledger after { book with exits := book.exits ++ [((kin p).serialNo, code)] } := by
  have serialNo : (after p).serialNo = (kin p).serialNo := by rw [self]; rfl
  have serials : ∀ i, (after i).pid ≠ 0 →
      (kin i).pid ≠ 0 ∧ (after i).serialNo = (kin i).serialNo := by
    intro i there
    by_cases here : i = p
    · subst here
      exact ⟨alive.2.2, serialNo⟩
    · exact ⟨(others i here there).1, (others i here there).2.1⟩
  have unrecorded := ledger.living p alive.2.2 alive.1
  constructor
  · intro i there
    rw [(serials i there).2]
    exact ledger.fresh i (serials i there).1
  · intro i j iThere jThere equal
    rw [(serials i iThere).2, (serials j jThere).2] at equal
    exact ledger.apart i j (serials i iThere).1 (serials j jThere).1 equal
  · intro e within
    rcases List.mem_append.mp within with old | new
    · exact ledger.below e old
    · rw [List.mem_singleton.mp new]
      exact ledger.fresh p alive.2.2
  · intro i there living e within
    have apart : i ≠ p := by
      rintro rfl
      rw [self] at living
      exact living rfl
    obtain ⟨before, serial, -, ended⟩ := others i apart there
    rw [serial]
    rcases List.mem_append.mp within with old | new
    · exact ledger.living i before (ended.not.mp living) e old
    · rw [List.mem_singleton.mp new]
      exact fun equal => apart (ledger.apart p i alive.2.2 before equal).symm
  · intro i there ended
    by_cases here : i = p
    · subst here
      rw [self]
      exact List.mem_append_right _ (List.mem_singleton_self _)
    · obtain ⟨before, serial, exitCode, state⟩ := others i here there
      rw [serial, exitCode]
      exact List.mem_append_left _ (ledger.recorded i before (state.mp ended))
  · intro i there
    rw [(serials i there).2]
    exact ledger.unreported i (serials i there).1
  · rw [List.map_append, List.nodup_append]
    refine ⟨ledger.exitsOnce, List.nodup_singleton _, ?_⟩
    intro serial old other new
    obtain ⟨e, within, rfl⟩ := List.mem_map.mp old
    rw [List.map_cons, List.map_nil, List.mem_singleton] at new
    rw [new]
    exact unrecorded e within
  · exact ledger.waitsOnce
  · exact fun w within => List.mem_append_left _ (ledger.truthful w within)

theorem Ledger.report {z : Slot} {pid : Nat}
    (there : (kin z).pid ≠ 0) (ended : (kin z).state = .terminated) :
    Ledger (update kin z emptyKin)
      { book with waits := book.waits ++ [((kin z).serialNo, pid, (kin z).exitCode)] } := by
  have vacated := ledger.vacate z
  constructor
  · exact vacated.fresh
  · exact vacated.apart
  · exact vacated.below
  · exact vacated.living
  · exact vacated.recorded
  · intro i still w within
    have apart : i ≠ z := by
      rintro rfl
      rw [update_self] at still
      exact still rfl
    rcases List.mem_append.mp within with old | new
    · exact vacated.unreported i still w old
    · rw [update_of_ne apart] at still ⊢
      rw [List.mem_singleton.mp new]
      exact fun equal => apart (ledger.apart z i there still equal).symm
  · exact vacated.exitsOnce
  · rw [List.map_append, List.nodup_append]
    refine ⟨ledger.waitsOnce, List.nodup_singleton _, ?_⟩
    intro serial old other new
    obtain ⟨w, within, rfl⟩ := List.mem_map.mp old
    rw [List.map_cons, List.map_nil, List.mem_singleton] at new
    rw [new]
    exact ledger.unreported z there w within
  · intro w within
    rcases List.mem_append.mp within with old | new
    · exact ledger.truthful w old
    · rw [List.mem_singleton.mp new]
      exact ledger.recorded z there ended

end Ledger

end Ledger

section Reports

variable {s : Sched}

theorem Ledger.scheduleNext (ledger : Ledger s.kin s.book) (ok : Family s.kin) :
    Ledger s.scheduleNext.kin s.scheduleNext.book := by
  obtain ⟨next, chosen, kin, -⟩ := scheduleNext_kin s ok.idleState
  have before : (s.kin next).state ≠ .terminated := by
    rcases chosen with rfl | ready
    · rcases ok.idleState with ready | running
      · rw [ready]
        exact nofun
      · rw [running]
        exact nofun
    · rw [ready]
      exact nofun
  rw [kin, book_scheduleNext]
  exact ledger.stir rfl rfl rfl before nofun

theorem Ledger.exitSlot (ledger : Ledger s.kin s.book) (ok : TreeOk s) (p : Slot) (code : Int) :
    Ledger (s.exitSlot p code).kin (s.exitSlot p code).book := by
  by_cases alive : Alive (s.kin p)
  swap
  · rw [exitSlot_not_alive s p code alive]
    exact ledger
  have family := ok.family.parted code alive
  have dying := (ok.family.pid_eq alive.2.2).1
  have parted : Ledger (s.parted p code).kin (s.parted p code).book := by
    rw [book_parted]
    refine ledger.exit alive (parted_self ok.family code alive) ?_
    intro i apart there
    by_cases idle : i = 0
    · subst idle
      rw [parted_idle code dying] at there
      exact absurd ok.family.idlePid there
    -- The others keep their numbers and codes, and none of them ends.
    obtain ⟨pid, -, -, serialNo, exitCode⟩ := woken_same p (s.kin p).ppid (s.kin i)
    obtain ⟨-, terminated⟩ := woken_state p (s.kin p).ppid (s.kin i)
    rcases parted_other ok.family code idle apart with ⟨reaped, -⟩ | ⟨orphan, -⟩ | ⟨stays, -⟩
    · rw [reaped] at there
      exact absurd rfl there
    · rw [orphan] at there ⊢
      exact ⟨pid ▸ there, serialNo, exitCode, terminated⟩
    · rw [stays] at there ⊢
      exact ⟨pid ▸ there, serialNo, exitCode, terminated⟩
  rw [exitSlot_alive s p code alive]
  unfold finishExit
  split_ifs
  · rw [kin_clear, book_clear]
    exact parted.vacate p
  · rw [kin_freeStack, book_freeStack]
    exact parted
  · exact parted.scheduleNext family

/-- Every operation keeps the book in order. -/
theorem Sched.Effect.ledger {op : ProcOp} {t : Sched} (effect : Effect op s t) (ok : TreeOk s)
    (ledger : Ledger s.kin s.book) : Ledger t.kin t.book := by
  have running : (s.kin s.current).state ≠ .terminated := ok.stirring.2
  cases effect with
  | same | count n => exact ledger
  | signal p pending =>
    rw [kin_setSignals]
    exact ledger
  | create slot ctx pageDir free page | fork slot pageDir user free page =>
    rw [kin_install, kin_log, book_install s slot _ rfl]
    exact ledger.fill rfl nofun
  | noPage slot free =>
    rw [kin_clear, book_clear]
    exact ledger.vacate slot
  | noClone slot free page =>
    rw [book_log _ rfl, kin_log, kin_clear, book_clear, book_log s rfl]
    exact ledger.vacate slot
  | noCopy slot pageDir free page =>
    rw [book_log _ rfl, kin_log, kin_clear, book_clear, book_log _ rfl, book_log s rfl]
    exact ledger.vacate slot
  | switch => exact ledger.scheduleNext ok.family
  | rotate n =>
    have counted : TreeOk { s with preemptTickCnt := n } := ⟨ok.family, ok.running⟩
    have queued : Ledger { s with preemptTickCnt := n }.requeue.kin
        { s with preemptTickCnt := n }.requeue.book := by
      rw [kin_requeue counted.running, book_requeue]
      exact Ledger.stir ledger rfl rfl rfl running nofun
    exact queued.scheduleNext counted.requeue
  | block target user cause =>
    have asleep : Ledger (s.sleeping target).kin (s.sleeping target).book := by
      rw [kin_sleeping target ok.running]
      exact ledger.stir rfl rfl rfl running nofun
    exact asleep.scheduleNext (ok.sleeping target user)
  | reap z user there zombie =>
    rw [kin_processReapSlot, book_processReapSlot]
    exact ledger.vacate z
  | report z code target found =>
    obtain ⟨user, matching, zombie, exitCode⟩ := processWaitScan_zombie found
    have there : (s.kin z).pid ≠ 0 := by
      simp only [waitMatches, Bool.and_eq_true, bne_iff_ne] at matching
      exact matching.1.1
    rw [kin_processReapSlot, book_processReapSlot, kin_log, book_waited, ← exitCode]
    exact ledger.report there zombie
  | exit p code user target => exact ledger.exitSlot ok p code
  | signalExit p pending code user target =>
    refine Ledger.exitSlot ?_ (ok.setSignals p pending) p code
    rw [kin_setSignals]
    exact ledger

theorem ledger_processInit (kernelPd idlePage : Nat) :
    Ledger (processInit kernelPd idlePage).kin (processInit kernelPd idlePage).book := by
  have gone : ∀ i : Slot, ((processInit kernelPd idlePage).kin i).pid = 0 := by
    intro i
    by_cases idle : i = 0
    · subst idle
      rfl
    · simp only [Sched.kin, processInit, update_of_ne idle]
      rfl
  have empty : (processInit kernelPd idlePage).book = ⟨[], [], 1⟩ := by
    simp only [Sched.book, processInit]
    split_ifs <;> rfl
  rw [empty]
  constructor
  · exact fun i there => absurd (gone i) there
  · exact fun i _ there => absurd (gone i) there
  · exact fun e within => absurd within List.not_mem_nil
  · exact fun i there => absurd (gone i) there
  · exact fun i there => absurd (gone i) there
  · exact fun i there => absurd (gone i) there
  · exact List.nodup_nil
  · exact List.nodup_nil
  · exact fun w within => absurd within List.not_mem_nil

theorem awaited_processInit (kernelPd idlePage : Nat) :
    Awaited (processInit kernelPd idlePage).kin := by
  intro i blocked
  by_cases idle : i = 0
  · subst idle
    cases blocked
  · simp only [Sched.kin, processInit, update_of_ne idle] at blocked
    cases blocked

/--
Nobody sleeps without a child to wait for, and every exit is reported at most once.

A process that sleeps has a child that matches what it waits for and has not ended.
No two waits return the same process, no process ends twice, and a wait returns the code that
was recorded when the process ended.
-/
theorem waits_are_answered (kernelPd idlePage : Nat) {s : Sched}
    (run : Run Sched.step (fun op _ => op.blindSleep = false) (processInit kernelPd idlePage) s) :
    (∀ i, (s.pcb i).state = .blocked → ∃ c, (s.pcb c).pid ≠ 0 ∧
      (s.pcb c).ppid = (s.pcb i).pid ∧
      ((s.pcb i).waitTarget = waitAny ∨ (s.pcb i).waitTarget = (s.pcb c).pid) ∧
      (s.pcb c).state ≠ .terminated) ∧
    ((waitsOf s.trace).map Prod.fst).Nodup ∧ ((exitsOf s.trace).map Prod.fst).Nodup ∧
    ∀ w ∈ waitsOf s.trace, (w.1, w.2.2) ∈ exitsOf s.trace := by
  have holds : TreeOk s ∧ Awaited s.kin ∧ Ledger s.kin s.book := by
    refine run.invariant (fun t => TreeOk t ∧ Awaited t.kin ∧ Ledger t.kin t.book) ?_ ?_
    · exact ⟨treeOk_processInit kernelPd idlePage, awaited_processInit kernelPd idlePage,
        ledger_processInit kernelPd idlePage⟩
    · intro op t looks ok
      have effect := step_effect op t
      exact ⟨effect.tree ok.1, effect.awaited ok.1 ok.2.1 looks, effect.ledger ok.1 ok.2.2⟩
  exact ⟨holds.2.1, holds.2.2.waitsOnce, holds.2.2.exitsOnce, holds.2.2.truthful⟩

def waitThenExit : List ProcOp :=
  [.createUserProcess 1 0 1 7, .start, .forkUser ⟨8, some 9, true⟩, .waitpid (-1) 0 true,
    .exit 3, .waitpid (-1) 0 true]

/-- The shell gets the code of its child, once. -/
theorem waits_are_answered_child :
    ((waitsOf (runInputs Sched.step waitThenExit (processInit 0 5)).trace).map Prod.fst).Nodup ∧
      waitsOf (runInputs Sched.step waitThenExit (processInit 0 5)).trace = [(2, 2, 768)] :=
  ⟨(waits_are_answered 0 5 (Run.start.inputs waitThenExit (by decide +kernel))).2.1,
    by decide +kernel⟩

end Reports

end CatOs.Proc
