import CatOs.Proc.Zombies
import Mathlib.Data.Fintype.Card

/-! The ready queue: a linked list of the ready processes, as long as no linked slot is cleared. -/

namespace CatOs.Proc

open Sched
open Function

def Sched.links (s : Sched) : Slot → Option Slot := fun i => (s.pcb i).nextReady

def Sched.readyList (s : Sched) : List Slot := follow s.links 33 s.readyHead

/--
The ready queue is a list without repetitions that ends at its tail.

It has every ready process but possibly one that was just taken off, and otherwise only
processes that have ended.
-/
structure QueueOk (s : Sched) (queue : List Slot) (but : Option Slot) : Prop where
  linked : Linked s.links s.readyHead queue
  tail : s.readyTail = queue.getLast?
  nodup : queue.Nodup
  complete : ∀ i, (s.kin i).state = .ready → i ∈ queue ∨ but = some i
  members : ∀ i ∈ queue, (s.kin i).state = .ready ∨ (s.kin i).state = .terminated

section Operations

variable {s : Sched} {queue : List Slot} {but : Option Slot}

theorem links_modify (s : Sched) (i : Slot) (change : Pcb → Pcb) :
    (s.modify i change).links = update s.links i (change (s.pcb i)).nextReady := by
  funext j
  by_cases here : j = i
  · subst here
    simp [links, Sched.modify]
  · simp [links, Sched.modify, here]

theorem links_modify_same (s : Sched) (i : Slot) (change : Pcb → Pcb)
    (same : ∀ b, (change b).nextReady = b.nextReady) :
    (s.modify i change).links = s.links := by
  rw [links_modify, same]
  exact update_eq_self i s.links

theorem links_unlinkHead (s : Sched) (p : Slot) :
    (s.unlinkHead p).links = update s.links p none := by
  unfold Sched.unlinkHead
  exact links_modify _ p _

theorem links_freeStack (s : Sched) (p : Slot) : (s.freeStack p).links = s.links := by
  unfold Sched.freeStack
  split_ifs
  · exact links_modify_same _ p _ (by intro b; rfl)
  · rfl

theorem readyHead_freeStack (s : Sched) (p : Slot) :
    (s.freeStack p).readyHead = s.readyHead := by
  unfold Sched.freeStack
  split_ifs <;> rfl

theorem QueueOk.of_eq {t : Sched} (ok : QueueOk s queue but) (links : t.links = s.links)
    (head : t.readyHead = s.readyHead) (tail : t.readyTail = s.readyTail)
    (state : ∀ i, (t.kin i).state = (s.kin i).state) : QueueOk t queue but where
  linked := by rw [links, head]; exact ok.linked
  tail := tail.trans ok.tail
  nodup := ok.nodup
  complete i ready := ok.complete i ((state i).symm.trans ready)
  members i within := by rw [state i]; exact ok.members i within

theorem QueueOk.readyList_eq (ok : QueueOk s queue but) : s.readyList = queue := by
  apply ok.linked.follow_eq
  have bound := ok.nodup.length_le_card
  rw [Fintype.card_fin] at bound
  omega

theorem QueueOk.enqueue (ok : QueueOk s queue none) {p : Slot} (outside : p ∉ queue)
    (change : Pcb → Pcb) (ready : (change (s.pcb p)).state = .ready) :
    QueueOk ((s.modify p change).readyEnqueue p) (queue ++ [p]) none := by
  have kin : ((s.modify p change).readyEnqueue p).kin =
      update s.kin p (change (s.pcb p)).kin := by
    rw [kin_readyEnqueue, kin_modify]
  have newTail : ((s.modify p change).readyEnqueue p).readyTail = some p := rfl
  have linked : Linked ((s.modify p change).readyEnqueue p).links
      ((s.modify p change).readyEnqueue p).readyHead (queue ++ [p]) := by
    have first : ((s.modify p change).modify p fun b => { b with nextReady := none }).links =
        update s.links p none := by
      rw [links_modify, links_modify, update_idem]
    cases tail : s.readyTail with
    | none =>
      -- An empty queue starts with the new process.
      have empty : queue = [] := List.getLast?_eq_none_iff.mp (ok.tail.symm.trans tail)
      subst empty
      simp only [readyEnqueue, readyTail_modify, tail]
      refine ⟨rfl, ?_⟩
      change Linked ((s.modify p change).modify p fun b => { b with nextReady := none }).links
        (((s.modify p change).modify p fun b => { b with nextReady := none }).links p) []
      rw [first, update_self]
      rfl
    | some last =>
      simp only [readyEnqueue, readyTail_modify, tail]
      change Linked (((s.modify p change).modify p fun b => { b with nextReady := none }).modify
        last fun b => { b with nextReady := some p }).links s.readyHead (queue ++ [p])
      rw [links_modify, first]
      exact ok.linked.append outside ok.nodup (ok.tail.symm.trans tail)
  refine ⟨linked, ?_, ?_, ?_, ?_⟩
  · rw [newTail, List.getLast?_append]
    rfl
  · exact List.nodup_append.mpr ⟨ok.nodup, List.nodup_singleton p, fun a within b alone => by
      rw [List.mem_singleton.mp alone]
      exact fun same => outside (same ▸ within)⟩
  · intro i isReady
    left
    by_cases here : i = p
    · subst here
      exact List.mem_append_right _ (List.mem_singleton_self i)
    · rw [kin, update_of_ne here] at isReady
      rcases ok.complete i isReady with within | nobody
      · exact List.mem_append_left _ within
      · cases nobody
  · intro i within
    rw [kin]
    by_cases here : i = p
    · subst here
      rw [update_self]
      exact .inl ready
    · rw [update_of_ne here]
      rcases List.mem_append.mp within with old | new
      · exact ok.members i old
      · exact absurd (List.mem_singleton.mp new) here

theorem QueueOk.outside (ok : QueueOk s queue but) {p : Slot} (outside : p ∉ queue)
    (change : Pcb → Pcb) (idle : (change (s.pcb p)).state ≠ .ready) :
    QueueOk (s.modify p change) queue but := by
  refine ⟨?_, ok.tail, ok.nodup, ?_, ?_⟩
  · rw [links_modify]
    exact ok.linked.update outside _
  · intro i ready
    rw [kin_modify] at ready
    by_cases here : i = p
    · subst here
      rw [update_self] at ready
      exact absurd ready idle
    · rw [update_of_ne here] at ready
      exact ok.complete i ready
  · intro i within
    have here : i ≠ p := fun same => outside (same ▸ within)
    rw [kin_modify, update_of_ne here]
    exact ok.members i within

theorem QueueOk.markDead (ok : QueueOk s queue none) (p : Slot) (code : Int) :
    QueueOk (s.markDead p code) queue none := by
  have kin : (s.markDead p code).kin = update s.kin p (dead code (s.kin p)) :=
    kin_modify _ p _
  refine ⟨?_, ok.tail, ok.nodup, ?_, ?_⟩
  · have links : (s.markDead p code).links = s.links :=
      links_modify_same _ p _ (by intro b; rfl)
    rw [links]
    exact ok.linked
  · intro i ready
    rw [kin] at ready
    by_cases here : i = p
    · subst here
      rw [update_self] at ready
      cases ready
    · rw [update_of_ne here] at ready
      exact ok.complete i ready
  · intro i within
    rw [kin]
    by_cases here : i = p
    · subst here
      rw [update_self]
      exact .inr rfl
    · rw [update_of_ne here]
      exact ok.members i within

theorem QueueOk.freeStack (ok : QueueOk s queue but) (p : Slot) :
    QueueOk (s.freeStack p) queue but := by
  have state : ∀ i, ((s.freeStack p).kin i).state = (s.kin i).state := by
    intro i
    rw [kin_freeStack]
  unfold Sched.freeStack at state ⊢
  split_ifs at state ⊢
  · exact ok.of_eq (links_modify_same _ p _ (by intro b; rfl)) rfl rfl state
  · exact ok

theorem QueueOk.dropDir (ok : QueueOk s queue but) (p : Slot) :
    QueueOk (s.dropDir p) queue but := by
  have state : ∀ i, ((s.dropDir p).kin i).state = (s.kin i).state := by
    intro i
    rw [kin_dropDir]
  unfold Sched.dropDir at state ⊢
  split_ifs at state ⊢
  · exact ok.of_eq (links_modify_same _ p _ (by intro b; rfl)) rfl rfl state
  · exact ok

theorem QueueOk.signalParent (ok : QueueOk s queue but) (p : Slot) :
    QueueOk (s.signalParent p) queue but := by
  have state : ∀ i, ((s.signalParent p).kin i).state = (s.kin i).state := by
    intro i
    rw [kin_signalParent]
  unfold Sched.signalParent at state ⊢
  dsimp only at state ⊢
  split_ifs at state ⊢
  · exact ok.of_eq (links_modify_same _ _ _ (by intro b; rfl)) rfl rfl state
  · exact ok
  · exact ok

theorem QueueOk.processReapSlot (ok : QueueOk s queue but) {p : Slot} (outside : p ∉ queue) :
    QueueOk (s.processReapSlot p) queue but :=
  ((ok.dropDir p).freeStack p).outside outside (fun _ => emptyPcb) nofun

theorem QueueOk.unlinkHead {p : Slot} {rest : List Slot} (ok : QueueOk s (p :: rest) none) :
    QueueOk (s.unlinkHead p) rest (some p) := by
  obtain ⟨fresh, distinct⟩ := List.nodup_cons.mp ok.nodup
  refine ⟨?_, ?_, distinct, ?_, ?_⟩
  · rw [links_unlinkHead]
    exact ok.linked.pop fresh
  · -- The tail is forgotten exactly when it was the process that is taken off.
    have tail := ok.tail
    have newTail : (s.unlinkHead p).readyTail =
      if s.readyTail = some p then none else s.readyTail := rfl
    rw [newTail, tail]
    cases rest with
    | nil => simp
    | cons second rest =>
      rw [List.getLast?_cons_cons]
      have apart : (second :: rest).getLast? ≠ some p := fun same =>
        fresh (List.mem_of_getLast? same)
      rw [if_neg apart]
  · intro i ready
    rw [kin_unlinkHead] at ready
    rcases ok.complete i ready with within | nobody
    · rcases List.mem_cons.mp within with same | later
      · exact .inr (congrArg some same.symm)
      · exact .inl later
    · cases nobody
  · intro i within
    rw [kin_unlinkHead]
    exact ok.members i (List.mem_cons_of_mem _ within)

theorem QueueOk.settle {p : Slot} (ok : QueueOk s queue (some p))
    (idle : (s.kin p).state ≠ .ready) : QueueOk s queue none where
  linked := ok.linked
  tail := ok.tail
  nodup := ok.nodup
  complete i ready := by
    rcases ok.complete i ready with within | same
    · exact .inl within
    · obtain rfl : p = i := Option.some.inj same
      exact absurd ready idle
  members := ok.members

theorem QueueOk.pickLoop (fuel : Nat) (s : Sched) (queue : List Slot)
    (ok : QueueOk s queue none) (enough : queue.length < fuel) :
    ∃ rest, QueueOk (pickLoop fuel s).1 rest (pickLoop fuel s).2 ∧
      ((pickLoop fuel s).2 = none → rest = []) ∧
      ∀ p, (pickLoop fuel s).2 = some p → p ∉ rest := by
  induction fuel generalizing s queue with
  | zero => exact absurd enough (Nat.not_lt_zero _)
  | succ fuel ih =>
    unfold Sched.pickLoop
    rw [ok.linked.head_eq]
    cases queue with
    | nil =>
      refine ⟨[], ok, fun _ => rfl, ?_⟩
      intro p found
      cases found
    | cons p rest =>
      have shorter : rest.length < fuel := Nat.lt_of_succ_lt_succ enough
      have unlinked := ok.unlinkHead
      dsimp only [List.head?_cons]
      by_cases ready : ((s.unlinkHead p).pcb p).state = .ready
      · rw [if_pos ready]
        refine ⟨rest, unlinked, fun nothing => ?_, ?_⟩
        · cases nothing
        intro q found
        obtain rfl : p = q := Option.some.inj found
        exact (List.nodup_cons.mp ok.nodup).1
      rw [if_neg ready]
      -- What is not ready can go.
      have settled := unlinked.settle ready
      split_ifs
      · exact ih _ rest (settled.freeStack p) shorter
      · exact ih _ rest settled shorter

theorem QueueOk.scheduleNext (ok : QueueOk s queue none) :
    ∃ rest, QueueOk s.scheduleNext rest none := by
  have bound := ok.nodup.length_le_card
  rw [Fintype.card_fin] at bound
  obtain ⟨rest, picked, empty, fresh⟩ := QueueOk.pickLoop 33 s queue ok (by omega)
  unfold Sched.scheduleNext pickNext
  rcases result : Sched.pickLoop 33 s with ⟨after, next⟩
  simp only [result] at picked empty fresh ⊢
  refine ⟨rest, ?_⟩
  have outside : next.getD 0 ∉ rest := by
    cases next with
    | none =>
      rw [empty rfl]
      exact List.not_mem_nil
    | some p => exact fresh p rfl
  -- Whoever is chosen is running in the end, so nobody ready is missing from the queue.
  have settle : ∀ {t : Sched}, QueueOk t rest next →
      (t.kin (next.getD 0)).state ≠ .ready → QueueOk t rest none := by
    intro t held idle
    cases next with
    | none => exact held
    | some p => exact held.settle idle
  unfold dispatch
  split_ifs with same ready
  · refine settle (picked.outside outside _ nofun) ?_
    rw [kin_modify, update_self]
    exact nofun
  · exact settle picked ready
  · have moved : QueueOk { after with current := next.getD 0 } rest next :=
      picked.of_eq rfl rfl rfl fun _ => rfl
    refine settle (moved.outside outside _ nofun) ?_
    rw [kin_modify, update_self]
    exact nofun

def linkCount (s : Sched) : Nat := (Finset.univ.filter fun i => s.links i ≠ none).card

theorem pickLoop_empty (fuel : Nat) (empty : s.readyHead = none) :
    Sched.pickLoop fuel s = (s, none) := by
  cases fuel with
  | zero => rfl
  | succ fuel =>
    unfold Sched.pickLoop
    rw [empty]

theorem linkCount_unlinkHead {p : Slot} (linked : s.links p ≠ none) :
    linkCount (s.unlinkHead p) < linkCount s := by
  unfold linkCount
  rw [links_unlinkHead]
  apply Finset.card_lt_card
  refine Finset.ssubset_iff_of_subset ?_ |>.mpr ⟨p, by simpa using linked, by simp⟩
  intro i within
  simp only [Finset.mem_filter, Finset.mem_univ, true_and] at within ⊢
  by_cases here : i = p
  · subst here
    exact linked
  · rw [update_of_ne here] at within
    exact within

theorem pickLoop_succ (fuel : Nat) {p : Slot} (head : s.readyHead = some p) :
    Sched.pickLoop (fuel + 1) s =
      if ((s.unlinkHead p).pcb p).state = .ready then (s.unlinkHead p, some p)
      else if ((s.unlinkHead p).pcb p).state = .terminated then
        Sched.pickLoop fuel ((s.unlinkHead p).freeStack p)
      else Sched.pickLoop fuel (s.unlinkHead p) := by
  rw [Sched.pickLoop, head]

theorem pickLoop_fuel (n : Nat) (s : Sched) (few : linkCount s ≤ n) (fuel : Nat)
    (enough : n < fuel) : Sched.pickLoop fuel s = Sched.pickLoop (n + 1) s := by
  -- Every process that is taken off loses its next pointer, so the pointers run out.
  induction n generalizing s fuel with
  | zero =>
    obtain ⟨fuel, rfl⟩ : ∃ f, fuel = f + 1 := ⟨fuel - 1, by omega⟩
    cases head : s.readyHead with
    | none => rw [pickLoop_empty _ head, pickLoop_empty _ head]
    | some p =>
      have unlinked : (s.unlinkHead p).readyHead = none := by
        by_contra linked
        have := linkCount_unlinkHead linked
        omega
      have freed : ((s.unlinkHead p).freeStack p).readyHead = none :=
        (readyHead_freeStack _ p).trans unlinked
      rw [pickLoop_succ fuel head, pickLoop_succ 0 head, pickLoop_empty fuel freed,
        pickLoop_empty fuel unlinked, pickLoop_empty 0 freed, pickLoop_empty 0 unlinked]
  | succ n ih =>
    obtain ⟨fuel, rfl⟩ : ∃ f, fuel = f + 1 := ⟨fuel - 1, by omega⟩
    cases head : s.readyHead with
    | none => rw [pickLoop_empty _ head, pickLoop_empty _ head]
    | some p =>
      rw [pickLoop_succ fuel head, pickLoop_succ (n + 1) head]
      by_cases linked : s.links p = none
      · have unlinked : (s.unlinkHead p).readyHead = none := linked
        have freed : ((s.unlinkHead p).freeStack p).readyHead = none :=
          (readyHead_freeStack _ p).trans unlinked
        rw [pickLoop_empty fuel freed, pickLoop_empty fuel unlinked,
          pickLoop_empty (n + 1) freed, pickLoop_empty (n + 1) unlinked]
      · have fewer := linkCount_unlinkHead linked
        have freed : linkCount ((s.unlinkHead p).freeStack p) = linkCount (s.unlinkHead p) := by
          unfold linkCount
          rw [links_freeStack]
        rw [ih _ (by omega) fuel (by omega), ih (s.unlinkHead p) (by omega) fuel (by omega)]

end Operations

section Exits

variable {s : Sched} {queue : List Slot} {p : Slot}

theorem QueueOk.notMem (ok : QueueOk s queue none) {i : Slot}
    (ready : (s.kin i).state ≠ .ready) (ended : (s.kin i).state ≠ .terminated) : i ∉ queue :=
  fun within => (ok.members i within).elim ready ended

theorem QueueOk.wakeWaiters (ok : QueueOk s queue none) (p : Slot) :
    ∃ after, QueueOk (s.wakeWaiters p) after none ∧
      ∀ i ∈ after, i ∈ queue ∨ ((s.wakeWaiters p).kin i).state = .ready := by
  rw [Sched.wakeWaiters]
  refine foldl_invariant (fun t => ∃ after, QueueOk t after none ∧
    ∀ i ∈ after, i ∈ queue ∨ (t.kin i).state = .ready) userSlots ?_ s
    ⟨queue, ok, fun i within => .inl within⟩
  rintro t b - ⟨before, held, origin⟩
  unfold wakeOne
  split_ifs with waits
  · -- A sleeper is not in the queue.
    have asleep : (t.kin b).state = .blocked := by
      simp only [waitsFor, Bool.and_eq_true, beq_iff_eq] at waits
      exact waits.1.1.1
    have outside : b ∉ before :=
      held.notMem (by rw [asleep]; decide) (by rw [asleep]; decide)
    refine ⟨before ++ [b], held.enqueue outside _ rfl, ?_⟩
    intro i within
    rw [kin_readyEnqueue, kin_modify]
    by_cases here : i = b
    · subst here
      rw [update_self]
      exact .inr rfl
    · rw [update_of_ne here]
      rcases List.mem_append.mp within with old | new
      · exact origin i old
      · exact absurd (List.mem_singleton.mp new) here
  · exact ⟨before, held, origin⟩

theorem released_not_child (user : p ≠ 0) (k : Kin) (there : (released p k).pid ≠ 0) :
    (released p k).ppid = p.val → (released p k).state = .created := by
  unfold released at there ⊢
  split_ifs at there ⊢ with child ended
  · exact absurd rfl there
  · exact fun zero => absurd (Fin.ext zero.symm) user
  · intro own
    by_contra state
    exact child ⟨there, own, state⟩

theorem released_idem (user : p ≠ 0) (k : Kin) : released p (released p k) = released p k := by
  by_cases child : (released p k).pid ≠ 0 ∧ (released p k).ppid = p.val ∧
      (released p k).state ≠ .created
  · exact absurd (released_not_child user k child.1 child.2.1) child.2.2
  · exact if_neg child

theorem QueueOk.releaseChildren (ok : QueueOk s queue none) (user : p ≠ 0)
    (unlinked : ∀ c ∈ queue, (s.kin c).pid ≠ 0 → (s.kin c).ppid = p.val →
      (s.kin c).state ≠ .terminated) :
    QueueOk (s.releaseChildren p) queue none := by
  -- A slot that has not had its turn is as before, and one that had it is no child any more.
  suffices turn : ∀ t : Sched, ∀ c ∈ userSlots,
      (QueueOk t queue none ∧ ∀ i, t.kin i = s.kin i ∨ t.kin i = released p (s.kin i)) →
      QueueOk (releaseOne p t c) queue none ∧ ∀ i, (releaseOne p t c).kin i = s.kin i ∨
        (releaseOne p t c).kin i = released p (s.kin i) by
    rw [Sched.releaseChildren]
    exact (foldl_invariant (fun t : Sched => QueueOk t queue none ∧
      ∀ i, t.kin i = s.kin i ∨ t.kin i = released p (s.kin i)) userSlots turn s
      ⟨ok, fun i => .inl rfl⟩).1
  rintro t c - ⟨held, origin⟩
  have kin := kin_releaseOne t p c
  have after : ∀ i, (releaseOne p t c).kin i = s.kin i ∨
      (releaseOne p t c).kin i = released p (s.kin i) := by
    intro i
    rw [kin]
    by_cases here : i = c
    · subst here
      rw [update_self]
      rcases origin i with same | changed
      · exact .inr (congrArg (released p) same)
      · right
        rw [changed]
        exact released_idem user _
    · rw [update_of_ne here]
      exact origin i
  refine ⟨?_, after⟩
  unfold releaseOne
  split_ifs with child ended
  · refine held.processReapSlot ?_
    intro within
    have there : (t.kin c).pid ≠ 0 := child.1
    have parent : (t.kin c).ppid = p.val := child.2.1
    have dead : (t.kin c).state = .terminated := ended
    rcases origin c with same | changed
    · rw [same] at there parent dead
      exact unlinked c within there parent dead
    · rw [changed] at there parent dead
      cases (released_not_child user _ there parent).symm.trans dead
  · exact held.of_eq (links_modify_same _ c _ (by intro b; rfl)) rfl rfl (by
      intro i
      rw [kin_modify]
      by_cases here : i = c
      · subst here
        rw [update_self]
        rfl
      · rw [update_of_ne here])
  · exact held

theorem scheduleNext_pid (ok : Family s.kin) (i : Slot) :
    (s.scheduleNext.kin i).pid = (s.kin i).pid := by
  obtain ⟨next, -, kin, -⟩ := scheduleNext_kin s ok.idleState
  rw [kin, runs]
  by_cases here : i = next
  · subst here
    rw [update_self]
  · rw [update_of_ne here]

theorem exitSlot_clears_child (ok : TreeOk s) (code : Int) (alive : Alive (s.kin p)) {c : Slot}
    (there : (s.kin c).pid ≠ 0) (child : (s.kin c).ppid = p.val)
    (ended : (s.kin c).state = .terminated) : ((s.exitSlot p code).kin c).pid = 0 := by
  have user := (ok.family.pid_eq there).1
  have apart : c ≠ p := by
    rintro rfl
    exact alive.1 ended
  have parted : (s.parted p code).kin c = emptyKin := by
    rcases parted_other ok.family code user apart with ⟨reaped, -⟩ | ⟨-, living⟩ | ⟨-, other⟩
    · exact reaped
    · exact absurd ended living
    · exact absurd child (other there)
  have gone : ((s.parted p code).kin c).pid = 0 := by
    rw [parted]
    rfl
  rw [exitSlot_alive s p code alive]
  unfold finishExit
  split_ifs
  · rw [kin_clear, update_of_ne apart]
    exact gone
  · rw [kin_freeStack]
    exact gone
  · rw [scheduleNext_pid (ok.family.parted code alive)]
    exact gone

theorem QueueOk.exitSlot (held : QueueOk s queue none) (ok : TreeOk s) (p : Slot) (code : Int)
    (kept : ∀ i ∈ queue, (s.kin i).pid ≠ 0 → ((s.exitSlot p code).kin i).pid ≠ 0) :
    ∃ after, QueueOk (s.exitSlot p code) after none := by
  by_cases alive : Alive (s.kin p)
  swap
  · rw [exitSlot_not_alive s p code alive]
    exact ⟨queue, held⟩
  have user := (ok.family.pid_eq alive.2.2).1
  have marked : (s.markDead p code).kin = update s.kin p (dead code (s.kin p)) :=
    kin_modify _ p _
  obtain ⟨after, woken, origin⟩ := (held.markDead p code).wakeWaiters p
  -- What has ended when the children are parted had ended before, or is the dying process.
  have before : ∀ c, (((s.markDead p code).wakeWaiters p).kin c).state = .terminated → c ≠ p →
      (s.kin c).state = .terminated := by
    intro c ended apart
    rw [kin_wakeWaiters, marked] at ended
    simp only [update_of_ne apart] at ended
    split_ifs at ended
    · exact (woken_state p _ (s.kin c)).2.mp ended
    · exact ended
  have linkedBefore : ∀ c ∈ after,
      (((s.markDead p code).wakeWaiters p).kin c).state = .terminated → c ∈ queue := by
    intro c within ended
    rcases origin c within with old | ready
    · exact old
    · cases ready.symm.trans ended
  have unlinked : ∀ c ∈ after,
      ((((s.markDead p code).wakeWaiters p).signalParent p).kin c).pid ≠ 0 →
      ((((s.markDead p code).wakeWaiters p).signalParent p).kin c).ppid = p.val →
      ((((s.markDead p code).wakeWaiters p).signalParent p).kin c).state ≠ .terminated := by
    rw [kin_signalParent]
    intro c within there child ended
    have old := linkedBefore c within ended
    by_cases apart : c = p
    · subst apart
      rw [kin_wakeWaiters, marked] at child
      simp only [update_self, mem_userSlots, ne_eq, user, not_false_eq_true,
        if_true] at child
      exact ok.family.ppid_ne alive.2.2 child
    · have same : (((s.markDead p code).wakeWaiters p).kin c).pid = (s.kin c).pid ∧
          (((s.markDead p code).wakeWaiters p).kin c).ppid = (s.kin c).ppid := by
        rw [kin_wakeWaiters, marked]
        simp only [update_of_ne apart]
        split_ifs
        · exact ⟨(woken_same p _ _).1, (woken_same p _ _).2.1⟩
        · exact ⟨rfl, rfl⟩
      rw [same.1] at there
      rw [same.2] at child
      exact kept c old there
        (exitSlot_clears_child ok code alive there child (before c ended apart))
  have parted : QueueOk (s.parted p code) after none :=
    ((woken.signalParent p).releaseChildren user unlinked).dropDir p
  have result := exitSlot_alive s p code alive
  rw [result] at kept ⊢
  unfold finishExit at kept ⊢
  split_ifs at kept ⊢ with cleared other
  · -- A killed orphan that was linked would leave an empty slot in the queue.
    refine ⟨after, parted.outside ?_ (fun _ => emptyPcb) nofun⟩
    intro within
    have dead : (((s.markDead p code).wakeWaiters p).kin p).state = .terminated := by
      rw [kin_wakeWaiters, marked]
      simp only [update_self]
      split_ifs
      · exact (woken_state p _ _).2.mpr rfl
      · rfl
    refine kept p (linkedBefore p within dead) alive.2.2 ?_
    rw [kin_clear, update_self]
    rfl
  · exact ⟨after, parted.freeStack p⟩
  · exact parted.scheduleNext

end Exits

section Steps

variable {s : Sched} {queue : List Slot}

theorem QueueOk.install (held : QueueOk s queue none) {slot : Slot}
    (free : s.processAllocSlot = some slot) {b : Pcb} (ready : b.state = .ready)
    (event : ProcEvent) : QueueOk ((s.log event).install slot b) (queue ++ [slot]) none := by
  have empty := (processAllocSlot_vacant free).2.2.1
  have outside : slot ∉ queue :=
    held.notMem (by rw [empty]; exact nofun) (by rw [empty]; exact nofun)
  have numbered : QueueOk { s.log event with nextSerial := s.nextSerial + 1 } queue none :=
    held.of_eq rfl rfl rfl fun _ => rfl
  exact numbered.enqueue outside (fun _ => { b with serialNo := s.nextSerial }) ready

theorem QueueOk.clearVacant (held : QueueOk s queue none) {slot : Slot}
    (empty : (s.kin slot).state = .created) : QueueOk (s.clear slot) queue none := by
  have outside : slot ∉ queue :=
    held.notMem (by rw [empty]; exact nofun) (by rw [empty]; exact nofun)
  exact held.outside outside (fun _ => emptyPcb) nofun

theorem QueueOk.log (held : QueueOk s queue none) (event : ProcEvent) :
    QueueOk (s.log event) queue none :=
  held.of_eq rfl rfl rfl fun _ => rfl

theorem QueueOk.current (held : QueueOk s queue none) (ok : TreeOk s) : s.current ∉ queue :=
  held.notMem (by rw [ok.running]; exact nofun) (by rw [ok.running]; exact nofun)

/-- Every operation keeps the queue, unless it clears a slot that is linked. -/
theorem Sched.Effect.queueOk {op : ProcOp} {t : Sched} (effect : Effect op s t) (ok : TreeOk s)
    (held : QueueOk s queue none)
    (kept : ∀ i ∈ queue, (s.kin i).pid ≠ 0 → (t.kin i).pid ≠ 0) :
    ∃ after, QueueOk t after none := by
  -- A dead process that is reaped is not linked, or its slot would be cleared in the queue.
  have reaped : ∀ z, (s.kin z).pid ≠ 0 → t.kin = update s.kin z emptyKin →
      z ∉ queue := by
    intro z there kin within
    refine kept z within there ?_
    rw [kin, update_self]
    rfl
  cases effect with
  | same => exact ⟨queue, held⟩
  | count n => exact ⟨queue, held.of_eq rfl rfl rfl fun _ => rfl⟩
  | signal p pending =>
    refine ⟨queue, held.of_eq (links_modify_same _ _ _ (by intro b; rfl)) rfl rfl ?_⟩
    intro i
    rw [kin_setSignals]
  | create slot ctx pageDir free page | fork slot pageDir user free page =>
    exact ⟨_, held.install free rfl _⟩
  | noPage slot free => exact ⟨queue, held.clearVacant (processAllocSlot_vacant free).2.2.1⟩
  | noClone slot free page =>
    exact ⟨queue, ((held.log _).clearVacant (processAllocSlot_vacant free).2.2.1).log _⟩
  | noCopy slot pageDir free page =>
    exact ⟨queue, (((held.log _).log _).clearVacant (processAllocSlot_vacant free).2.2.1).log _⟩
  | switch => exact held.scheduleNext
  | rotate n =>
    have counted : QueueOk { s with preemptTickCnt := n } queue none :=
      held.of_eq rfl rfl rfl fun _ => rfl
    have queued : QueueOk { s with preemptTickCnt := n }.requeue (queue ++ [s.current]) none := by
      have running : (s.pcb s.current).state = .running := ok.running
      unfold Sched.requeue
      rw [if_pos running]
      exact counted.enqueue (held.current ok) _ rfl
    exact queued.scheduleNext
  | block target user cause =>
    have running : (s.pcb s.current).state = .running := ok.running
    refine QueueOk.scheduleNext (held.outside (held.current ok) _ ?_)
    simp only [running, if_true]
    exact nofun
  | reap z user there zombie =>
    exact ⟨queue, held.processReapSlot (reaped z there (kin_processReapSlot z))⟩
  | report z code target found =>
    obtain ⟨user, matching, zombie, -⟩ := processWaitScan_zombie found
    have there : (s.kin z).pid ≠ 0 := by
      simp only [waitMatches, Bool.and_eq_true, bne_iff_ne] at matching
      exact matching.1.1
    exact ⟨queue, (held.log _).processReapSlot (reaped z there (kin_processReapSlot z))⟩
  | exit p code user target => exact held.exitSlot ok p code kept
  | signalExit p pending code user target =>
    have same : QueueOk (s.setSignals p pending) queue none := by
      refine held.of_eq (links_modify_same _ _ _ (by intro b; rfl)) rfl rfl ?_
      intro i
      rw [kin_setSignals]
    refine same.exitSlot (ok.setSignals p pending) p code ?_
    rw [kin_setSignals]
    exact kept

end Steps

def KeepsLinked (op : ProcOp) (s : Sched) : Prop :=
  ∀ i ∈ s.readyList, (s.pcb i).pid ≠ 0 → ((s.step op).pcb i).pid ≠ 0

instance (op : ProcOp) (s : Sched) : Decidable (KeepsLinked op s) :=
  inferInstanceAs (Decidable (∀ _ ∈ _, _))

def threePrograms : List ProcOp :=
  [.createUserProcess 1 0 1 7, .createUserProcess 1 0 1 8, .createUserProcess 1 0 1 9, .start]

end CatOs.Proc
